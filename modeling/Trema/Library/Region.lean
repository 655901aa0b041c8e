import Trema.Library.Layout

namespace Trema.Library

variable {ε : Type}

def Holds (m : Bytes) (p : Nat) (b : Bytes) : Prop := slice m p b.length = b

theorem holds_nil (m : Bytes) (p : Nat) : Holds m p [] := by simp [Holds,slice]

theorem holds_self (m : Bytes) : Holds m 0 m := slice_whole rfl

theorem holds_mid (pre b post : Bytes) : Holds (pre ++ b ++ post) pre.length b := by
  simp [Holds,slice]

theorem holds_slice {m : Bytes} {p n : Nat} (h : p + n ≤ m.length) :
    Holds m p (slice m p n) := by
  rw [Holds,length_slice h]

section Reading

variable {m b : Bytes} {p : Nat}

theorem Holds.bound (h : Holds m p b) (hb : 0 < b.length) : p + b.length ≤ m.length := by
  have hl : (slice m p b.length).length = b.length := congrArg List.length h
  simp only [slice,List.length_take,List.length_drop] at hl
  omega

theorem Holds.inside {i n : Nat} (h : Holds m p b) (hi : i + n ≤ b.length) (hn : 0 < n) :
    p + i + n ≤ m.length := by
  have := h.bound (by omega)
  omega

theorem Holds.slice_eq {i n : Nat} (h : Holds m p b) (hi : i + n ≤ b.length) :
    slice m (p + i) n = slice b i n := by
  conv_rhs => rw [← h]
  rw [slice_slice hi]

theorem Holds.drop_eq (h : Holds m p b) : m.drop p = b ++ m.drop (p + b.length) := by
  have hs : (m.drop p).take b.length = b := h
  conv_lhs => rw [← List.take_append_drop b.length (m.drop p),hs]
  rw [List.drop_drop]

theorem Holds.append {c : Bytes} : Holds m p (b ++ c) ↔ Holds m p b ∧ Holds m (p + b.length) c := by
  constructor
  · intro h
    constructor
    · have hb := h.slice_eq (i := 0) (n := b.length) (by simp)
      rw [Nat.add_zero] at hb
      rw [Holds,hb]
      simp [slice]
    · have hc := h.slice_eq (i := b.length) (n := c.length) (by simp)
      rw [Holds,hc]
      simp [slice]
  · rintro ⟨hb,hc⟩
    rw [Holds,slice,hb.drop_eq,List.length_append,List.take_append]
    have hc' : (m.drop (p + b.length)).take c.length = c := hc
    simp [List.take_of_length_le,hc']

theorem Holds.drop (h : Holds m p b) (k : Nat) (hk : k ≤ b.length) :
    Holds m (p + k) (b.drop k) := by
  have hs := h.slice_eq (i := k) (n := b.length - k) (by omega)
  rw [Holds,List.length_drop,hs,slice,List.take_of_length_le (by simp)]

theorem Holds.of_length_eq (h : Holds m 0 b) (hl : b.length = m.length) : m = b := by
  rw [← h,slice_whole hl.symm]

theorem Holds.be16 {i : Nat} (h : Holds m p b) (hi : i + 2 ≤ b.length) :
    be16 m (p + i) = Library.be16 b i := by
  rw [Library.be16,Library.be16,h.slice_eq hi]

theorem Holds.be32 {i : Nat} (h : Holds m p b) (hi : i + 4 ≤ b.length) :
    be32 m (p + i) = Library.be32 b i := by
  rw [Library.be32,Library.be32,h.slice_eq hi]

theorem Holds.be64 {i : Nat} (h : Holds m p b) (hi : i + 8 ≤ b.length) :
    be64 m (p + i) = Library.be64 b i := by
  rw [Library.be64,Library.be64,h.slice_eq hi]

theorem Holds.host16 {i : Nat} (h : Holds m p b) (hi : i + 2 ≤ b.length) :
    host16 m (p + i) = Library.host16 b i := by
  rw [Library.host16,Library.host16,h.slice_eq hi]

theorem Holds.convert {fs : List Field} (h : Holds m p b) (hb : Layout.readEnd fs ≤ b.length)
    (hpos : 0 < b.length) :
    (Layout.convert fs m p : Run ε Bytes) = .ok (Layout.cells fs b) := by
  have := h.bound hpos
  rw [Layout.convert_inside (by omega),h.drop_eq,Layout.cells_append _ hb]

end Reading

section Writing

variable {m m' bs : Bytes} {p : Nat}

theorem store_eq_ok : (store m p bs : Run ε Bytes) = .ok m' ↔
    p + bs.length ≤ m.length ∧ m' = m.take p ++ bs ++ m.drop (p + bs.length) := by
  unfold store
  split <;> simp_all [eq_comm]

theorem exists_store (h : p + bs.length ≤ m.length) :
    ∃ m', (store m p bs : Run ε Bytes) = .ok m' := ⟨_,store_ok h⟩

theorem holds_of_store (h : (store m p bs : Run ε Bytes) = .ok m') : Holds m' p bs := by
  obtain ⟨hl,rfl⟩ := store_eq_ok.mp h
  have hp : (m.take p).length = p := by simp; omega
  have hm := holds_mid (m.take p) bs (m.drop (p + bs.length))
  rwa [hp] at hm

theorem Holds.frame {q : Nat} {c : Bytes} (h : Holds m q c)
    (hs : (store m p bs : Run ε Bytes) = .ok m')
    (hd : q + c.length ≤ p ∨ p + bs.length ≤ q) : Holds m' q c := by
  obtain ⟨hl,rfl⟩ := store_eq_ok.mp hs
  have hp : (m.take p).length = p := by simp; omega
  rcases hd with hd | hd
  · rw [Holds,List.append_assoc,slice_append_left (by omega)]
    rw [slice,List.drop_take,List.take_take,Nat.min_eq_left (by omega)]
    exact h
  · have hpre : (m.take p ++ bs).length = p + bs.length := by simp; omega
    rw [Holds,slice_append_right _ (by omega),hpre,slice_drop]
    rw [show p + bs.length + (q - (p + bs.length)) = q by omega]
    exact h

theorem store_then_store {a b m₁ m₂ : Bytes} (h₁ : (store m p a : Run ε Bytes) = .ok m₁)
    (h₂ : (store m₁ (p + a.length) b : Run ε Bytes) = .ok m₂) :
    (store m p (a ++ b) : Run ε Bytes) = .ok m₂ := by
  obtain ⟨hl₁,rfl⟩ := store_eq_ok.mp h₁
  obtain ⟨hl₂,rfl⟩ := store_eq_ok.mp h₂
  have hp : (m.take p ++ a).length = p + a.length := by simp; omega
  have hlen : p + (a ++ b).length ≤ m.length := by
    simp at hl₂ ⊢
    omega
  refine store_eq_ok.mpr ⟨hlen,?_⟩
  rw [← hp,List.take_left' rfl,List.drop_append]
  simp only [hp]
  rw [List.drop_eq_nil_of_le (by simp; omega)]
  simp only [List.length_append,List.nil_append,List.drop_drop,List.append_assoc]
  congr 4
  omega

theorem store_nil (h : p ≤ m.length) : (store m p [] : Run ε Bytes) = .ok m := by
  rw [store_ok (by simpa using h)]
  simp

theorem store_same {b : Bytes} (h : Holds m p b) (hl : p + b.length ≤ m.length) :
    (store m p b : Run ε Bytes) = .ok m := by
  have hs : (m.drop p).take b.length = b := h
  rw [store_ok hl,List.append_assoc,← List.drop_drop]
  conv_rhs => rw [← List.take_append_drop p m,← List.take_append_drop b.length (m.drop p),hs]

theorem store_prefix {a c m₁ : Bytes} (h : (store m p a : Run ε Bytes) = .ok m₁)
    (hc : Holds m (p + a.length) c) (hl : p + a.length + c.length ≤ m.length) :
    (store m p (a ++ c) : Run ε Bytes) = .ok m₁ := by
  have hlen := length_of_store h
  exact store_then_store h (store_same (hc.frame h (.inr le_rfl)) (by omega))

end Writing

section Fields

variable {b bs : Bytes} {off p : Nat}

theorem slice_overwrite_apart {n : Nat} (h : off + bs.length ≤ b.length)
    (hp : p + n ≤ off ∨ off + bs.length ≤ p) : slice (overwrite b off bs) p n = slice b p n := by
  rcases hp with hp | hp
  · exact slice_overwrite_before hp h
  · exact slice_overwrite_after n hp h

theorem hostByte_overwrite_apart (h : off + bs.length ≤ b.length)
    (hp : p + 1 ≤ off ∨ off + bs.length ≤ p) : hostByte (overwrite b off bs) p = hostByte b p := by
  rw [Library.hostByte,slice_overwrite_apart h hp,Library.hostByte]

theorem be16_overwrite_apart (h : off + bs.length ≤ b.length)
    (hp : p + 2 ≤ off ∨ off + bs.length ≤ p) : be16 (overwrite b off bs) p = be16 b p := by
  rw [Library.be16,slice_overwrite_apart h hp,Library.be16]

theorem be32_overwrite_apart (h : off + bs.length ≤ b.length)
    (hp : p + 4 ≤ off ∨ off + bs.length ≤ p) : be32 (overwrite b off bs) p = be32 b p := by
  rw [Library.be32,slice_overwrite_apart h hp,Library.be32]

theorem be64_overwrite_apart (h : off + bs.length ≤ b.length)
    (hp : p + 8 ≤ off ∨ off + bs.length ≤ p) : be64 (overwrite b off bs) p = be64 b p := by
  rw [Library.be64,slice_overwrite_apart h hp,Library.be64]

theorem be32_overwrite (x : UInt32) (h : off + 4 ≤ b.length) :
    be32 (overwrite b off (toNet32 x)) off = x := by
  have hslice := slice_overwrite_self (show off + (toNet32 x).length ≤ b.length by simpa using h)
  rw [length_toNet32] at hslice
  rw [Library.be32,hslice,ofNat_beNat_toNet32]

theorem be64_overwrite (x : UInt64) (h : off + 8 ≤ b.length) :
    be64 (overwrite b off (toNet64 x)) off = x := by
  have hslice := slice_overwrite_self (show off + (toNet64 x).length ≤ b.length by simpa using h)
  rw [length_toNet64] at hslice
  rw [Library.be64,hslice,ofNat_beNat_toNet64]

end Fields

end Trema.Library
