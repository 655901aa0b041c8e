import Trema.Library.Region
import Trema.Library.OnesComplement

namespace Trema.Utility

open Library
open OnesComplement (Residue residue_sum residue_carry residue_complement)

-- for (; 2 <= size; pos++, size -= 2) csum += *pos; if ( size == 1 ) csum += *( unsigned char * ) pos;
def sumWords (csum : UInt32) : Bytes → UInt32
  | lo :: hi :: rest => sumWords (csum + UInt32.ofNat (leNat [lo,hi])) rest
  | [last] => csum + last.toUInt32
  | [] => csum

def foldCarry (csum : UInt32) : UInt32 := (csum &&& (0x0000ffff : UInt32)) + csum >>> (16 : UInt32)

def carries (csum : UInt32) : Bool := (csum &&& (0xffff0000 : UInt32)) != 0

def getChecksum (fuel : Nat) (pos : Bytes) : Run Empty UInt16 := do
  let csum ← whileLoop carries (fun csum => .ok (foldCarry csum)) fuel (sumWords 0 pos)
  pure (~~~ csum).toUInt16

-- The 16-bit words of a buffer in little-endian order, the last odd byte padded with zero.
def words : Bytes → List Nat
  | lo :: hi :: rest => leNat [lo,hi] :: words rest
  | [last] => [leNat [last,0]]
  | [] => []

section Words

theorem leNat_pair (a b : UInt8) : leNat [a,b] ≤ 65535 := by
  have ha := a.toNat_lt
  have hb := b.toNat_lt
  simp only [leNat]
  omega

theorem words_le (pos : Bytes) : ∀ w ∈ words pos, w ≤ 65535 := by
  induction pos using words.induct with
  | case1 lo hi rest ih =>
    intro w hw
    rcases List.mem_cons.mp hw with rfl | hw
    · exact leNat_pair lo hi
    · exact ih w hw
  | case2 last =>
    intro w hw
    rw [List.mem_singleton.mp hw]
    exact leNat_pair last 0
  | case3 => simp [words]

theorem sum_words_le (pos : Bytes) : 2 * (words pos).sum ≤ 65535 * (pos.length + 1) := by
  induction pos using words.induct with
  | case1 lo hi rest ih =>
    have := leNat_pair lo hi
    simp only [words,List.sum_cons,List.length_cons]
    omega
  | case2 last =>
    have := leNat_pair last 0
    simp only [words,List.sum_cons,List.sum_nil,List.length_cons,List.length_nil]
    omega
  | case3 => simp [words]

theorem words_append {a : Bytes} (b : Bytes) (h : a.length % 2 = 0) :
    words (a ++ b) = words a ++ words b := by
  induction a using words.induct with
  | case1 lo hi rest ih =>
    simp only [List.length_cons] at h
    exact congrArg _ (ih (by omega))
  | case2 last => simp at h
  | case3 => rfl

theorem toNat_sumWords (csum : UInt32) (pos : Bytes)
    (h : csum.toNat + (words pos).sum < 4294967296) :
    (sumWords csum pos).toNat = csum.toNat + (words pos).sum := by
  induction pos using words.induct generalizing csum with
  | case1 lo hi rest ih =>
    have hword := leNat_pair lo hi
    simp only [words,List.sum_cons] at h ⊢
    have hadd : (csum + UInt32.ofNat (leNat [lo,hi])).toNat = csum.toNat + leNat [lo,hi] := by
      simp only [UInt32.toNat_add,UInt32.toNat_ofNat']
      omega
    rw [sumWords,ih _ (by omega),hadd]
    omega
  | case2 last =>
    have hlast := last.toNat_lt
    simp only [words,leNat,List.sum_cons,List.sum_nil,UInt8.toNat_zero] at h ⊢
    simp only [sumWords,UInt32.toNat_add,UInt8.toNat_toUInt32]
    omega
  | case3 => rfl

end Words

section Folding

theorem toNat_foldCarry (csum : UInt32) :
    (foldCarry csum).toNat = csum.toNat % 65536 + csum.toNat / 65536 := by
  have hlt := csum.toNat_lt
  have hlow : (csum &&& (0x0000ffff : UInt32)).toNat = csum.toNat % 65536 :=
    (UInt32.toNat_and _ _).trans (Nat.and_two_pow_sub_one_eq_mod _ 16)
  have hhigh : (csum >>> (16 : UInt32)).toNat = csum.toNat / 65536 :=
    (UInt32.toNat_shiftRight _ _).trans (Nat.shiftRight_eq_div_pow _ _)
  rw [foldCarry,UInt32.toNat_add,hlow,hhigh]
  omega

theorem large_of_carries (csum : UInt32) : carries csum = true ↔ 65536 ≤ csum.toNat := by
  have hlt := csum.toNat_lt
  have hhigh : (csum.toNat &&& 0xffff0000) >>> 16 = csum.toNat / 65536 := by
    rw [Nat.shiftRight_and_distrib,Nat.shiftRight_eq_div_pow]
    refine (Nat.and_two_pow_sub_one_eq_mod _ 16).trans (Nat.mod_eq_of_lt ?_)
    omega
  have hzero : carries csum = false ↔ csum.toNat &&& 0xffff0000 = 0 := by
    rw [carries,bne_eq_false_iff_eq,← UInt32.toNat_inj,UInt32.toNat_and]
    rfl
  constructor
  · intro hc
    by_contra hsmall
    have hmod : csum.toNat &&& 0xffff0000 = (csum.toNat &&& 0xffff0000) % 65536 :=
      (Nat.mod_eq_of_lt (Nat.lt_of_le_of_lt Nat.and_le_left (by omega))).symm
    have hlow : (csum.toNat &&& 0xffff0000) % 2 ^ 16 = 0 := by
      rw [Nat.and_mod_two_pow]
      exact Nat.and_zero _
    rw [hzero.mpr (hmod.trans hlow)] at hc
    exact Bool.noConfusion hc
  · intro hbig
    by_contra hc
    rw [hzero.mp (by simpa using hc)] at hhigh
    omega

-- The word the folding loop ends with is the one's complement sum, whatever the order of the carries.
theorem fold_yields (csum : UInt32) : ∃ last : UInt32,
    Yields (fun n => whileLoop carries (fun c => (.ok (foldCarry c) : Run Empty UInt32)) n csum)
      (.ok last) ∧ Residue 65535 csum.toNat last.toNat := by
  obtain ⟨last,hlast,hres,hstop⟩ : ∃ last : UInt32,
      whileLoop carries (fun c => (.ok (foldCarry c) : Run Empty UInt32)) (csum.toNat + 1) csum = .ok last ∧
        (∀ r, Residue 65535 last.toNat r → Residue 65535 csum.toNat r) ∧ carries last = false :=
    whileLoop_measured (I := fun c => ∀ r, Residue 65535 c.toNat r → Residue 65535 csum.toNat r) UInt32.toNat
    (fun c hc hmore => by
      have hbig := (large_of_carries c).mp hmore
      have hfold := toNat_foldCarry c
      refine ⟨foldCarry c,rfl,fun r hr => hc r (residue_carry ?_),by omega⟩
      rwa [hfold] at hr)
    (s := csum) (fun _ hr => hr) (Nat.lt_succ_self _)
  have hsmall : ¬ 65536 ≤ last.toNat := fun h => by
    rw [(large_of_carries last).mpr h] at hstop
    exact Bool.noConfusion hstop
  exact ⟨last,⟨by simp,_,hlast⟩,hres _ (Residue.refl (by omega))⟩

end Folding

section Checksum

theorem getChecksum_yields (pos : Bytes) (h : (words pos).sum < 4294967296) : ∃ csum : UInt16,
    Yields (fun n => getChecksum n pos) (.ok csum) ∧
      Residue 65535 (words pos).sum (OnesComplement.complement 65535 csum.toNat) := by
  obtain ⟨last,⟨_,n,hn⟩,hres⟩ := fold_yields (sumWords 0 pos)
  have hsum : (sumWords 0 pos).toNat = (words pos).sum :=
    (toNat_sumWords 0 pos (by simpa using h)).trans (Nat.zero_add _)
  have hle := hres.le
  have hnot : ((~~~ last).toUInt16).toNat = 65535 - last.toNat := by
    rw [UInt32.toNat_toUInt16,UInt32.toNat_not]
    change (4294967296 - 1 - last.toNat) % 65536 = _
    omega
  refine ⟨(~~~ last).toUInt16,⟨by simp,n,?_⟩,?_⟩
  · simp only at hn
    simp only [getChecksum,hn,ok_bind]
    rfl
  · rw [OnesComplement.complement,hnot,Nat.sub_sub_self hle,← hsum]
    exact hres

theorem complement_involutive {m a : Nat} (h : a ≤ m) :
    OnesComplement.complement m (OnesComplement.complement m a) = a := Nat.sub_sub_self h

theorem sum_words_stored {pos : Bytes} {off : Nat} (csum : UInt16) (hoff : off % 2 = 0)
    (hroom : off + 2 ≤ pos.length) (hfield : slice pos off 2 = [0,0]) :
    (words (overwrite pos off (toHost16 csum))).sum = (words pos).sum + csum.toNat := by
  have hsplit : pos = pos.take off ++ ([0,0] ++ pos.drop (off + 2)) := by
    rw [← hfield,slice,← List.drop_drop,List.take_append_drop,List.take_append_drop]
  have heven : (pos.take off).length % 2 = 0 := by
    rw [List.length_take]
    omega
  have hword : words (toHost16 csum ++ pos.drop (off + 2)) =
      csum.toNat :: words (pos.drop (off + 2)) := by
    have hvalue : leNat (toHost16 csum) = csum.toNat := by
      rw [toHost16,leNat_leBytes]
      exact Nat.mod_eq_of_lt csum.toNat_lt
    rw [← hvalue]
    rfl
  have hold : (words pos).sum = (words (pos.take off)).sum + (words (pos.drop (off + 2))).sum := by
    conv_lhs => rw [hsplit,words_append _ heven,List.sum_append]
    simp [words,leNat]
  rw [overwrite,length_toHost16,List.append_assoc,words_append _ heven,hword,List.sum_append,
    List.sum_cons,hold]
  omega

-- A buffer that holds its own checksum adds up to all ones.
theorem checksum_verifies {pos : Bytes} {off : Nat} {csum : UInt16} (hlen : pos.length ≤ 65535)
    (hcsum : Residue 65535 (words pos).sum (OnesComplement.complement 65535 csum.toNat))
    (hoff : off % 2 = 0) (hroom : off + 2 ≤ pos.length) (hfield : slice pos off 2 = [0,0]) :
    Yields (fun n => getChecksum n (overwrite pos off (toHost16 csum))) (.ok 0) := by
  have hle : csum.toNat ≤ 65535 := Nat.le_of_lt_succ csum.toNat_lt
  have hbound := sum_words_le pos
  have hstored := sum_words_stored csum hoff hroom hfield
  have hones := residue_complement (by decide) hcsum
  rw [complement_involutive hle,← hstored] at hones
  obtain ⟨again,hyields,hres⟩ := getChecksum_yields (overwrite pos off (toHost16 csum)) (by omega)
  have hagain : OnesComplement.complement 65535 again.toNat = 65535 := hres.unique hones
  have hlt := again.toNat_lt
  have hzero : again = 0 := by
    rw [OnesComplement.complement] at hagain
    exact UInt16.toNat_inj.mp (by change _ = 0; omega)
  exact hzero ▸ hyields

theorem checksum_ones_complement (pos : Bytes) (h : pos.length ≤ 65535) :
    (sumWords 0 pos).toNat = (words pos).sum ∧
    ∃ csum : UInt16, Yields (fun n => getChecksum n pos) (.ok csum) ∧
      csum.toNat = OnesComplement.complement 65535 (OnesComplement.sum 65535 (words pos)) ∧
      ∀ off, pos.length % 2 = 0 → off % 2 = 0 → off + 2 ≤ pos.length → slice pos off 2 = [0,0] →
        Yields (fun n => getChecksum n (overwrite pos off (toHost16 csum))) (.ok 0) := by
  have hbound := sum_words_le pos
  obtain ⟨csum,hyields,hres⟩ := getChecksum_yields pos (by omega)
  refine ⟨?_,csum,hyields,?_,fun off _ => checksum_verifies h hres⟩
  · exact (toNat_sumWords 0 pos (by simp; omega)).trans (Nat.zero_add _)
  · rw [← hres.unique (residue_sum (words_le pos))]
    exact (complement_involutive (Nat.le_of_lt_succ csum.toNat_lt)).symm

-- The two words add up to more than sixteen bits, and the stored checksum brings the sum to all ones.
theorem checksum_ones_complement_folds : (sumWords 0 [0xff,0xff,0,0,0xff,0xff,2,0]).toNat = 0x20000 ∧
    ∃ csum : UInt16, Yields (fun n => getChecksum n [0xff,0xff,0,0,0xff,0xff,2,0]) (.ok csum) ∧
      csum.toNat = 0xfffd ∧
      Yields (fun n => getChecksum n (overwrite [0xff,0xff,0,0,0xff,0xff,2,0] 2 (toHost16 csum))) (.ok 0) := by
  obtain ⟨hsum,csum,hyields,hvalue,hverified⟩ :=
    checksum_ones_complement [0xff,0xff,0,0,0xff,0xff,2,0] (by decide)
  exact ⟨hsum,csum,hyields,hvalue,hverified 2 (by decide) (by decide) (by decide) (by decide)⟩

end Checksum

end Trema.Utility
