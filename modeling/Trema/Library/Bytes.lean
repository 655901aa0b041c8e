import Trema.Library.Fuel

namespace Trema.Library

abbrev Bytes := List UInt8

def leNat : Bytes → Nat
  | [] => 0
  | b :: bs => b.toNat + 256 * leNat bs

def beNat (bs : Bytes) : Nat := leNat bs.reverse

def leBytes : Nat → Nat → Bytes
  | 0, _ => []
  | n + 1, x => UInt8.ofNat x :: leBytes n (x / 256)

def beBytes (n x : Nat) : Bytes := (leBytes n x).reverse

@[simp] theorem length_leBytes (n x : Nat) : (leBytes n x).length = n := by
  induction n generalizing x with
  | zero => rfl
  | succ n ih => simp [leBytes,ih]

@[simp] theorem length_beBytes (n x : Nat) : (beBytes n x).length = n := by simp [beBytes]

theorem leNat_leBytes (n x : Nat) : leNat (leBytes n x) = x % 256 ^ n := by
  induction n generalizing x with
  | zero => simp [leNat,leBytes,Nat.mod_one]
  | succ n ih =>
    have hb : (UInt8.ofNat x).toNat = x % 256 := by simp
    simp only [leBytes,leNat,ih,hb]
    rw [Nat.pow_succ',Nat.mod_mul]

theorem beNat_beBytes (n x : Nat) : beNat (beBytes n x) = x % 256 ^ n := by
  simp [beNat,beBytes,leNat_leBytes]

theorem reverse_beBytes (n x : Nat) : (beBytes n x).reverse = leBytes n x := by
  simp [beBytes]

def slice (b : Bytes) (off n : Nat) : Bytes := (b.drop off).take n

def strncpy (src : Bytes) (n : Nat) : Bytes := src.take n ++ List.replicate (n - src.length) 0

theorem length_slice {b : Bytes} {off n : Nat} (h : off + n ≤ b.length) :
    (slice b off n).length = n := by
  simp [slice]
  omega

theorem slice_append_right {a b : Bytes} {off : Nat} (n : Nat) (h : a.length ≤ off) :
    slice (a ++ b) off n = slice b (off - a.length) n := by
  simp [slice,List.drop_append,List.drop_eq_nil_of_le h]

theorem slice_append_left {a b : Bytes} {off n : Nat} (h : off + n ≤ a.length) :
    slice (a ++ b) off n = slice a off n := by
  rw [slice,slice,List.drop_append_of_le_length (by omega),List.take_append_of_le_length]
  simp
  omega

theorem slice_whole {b : Bytes} {n : Nat} (h : b.length = n) : slice b 0 n = b := by
  simp [slice,← h]

theorem slice_slice {b : Bytes} {off n i k : Nat} (h : i + k ≤ n) :
    slice (slice b off n) i k = slice b (off + i) k := by
  simp only [slice,List.drop_take,List.take_take,List.drop_drop]
  congr 1
  omega

theorem slice_cons {x : UInt8} {xs : Bytes} {off : Nat} (n : Nat) (h : 0 < off) :
    slice (x :: xs) off n = slice xs (off - 1) n := by
  obtain ⟨k,rfl⟩ : ∃ k, off = k + 1 := ⟨off - 1,by omega⟩
  rfl

theorem slice_head (x : UInt8) (xs : Bytes) : slice (x :: xs) 0 1 = [x] := rfl

theorem slice_drop (b : Bytes) (p off n : Nat) : slice (b.drop p) off n = slice b (p + off) n := by
  simp [slice]

theorem slice_join {b x y : Bytes} {p n k : Nat} (h₁ : slice b p n = x)
    (h₂ : slice b (p + n) k = y) : slice b p (n + k) = x ++ y := by
  rw [← h₁,← h₂,slice,slice,slice,List.take_add,List.drop_drop]

def overwrite (b : Bytes) (off : Nat) (bs : Bytes) : Bytes :=
  b.take off ++ bs ++ b.drop (off + bs.length)

theorem overwrite_mid (pre old post : Bytes) {bs b : Bytes} {off : Nat} (hb : b = pre ++ old ++ post)
    (hoff : off = pre.length) (h : bs.length = old.length) :
    overwrite b off bs = pre ++ bs ++ post := by
  subst hb hoff
  simp [overwrite,List.drop_append,h]

theorem length_overwrite {b bs : Bytes} {off : Nat} (h : off + bs.length ≤ b.length) :
    (overwrite b off bs).length = b.length := by
  simp only [overwrite,List.length_append,List.length_take,List.length_drop]
  omega

theorem slice_overwrite_self {b bs : Bytes} {off : Nat} (h : off + bs.length ≤ b.length) :
    slice (overwrite b off bs) off bs.length = bs := by
  have hlen : (b.take off).length = off := by
    rw [List.length_take]
    omega
  rw [overwrite,List.append_assoc,slice_append_right _ hlen.le,hlen,Nat.sub_self,
    slice_append_left (by omega)]
  exact slice_whole rfl

theorem slice_overwrite_before {b bs : Bytes} {off p n : Nat} (hp : p + n ≤ off)
    (h : off + bs.length ≤ b.length) : slice (overwrite b off bs) p n = slice b p n := by
  rw [overwrite,List.append_assoc,slice_append_left (by simp; omega)]
  simp [slice,List.drop_take,List.take_take]
  omega

theorem slice_overwrite_after {b bs : Bytes} {off p : Nat} (n : Nat) (hp : off + bs.length ≤ p)
    (h : off + bs.length ≤ b.length) : slice (overwrite b off bs) p n = slice b p n := by
  have hhead : (b.take off ++ bs).length = off + bs.length := by
    rw [List.length_append,List.length_take,Nat.min_eq_left (by omega)]
  have hb : b = b.take (off + bs.length) ++ b.drop (off + bs.length) := (List.take_append_drop _ _).symm
  have htake : (b.take (off + bs.length)).length = off + bs.length := by
    rw [List.length_take,Nat.min_eq_left h]
  rw [overwrite,slice_append_right n (by rw [hhead]; exact hp),hhead]
  conv_rhs => rw [hb,slice_append_right n (by rw [htake]; exact hp),htake]

variable {ε α : Type}

def load (m : Bytes) (off n : Nat) : Run ε Bytes :=
  if off + n ≤ m.length then .ok (slice m off n) else .error .outOfBounds

def store (m : Bytes) (off : Nat) (bs : Bytes) : Run ε Bytes :=
  if off + bs.length ≤ m.length then .ok (m.take off ++ bs ++ m.drop (off + bs.length))
  else .error .outOfBounds

theorem load_ok {m : Bytes} {off n : Nat} (h : off + n ≤ m.length) :
    (load m off n : Run ε Bytes) = .ok (slice m off n) := if_pos h

theorem load_eq_ok {m b : Bytes} {off n : Nat} :
    (load m off n : Run ε Bytes) = .ok b ↔ off + n ≤ m.length ∧ b = slice m off n := by
  unfold load
  split
  · simp_all [eq_comm]
  · simp_all

theorem store_ok {m : Bytes} {off : Nat} {bs : Bytes} (h : off + bs.length ≤ m.length) :
    (store m off bs : Run ε Bytes) =
      .ok (m.take off ++ bs ++ m.drop (off + bs.length)) := if_pos h

theorem length_of_store {m r bs : Bytes} {off : Nat}
    (h : (store m off bs : Run ε Bytes) = .ok r) : r.length = m.length := by
  unfold store at h
  split at h
  · injection h with h
    rw [← h]
    simp
    omega
  · simp at h

theorem store_append (pre old post bs : Bytes) (h : bs.length = old.length) :
    (store (pre ++ old ++ post) pre.length bs : Run ε Bytes) = .ok (pre ++ bs ++ post) := by
  rw [store_ok (by simp; omega)]
  simp [List.drop_append,h]

theorem store_zeros (pre bs : Bytes) (n : Nat) (h : bs.length ≤ n) :
    (store (pre ++ List.replicate n 0) pre.length bs : Run ε Bytes) =
      .ok (pre ++ bs ++ List.replicate (n - bs.length) 0) := by
  have hn : List.replicate n (0 : UInt8) =
      List.replicate bs.length 0 ++ List.replicate (n - bs.length) 0 := by
    rw [← List.replicate_add]
    congr 1
    omega
  rw [hn,← List.append_assoc]
  exact store_append pre _ _ bs (by simp)

def hostByte (b : Bytes) (off : Nat) : UInt8 := UInt8.ofNat (leNat (slice b off 1))
def host16 (b : Bytes) (off : Nat) : UInt16 := UInt16.ofNat (leNat (slice b off 2))
def host32 (b : Bytes) (off : Nat) : UInt32 := UInt32.ofNat (leNat (slice b off 4))
def be16 (b : Bytes) (off : Nat) : UInt16 := UInt16.ofNat (beNat (slice b off 2))
def be32 (b : Bytes) (off : Nat) : UInt32 := UInt32.ofNat (beNat (slice b off 4))
def be64 (b : Bytes) (off : Nat) : UInt64 := UInt64.ofNat (beNat (slice b off 8))

def toHost16 (x : UInt16) : Bytes := leBytes 2 x.toNat
def toHost32 (x : UInt32) : Bytes := leBytes 4 x.toNat
def toHost64 (x : UInt64) : Bytes := leBytes 8 x.toNat

def toNet16 (x : UInt16) : Bytes := beBytes 2 x.toNat
def toNet32 (x : UInt32) : Bytes := beBytes 4 x.toNat
def toNet64 (x : UInt64) : Bytes := beBytes 8 x.toNat

def within (m : Bytes) (stop : Nat) (a : α) : Run ε α :=
  if stop ≤ m.length then .ok a else .error .outOfBounds

def byteAt (m : Bytes) (off : Nat) : Run ε UInt8 := within m (off + 1) (hostByte m off)
def net16 (m : Bytes) (off : Nat) : Run ε UInt16 := within m (off + 2) (be16 m off)
def net32 (m : Bytes) (off : Nat) : Run ε UInt32 := within m (off + 4) (be32 m off)
def net64 (m : Bytes) (off : Nat) : Run ε UInt64 := within m (off + 8) (be64 m off)

theorem within_eq_ok {m : Bytes} {stop : Nat} {a b : α} :
    (within m stop a : Run ε α) = .ok b ↔ stop ≤ m.length ∧ b = a := by
  unfold within
  split <;> simp_all [eq_comm]

theorem within_eq_error {m : Bytes} {stop : Nat} {a : α} {e : Stop ε} :
    (within m stop a : Run ε α) = .error e ↔ m.length < stop ∧ e = .outOfBounds := by
  unfold within
  split <;> simp_all [eq_comm]

theorem byteAt_eq_ok {m : Bytes} {off : Nat} {v : UInt8} :
    (byteAt m off : Run ε UInt8) = .ok v ↔ off + 1 ≤ m.length ∧ v = hostByte m off :=
  within_eq_ok

theorem net16_eq_ok {m : Bytes} {off : Nat} {v : UInt16} :
    (net16 m off : Run ε UInt16) = .ok v ↔ off + 2 ≤ m.length ∧ v = be16 m off :=
  within_eq_ok

theorem net32_eq_ok {m : Bytes} {off : Nat} {v : UInt32} :
    (net32 m off : Run ε UInt32) = .ok v ↔ off + 4 ≤ m.length ∧ v = be32 m off :=
  within_eq_ok

theorem byteAt_eq_error {m : Bytes} {off : Nat} {e : Stop ε} :
    (byteAt m off : Run ε UInt8) = .error e ↔ m.length < off + 1 ∧ e = .outOfBounds :=
  within_eq_error

theorem net16_eq_error {m : Bytes} {off : Nat} {e : Stop ε} :
    (net16 m off : Run ε UInt16) = .error e ↔ m.length < off + 2 ∧ e = .outOfBounds :=
  within_eq_error

theorem net32_eq_error {m : Bytes} {off : Nat} {e : Stop ε} :
    (net32 m off : Run ε UInt32) = .error e ↔ m.length < off + 4 ∧ e = .outOfBounds :=
  within_eq_error

theorem load_eq_error {m : Bytes} {off n : Nat} {e : Stop ε} :
    (load m off n : Run ε Bytes) = .error e ↔ m.length < off + n ∧ e = .outOfBounds := by
  unfold load
  split <;> simp_all [eq_comm]

theorem byteAt_inside {m : Bytes} {off : Nat} (h : off + 1 ≤ m.length) :
    (byteAt m off : Run ε UInt8) = .ok (hostByte m off) := if_pos h

theorem net16_inside {m : Bytes} {off : Nat} (h : off + 2 ≤ m.length) :
    (net16 m off : Run ε UInt16) = .ok (be16 m off) := if_pos h

theorem net32_inside {m : Bytes} {off : Nat} (h : off + 4 ≤ m.length) :
    (net32 m off : Run ε UInt32) = .ok (be32 m off) := if_pos h

theorem net64_inside {m : Bytes} {off : Nat} (h : off + 8 ≤ m.length) :
    (net64 m off : Run ε UInt64) = .ok (be64 m off) := if_pos h

section Encodings

@[simp] theorem length_toHost16 (x : UInt16) : (toHost16 x).length = 2 := by simp [toHost16]
@[simp] theorem length_toHost32 (x : UInt32) : (toHost32 x).length = 4 := by simp [toHost32]
@[simp] theorem length_toHost64 (x : UInt64) : (toHost64 x).length = 8 := by simp [toHost64]
@[simp] theorem length_toNet16 (x : UInt16) : (toNet16 x).length = 2 := by simp [toNet16]
@[simp] theorem length_toNet32 (x : UInt32) : (toNet32 x).length = 4 := by simp [toNet32]
@[simp] theorem length_toNet64 (x : UInt64) : (toNet64 x).length = 8 := by simp [toNet64]

theorem reverse_toNet16 (x : UInt16) : (toNet16 x).reverse = toHost16 x := reverse_beBytes 2 _

theorem reverse_toNet32 (x : UInt32) : (toNet32 x).reverse = toHost32 x := reverse_beBytes 4 _

theorem reverse_toNet64 (x : UInt64) : (toNet64 x).reverse = toHost64 x := reverse_beBytes 8 _

@[simp] theorem ofNat_beNat_toNet16 (x : UInt16) : UInt16.ofNat (beNat (toNet16 x)) = x := by
  rw [toNet16,beNat_beBytes,Nat.mod_eq_of_lt (by exact x.toNat_lt)]
  simp

@[simp] theorem ofNat_leNat_toHost16 (x : UInt16) : UInt16.ofNat (leNat (toHost16 x)) = x := by
  rw [toHost16,leNat_leBytes,Nat.mod_eq_of_lt (by exact x.toNat_lt)]
  simp

@[simp] theorem ofNat_beNat_toNet32 (x : UInt32) : UInt32.ofNat (beNat (toNet32 x)) = x := by
  rw [toNet32,beNat_beBytes,Nat.mod_eq_of_lt (by exact x.toNat_lt)]
  simp

@[simp] theorem ofNat_leNat_toHost32 (x : UInt32) : UInt32.ofNat (leNat (toHost32 x)) = x := by
  rw [toHost32,leNat_leBytes,Nat.mod_eq_of_lt (by exact x.toNat_lt)]
  simp

@[simp] theorem ofNat_beNat_toNet64 (x : UInt64) : UInt64.ofNat (beNat (toNet64 x)) = x := by
  rw [toNet64,beNat_beBytes,Nat.mod_eq_of_lt (by exact x.toNat_lt)]
  simp

@[simp] theorem ofNat_leNat_byte (x : UInt8) : UInt8.ofNat (leNat [x]) = x := by simp [leNat]

end Encodings

def characters (s : List Char) : Bytes := s.map fun c => UInt8.ofNat c.toNat

end Trema.Library
