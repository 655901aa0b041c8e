import Mathlib.Data.Nat.ModEq
import Mathlib.Algebra.BigOperators.Group.List.Basic
import Mathlib.Tactic.Common

namespace Trema.Library.OnesComplement

-- Numbers from 0 to m, where m is all ones and stands for zero like 0 does.
def add (m a b : Nat) : Nat := if a + b ≤ m then a + b else a + b - m

def sum (m : Nat) (ws : List Nat) : Nat := ws.foldl (add m) 0

def complement (m a : Nat) : Nat := m - a

structure Residue (m n r : Nat) : Prop where
  le : r ≤ m
  mod : r ≡ n [MOD m]
  zero : r = 0 ↔ n = 0

section Residues

variable {m n k r s : Nat}

theorem Residue.refl (h : n ≤ m) : Residue m n n := ⟨h,Nat.ModEq.refl n,Iff.rfl⟩

theorem Residue.unique (hr : Residue m n r) (hs : Residue m n s) : r = s := by
  have hmod : r % m = s % m := hr.mod.trans hs.mod.symm
  have hzero : r = 0 ↔ s = 0 := hr.zero.trans hs.zero.symm
  rcases Nat.eq_or_lt_of_le hr.le with hr' | hr' <;> rcases Nat.eq_or_lt_of_le hs.le with hs' | hs'
  · omega
  · rw [hr',Nat.mod_self,Nat.mod_eq_of_lt hs'] at hmod
    omega
  · rw [hs',Nat.mod_self,Nat.mod_eq_of_lt hr'] at hmod
    omega
  · rwa [Nat.mod_eq_of_lt hr',Nat.mod_eq_of_lt hs'] at hmod

theorem Residue.add (hr : Residue m n r) (hk : k ≤ m) : Residue m (n + k) (add m r k) := by
  have hle := hr.le
  have hzero := hr.zero
  have hmod : r + k ≡ n + k [MOD m] := hr.mod.add_right k
  rw [OnesComplement.add]
  split
  · exact ⟨by omega,hmod,by omega⟩
  · refine ⟨by omega,?_,by omega⟩
    have hback : r + k - m ≡ r + k [MOD m] := (Nat.modEq_iff_dvd' (by omega)).mpr ⟨1,by omega⟩
    exact hback.trans hmod

theorem residue_foldl {ws : List Nat} (hr : Residue m n r) (hws : ∀ w ∈ ws, w ≤ m) :
    Residue m (n + ws.sum) (ws.foldl (OnesComplement.add m) r) := by
  induction ws generalizing n r with
  | nil => exact hr
  | cons w ws ih =>
    have hrest := ih (hr.add (hws w (by simp))) fun v hv => hws v (by simp [hv])
    rwa [List.sum_cons,← Nat.add_assoc]

theorem residue_sum {ws : List Nat} (hws : ∀ w ∈ ws, w ≤ m) : Residue m ws.sum (sum m ws) := by
  have h := residue_foldl (Residue.refl (Nat.zero_le m)) hws
  rwa [Nat.zero_add] at h

-- The end-around carry of a sum that is longer than one word.
theorem residue_carry {c : Nat} (hc : Residue m (c % (m + 1) + c / (m + 1)) r) :
    Residue m c r := by
  have hsplit : c = c % (m + 1) + c / (m + 1) + m * (c / (m + 1)) := by
    conv_lhs => rw [← Nat.mod_add_div c (m + 1),Nat.add_mul,Nat.one_mul]
    omega
  have hmod : c % (m + 1) + c / (m + 1) ≡ c [MOD m] :=
    (Nat.modEq_iff_dvd' (by omega)).mpr ⟨c / (m + 1),by omega⟩
  refine ⟨hc.le,hc.mod.trans hmod,hc.zero.trans ?_⟩
  constructor
  · intro h
    rw [h,Nat.zero_add] at hsplit
    rw [hsplit,Nat.eq_zero_of_add_eq_zero_left h]
    rfl
  · rintro rfl
    rw [Nat.zero_mod,Nat.zero_div]

-- The sum of a word and its complement is all ones.
theorem residue_complement (hm : 0 < m) (hr : Residue m n r) :
    Residue m (n + complement m r) m := by
  have hle := hr.le
  have hzero := hr.zero
  rw [complement]
  refine ⟨Nat.le_refl m,?_,by omega⟩
  have h := (hr.mod.add_right (m - r)).symm
  rw [Nat.add_sub_cancel' hle] at h
  exact h.symm

end Residues

end Trema.Library.OnesComplement
