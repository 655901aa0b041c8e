import Mathlib.Data.List.Perm.Subperm
import Mathlib.Data.List.Range
import Mathlib.Data.Nat.Find
import Mathlib.Logic.Function.Iterate

namespace Trema.Library

variable {α : Type}

inductive Probe (α : Type) where
  | found (x : α)
  | exhausted
  | outOfFuel
deriving DecidableEq, Repr

section Search

variable [DecidableEq α] (next : α → α) (inUse : α → Bool) (initial : α)

-- A search for a value that is not in use, which gives up when it is back at the initial value.
def probe : Nat → α → Probe α
  | 0, _ => .outOfFuel
  | n + 1, x =>
    if inUse x then
      if initial = next x then .exhausted else probe n (next x)
    else .found x

variable {next inUse initial}

theorem probe_found {n k : Nat} {x : α} (hn : k < n) (hused : ∀ j < k, inUse (next^[j] x) = true)
    (hgo : ∀ j < k, next^[j + 1] x ≠ initial) (hfree : inUse (next^[k] x) = false) :
    probe next inUse initial n x = .found (next^[k] x) := by
  induction k generalizing n x with
  | zero =>
    obtain ⟨n,rfl⟩ := Nat.exists_eq_add_one.mpr hn
    rw [Function.iterate_zero_apply] at hfree ⊢
    rw [probe,if_neg (by simp [hfree])]
  | succ k ih =>
    obtain ⟨n,rfl⟩ := Nat.exists_eq_add_one.mpr (Nat.zero_lt_of_lt hn)
    have hx : inUse x = true := hused 0 (Nat.succ_pos k)
    have hnext : initial ≠ next x := (hgo 0 (Nat.succ_pos k)).symm
    rw [probe,if_pos hx,if_neg hnext]
    refine ih (Nat.lt_of_succ_lt_succ hn) ?_ ?_ hfree
    · intro j hj
      exact hused (j + 1) (Nat.succ_lt_succ hj)
    · intro j hj
      exact hgo (j + 1) (Nat.succ_lt_succ hj)

theorem probe_exhausted {n k : Nat} {x : α} (hn : k < n) (hused : ∀ j ≤ k, inUse (next^[j] x) = true)
    (hgo : ∀ j < k, next^[j + 1] x ≠ initial) (hback : next^[k + 1] x = initial) :
    probe next inUse initial n x = .exhausted := by
  induction k generalizing n x with
  | zero =>
    obtain ⟨n,rfl⟩ := Nat.exists_eq_add_one.mpr hn
    have hx : inUse x = true := hused 0 (Nat.le_refl 0)
    have hnext : initial = next x := hback.symm
    rw [probe,if_pos hx,if_pos hnext]
  | succ k ih =>
    obtain ⟨n,rfl⟩ := Nat.exists_eq_add_one.mpr (Nat.zero_lt_of_lt hn)
    have hx : inUse x = true := hused 0 (Nat.zero_le _)
    have hnext : initial ≠ next x := (hgo 0 (Nat.succ_pos k)).symm
    rw [probe,if_pos hx,if_neg hnext]
    refine ih (Nat.lt_of_succ_lt_succ hn) ?_ ?_ hback
    · intro j hj
      exact hused (j + 1) (Nat.succ_le_succ hj)
    · intro j hj
      exact hgo (j + 1) (Nat.succ_lt_succ hj)

end Search

section Pigeonhole

variable {next : α → α} {inUse : α → Bool}

-- Among more values than are in use there is one that is not.
theorem exists_free {used : List α} (hused : ∀ x, inUse x = true → x ∈ used) {x : α}
    (hdistinct : ∀ i j, i < j → j ≤ used.length → next^[i] x ≠ next^[j] x) :
    ∃ k ≤ used.length, inUse (next^[k] x) = false := by
  by_contra hall
  push Not at hall
  have hmem : ∀ k ≤ used.length, next^[k] x ∈ used := by
    intro k hk
    exact hused _ (by simpa using hall k hk)
  have hnodup : ((List.range (used.length + 1)).map fun k => next^[k] x).Nodup := by
    refine List.pairwise_map.mpr (List.pairwise_lt_range.imp_of_mem ?_)
    intro i j _ hj hij
    exact hdistinct i j hij (Nat.le_of_lt_succ (List.mem_range.mp hj))
  have hsub : ((List.range (used.length + 1)).map fun k => next^[k] x) ⊆ used := by
    intro y hy
    obtain ⟨k,hk,rfl⟩ := List.mem_map.mp hy
    exact hmem k (Nat.le_of_lt_succ (List.mem_range.mp hk))
  have hle := (List.subperm_of_subset hnodup hsub).length_le
  rw [List.length_map,List.length_range] at hle
  exact absurd hle (Nat.not_succ_le_self _)

theorem exists_first_free {used : List α} (hused : ∀ x, inUse x = true → x ∈ used) {x : α}
    (hdistinct : ∀ i j, i < j → j ≤ used.length → next^[i] x ≠ next^[j] x) :
    ∃ k ≤ used.length, inUse (next^[k] x) = false ∧ ∀ j < k, inUse (next^[j] x) = true := by
  obtain ⟨m,hm,hfree⟩ := exists_free hused hdistinct
  have hex : ∃ k, inUse (next^[k] x) = false := ⟨m,hfree⟩
  refine ⟨Nat.find hex,Nat.le_trans (Nat.find_min' hex hfree) hm,Nat.find_spec hex,?_⟩
  intro j hj
  simpa using Nat.find_min hex hj

variable [DecidableEq α]

-- The search starts at its initial value and there are fewer values in use than values on the way.
theorem probe_free {used : List α} (hused : ∀ x, inUse x = true → x ∈ used) {x : α}
    (hdistinct : ∀ i j, i < j → j ≤ used.length → next^[i] x ≠ next^[j] x) {n : Nat}
    (hn : used.length < n) :
    ∃ k ≤ used.length, probe next inUse x n x = .found (next^[k] x) ∧ inUse (next^[k] x) = false := by
  obtain ⟨k,hk,hfree,hbefore⟩ := exists_first_free hused hdistinct
  refine ⟨k,hk,probe_found (Nat.lt_of_le_of_lt hk hn) hbefore ?_ hfree,hfree⟩
  intro j hj hback
  exact hdistinct 0 (j + 1) (Nat.succ_pos j) (Nat.le_trans hj hk) hback.symm

end Pigeonhole

end Trema.Library
