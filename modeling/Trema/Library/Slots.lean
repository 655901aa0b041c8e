import Mathlib.Tactic.Common

namespace Trema.Library

section Slots

variable {α : Type} {l : List (Option α)} {i j : Nat}

theorem lt_of_join {x : α} (h : l[i]?.join = some x) : i < l.length := by
  by_contra hge
  rw [List.getElem?_eq_none (Nat.not_lt.mp hge)] at h
  simp at h

theorem join_set_self (hi : i < l.length) (x : Option α) : (l.set i x)[i]?.join = x := by simp [hi]

theorem join_set_ne (hne : j ≠ i) (x : Option α) : (l.set i x)[j]?.join = l[j]?.join := by
  rw [List.getElem?_set_ne hne.symm]

theorem set_of_join {x : α} (h : l[i]?.join = some x) : l.set i (some x) = l := by
  have hi := lt_of_join h
  rw [List.getElem?_eq_getElem hi] at h
  have hx : l[i] = some x := h
  rw [← hx,List.set_getElem_self]

theorem join_append (x : Option α) (hi : i < l.length) : (l ++ [x])[i]?.join = l[i]?.join := by
  rw [List.getElem?_append_left hi]

theorem join_append_last (x : Option α) : (l ++ [x])[l.length]?.join = x := by simp

theorem lt_or_eq_of_append {x : Option α} {y : α} (h : (l ++ [x])[i]?.join = some y) :
    i < l.length ∨ i = l.length := by
  have hlt := lt_of_join h
  rw [List.length_append,List.length_singleton] at hlt
  omega

end Slots

end Trema.Library
