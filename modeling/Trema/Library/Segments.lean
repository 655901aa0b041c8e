import Mathlib.Data.List.Induction
import Mathlib.Tactic.Common

namespace Trema.Library

variable {α : Type} {sep : α} {l more pending pending' : List α} {done done' : List (List α)}

-- `l` is the segments of `done`, each with its separator, and the start of one more.
structure Segmented (sep : α) (l : List α) (done : List (List α)) (pending : List α) : Prop where
  join : (done.flatMap (· ++ [sep])) ++ pending = l
  segments : ∀ d ∈ done, sep ∉ d
  unended : sep ∉ pending

theorem segmented_single (h : sep ∉ l) : Segmented sep l [] l := ⟨rfl,by simp,h⟩

theorem Segmented.trans (h : Segmented sep l done pending)
    (h' : Segmented sep (pending ++ more) done' pending') :
    Segmented sep (l ++ more) (done ++ done') pending' := by
  refine ⟨?_,fun d hd => ?_,h'.unended⟩
  · rw [List.flatMap_append,List.append_assoc,h'.join,← List.append_assoc,h.join]
  · rcases List.mem_append.mp hd with hd | hd
    · exact h.segments d hd
    · exact h'.segments d hd

theorem Segmented.cons {d : List α} (h : Segmented sep l done pending) (hd : sep ∉ d) :
    Segmented sep (d ++ sep :: l) (d :: done) pending := by
  refine ⟨?_,fun e he => ?_,h.unended⟩
  · rw [List.flatMap_cons,List.append_assoc,h.join,List.append_assoc]
    rfl
  · rcases List.mem_cons.mp he with rfl | he
    · exact hd
    · exact h.segments e he

theorem Segmented.splitOn [BEq α] [LawfulBEq α] (h : Segmented sep l done pending) :
    l.splitOn sep = done ++ [pending] := by
  obtain ⟨hjoin,hsegments,hopen⟩ := h
  induction done generalizing l with
  | nil =>
    subst hjoin
    exact List.splitOn_eq_singleton hopen
  | cons d done ih =>
    subst hjoin
    rw [List.flatMap_cons,List.append_assoc,List.append_assoc,List.singleton_append,
      List.splitOn_append_cons_self_of_not_mem (hsegments d List.mem_cons_self),
      ih rfl fun e he => hsegments e (List.mem_cons_of_mem d he)]
    rfl

theorem Segmented.length_eq (h : Segmented sep l done pending) :
    (done.flatMap (· ++ [sep])).length + pending.length = l.length := by
  rw [← h.join,List.length_append]

theorem Segmented.none_iff (h : Segmented sep l done pending) :
    (done.flatMap (· ++ [sep])).length = 0 ↔ sep ∉ l := by
  cases done with
  | nil =>
    have hl : pending = l := h.join
    exact ⟨fun _ => hl ▸ h.unended,fun _ => rfl⟩
  | cons d done =>
    rw [← h.join]
    simp

theorem length_le_flatMap (sep : α) (done : List (List α)) :
    done.length ≤ (done.flatMap (· ++ [sep])).length := by
  induction done with
  | nil => exact Nat.le_refl _
  | cons d done ih =>
    rw [List.flatMap_cons,List.length_append,List.length_append,List.length_cons,List.length_singleton]
    omega

theorem Segmented.length_le (h : Segmented sep l done pending) : done.length ≤ l.length :=
  Nat.le_trans (length_le_flatMap sep done) (h.length_eq ▸ Nat.le_add_right _ _)

theorem exists_segmented [DecidableEq α] (sep : α) (l : List α) : ∃ done pending, Segmented sep l done pending := by
  induction l using List.reverseRecOn with
  | nil => exact ⟨[],[],segmented_single (by simp)⟩
  | append_singleton l c ih =>
    obtain ⟨done,pending,h⟩ := ih
    by_cases hc : c = sep
    · subst hc
      refine ⟨done ++ [pending],[],?_,?_,by simp⟩
      · rw [List.flatMap_append,List.append_nil,← h.join]
        simp
      · intro d hd
        rcases List.mem_append.mp hd with hd | hd
        · exact h.segments d hd
        · exact List.mem_singleton.mp hd ▸ h.unended
    · refine ⟨done,pending ++ [c],?_,h.segments,?_⟩
      · rw [← List.append_assoc,h.join]
      · simpa [h.unended] using Ne.symm hc

end Trema.Library
