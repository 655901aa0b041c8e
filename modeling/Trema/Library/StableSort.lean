import Mathlib.Data.List.DropRight
import Mathlib.Order.RelClasses

namespace Trema.Library

variable {α β : Type}

def ahead (after : α → α → Bool) (l : List α) (d : α) : List α := l.rdropWhile (after · d)

def behind (after : α → α → Bool) (l : List α) (d : α) : List α := l.rtakeWhile (after · d)

-- The place of `d`: behind the last element that need not come after it.
def insertBack (after : α → α → Bool) (sorted : List α) (d : α) : List α :=
  ahead after sorted d ++ d :: behind after sorted d

def insertAll (after : α → α → Bool) (l : List α) : List α := l.foldl (insertBack after) []

def tied (after : α → α → Bool) (x y : α) : Bool := !after x y && !after y x

structure StableSort (after : α → α → Bool) (l sorted : List α) : Prop where
  perm : sorted.Perm l
  ordered : sorted.Pairwise fun x y => after x y = false
  stable : ∀ x, sorted.filter (tied after x) = l.filter (tied after x)

section Places

variable {after : α → α → Bool} {l sorted : List α} {d x y : α}

theorem tied_iff : tied after x y = true ↔ after x y = false ∧ after y x = false := by
  simp [tied]

theorem ahead_append_behind (after : α → α → Bool) (l : List α) (d : α) :
    ahead after l d ++ behind after l d = l := List.rdropWhile_append_rtakeWhile

theorem after_of_mem_behind (h : y ∈ behind after l d) : after y d = true :=
  List.mem_rtakeWhile_imp (p := (after · d)) h

theorem insertBack_concat_after (h : after x d = true) :
    insertBack after (l ++ [x]) d = insertBack after l d ++ [x] := by
  rw [insertBack,ahead,behind,List.rdropWhile_concat_pos (after · d) l x h,
    List.rtakeWhile_concat_pos (after · d) l x h]
  simp [insertBack,ahead,behind]

theorem insertBack_concat_stay (h : after x d = false) :
    insertBack after (l ++ [x]) d = l ++ [x,d] := by
  have hneg : ¬ after x d = true := by simp [h]
  rw [insertBack,ahead,behind,List.rdropWhile_concat_neg (after · d) l x hneg,
    List.rtakeWhile_concat_neg (after · d) l x hneg]
  simp

theorem insertBack_perm (after : α → α → Bool) (l : List α) (d : α) :
    (insertBack after l d).Perm (l ++ [d]) := by
  have hmove : (insertBack after l d).Perm (d :: (ahead after l d ++ behind after l d)) :=
    List.perm_middle
  rw [ahead_append_behind] at hmove
  exact hmove.trans (List.perm_append_singleton d l).symm

theorem insertAll_concat (after : α → α → Bool) (l : List α) (d : α) :
    insertAll after (l ++ [d]) = insertBack after (insertAll after l) d := by
  rw [insertAll,List.foldl_append]
  rfl

theorem insertAll_perm (after : α → α → Bool) (l : List α) : (insertAll after l).Perm l := by
  induction l using List.reverseRecOn with
  | nil => exact .nil
  | append_singleton l d ih =>
    rw [insertAll_concat]
    exact (insertBack_perm after _ d).trans (ih.append_right [d])

theorem map_insertBack (f : β → α) (after : α → α → Bool) (l : List β) (d : β) :
    (insertBack (fun x y => after (f x) (f y)) l d).map f = insertBack after (l.map f) (f d) := by
  induction l using List.reverseRecOn with
  | nil => rfl
  | append_singleton l x ih =>
    rw [List.map_append,List.map_singleton]
    cases hx : after (f x) (f d) with
    | true =>
      have hback : insertBack (fun x y => after (f x) (f y)) (l ++ [x]) d =
        insertBack (fun x y => after (f x) (f y)) l d ++ [x] := insertBack_concat_after hx
      rw [hback,List.map_append,ih,insertBack_concat_after hx]
      rfl
    | false =>
      have hback : insertBack (fun x y => after (f x) (f y)) (l ++ [x]) d = l ++ [x,d] :=
        insertBack_concat_stay hx
      rw [hback,List.map_append,insertBack_concat_stay hx]
      rfl

theorem map_insertAll (f : β → α) (after : α → α → Bool) (l : List β) :
    (insertAll (fun x y => after (f x) (f y)) l).map f = insertAll after (l.map f) := by
  induction l using List.reverseRecOn with
  | nil => rfl
  | append_singleton l d ih =>
    rw [insertAll_concat,map_insertBack,ih,List.map_append,List.map_singleton,insertAll_concat]

end Places

section Order

variable {after : α → α → Bool} [IsStrictWeakOrder α fun x y => after x y = true]
  {l sorted : List α} {d x y z : α}

theorem after_trans (hxy : after x y = true) (hyz : after y z = true) : after x z = true :=
  IsTrans.trans (r := fun x y => after x y = true) x y z hxy hyz

theorem after_irrefl (after : α → α → Bool) [IsStrictWeakOrder α fun x y => after x y = true] (x : α) :
    after x x = false :=
  Bool.eq_false_iff.mpr (irrefl (r := fun x y => after x y = true) x)

theorem after_asymm (h : after x y = true) : after y x = false := by
  by_contra hback
  have hloop := after_trans h (Bool.not_eq_false _ ▸ hback)
  rw [after_irrefl after x] at hloop
  simp at hloop

theorem tied_trans (hxy : tied after x y = true) (hyz : tied after y z = true) :
    tied after x z = true := by
  rw [tied_iff,← Bool.not_eq_true,← Bool.not_eq_true] at *
  exact @IsStrictWeakOrder.incomp_trans α (fun x y => after x y = true) _ x y z hxy hyz

theorem stay_trans (hxy : after x y = false) (hyz : after y z = false) : after x z = false := by
  by_contra hxz
  rw [Bool.not_eq_false] at hxz
  have hyx : after y x = false := by
    by_contra h
    rw [after_trans (Bool.not_eq_false _ ▸ h) hxz] at hyz
    simp at hyz
  have hzy : after z y = false := by
    by_contra h
    rw [after_trans hxz (Bool.not_eq_false _ ▸ h)] at hxy
    simp at hxy
  have htied := tied_trans (tied_iff.mpr ⟨hxy,hyx⟩) (tied_iff.mpr ⟨hyz,hzy⟩)
  rw [(tied_iff.mp htied).1] at hxz
  simp at hxz

-- The last element ahead of `d` stays there, and the others stay before that one.
theorem stay_of_mem_ahead (h : sorted.Pairwise fun x y => after x y = false)
    (hx : x ∈ ahead after sorted d) : after x d = false := by
  have hne : ahead after sorted d ≠ [] := List.ne_nil_of_mem hx
  have hlast : after ((ahead after sorted d).getLast hne) d = false :=
    Bool.eq_false_iff.mpr (List.rdropWhile_last_not (after · d) sorted hne)
  have hahead := h.sublist (List.rdropWhile_prefix (p := (after · d)) sorted).sublist
  change (ahead after sorted d).Pairwise _ at hahead
  rw [← List.dropLast_append_getLast hne] at hahead hx
  rcases List.mem_append.mp hx with hx | hx
  · exact stay_trans ((List.pairwise_append.mp hahead).2.2 x hx _ (List.mem_singleton_self _)) hlast
  · rw [List.mem_singleton.mp hx]
    exact hlast

theorem ordered_insertBack (h : sorted.Pairwise fun x y => after x y = false) (d : α) :
    (insertBack after sorted d).Pairwise fun x y => after x y = false := by
  have hsplit := h
  rw [← ahead_append_behind after sorted d] at hsplit
  obtain ⟨hahead,hbehind,hcross⟩ := List.pairwise_append.mp hsplit
  have hlater : ∀ y ∈ behind after sorted d, after d y = false := by
    intro y hy
    exact after_asymm (after_of_mem_behind hy)
  refine List.pairwise_append.mpr ⟨hahead,List.pairwise_cons.mpr ⟨hlater,hbehind⟩,fun x hx y hy => ?_⟩
  rcases List.mem_cons.mp hy with rfl | hy
  · exact stay_of_mem_ahead h hx
  · exact hcross x hx y hy

theorem filter_behind (hd : tied after x d = true) : (behind after l d).filter (tied after x) = [] := by
  refine List.filter_eq_nil_iff.mpr fun y hy hxy => ?_
  have hyx : tied after y x = true := tied_iff.mpr (tied_iff.mp hxy).symm
  have hyd := (tied_iff.mp (tied_trans hyx hd)).1
  rw [after_of_mem_behind hy] at hyd
  simp at hyd

theorem filter_insertBack (after : α → α → Bool) [IsStrictWeakOrder α fun x y => after x y = true]
    (l : List α) (d x : α) :
    (insertBack after l d).filter (tied after x) = (l ++ [d]).filter (tied after x) := by
  have hl := congrArg (List.filter (tied after x)) (ahead_append_behind after l d)
  rw [List.filter_append] at hl
  rw [insertBack,List.filter_append,List.filter_append,List.filter_cons,← hl]
  cases hd : tied after x d with
  | false => simp [hd]
  | true => simp [hd,filter_behind hd]

theorem insertAll_stableSort (after : α → α → Bool)
    [IsStrictWeakOrder α fun x y => after x y = true] (l : List α) :
    StableSort after l (insertAll after l) := by
  refine ⟨insertAll_perm after l,?_,fun x => ?_⟩
  · induction l using List.reverseRecOn with
    | nil => exact .nil
    | append_singleton l d ih =>
      rw [insertAll_concat]
      exact ordered_insertBack ih d
  · induction l using List.reverseRecOn with
    | nil => rfl
    | append_singleton l d ih =>
      rw [insertAll_concat,filter_insertBack,List.filter_append,ih,List.filter_append]

theorem StableSort.head_iff {front : α} (h : StableSort after (front :: l) sorted) :
    sorted.head? = some front ↔ ∀ y ∈ front :: l, after front y = false := by
  cases sorted with
  | nil => exact absurd h.perm.nil_eq.symm (List.cons_ne_nil _ _)
  | cons z rest =>
    have hordered := List.pairwise_cons.mp h.ordered
    constructor
    · intro hhead y hy
      obtain rfl : z = front := Option.some.inj hhead
      rcases List.mem_cons.mp (h.perm.mem_iff.mpr hy) with rfl | hy
      · exact after_irrefl after y
      · exact hordered.1 y hy
    · intro hstay
      have hfront : after front z = false := hstay z (h.perm.mem_iff.mp List.mem_cons_self)
      rcases List.mem_cons.mp (h.perm.mem_iff.mpr List.mem_cons_self) with rfl | hmem
      · rfl
      · have htied : tied after z front = true := tied_iff.mpr ⟨hordered.1 front hmem,hfront⟩
        have hself : tied after z z = true := tied_iff.mpr ⟨after_irrefl after z,after_irrefl after z⟩
        have hfirst := h.stable z
        rw [List.filter_cons_of_pos hself,List.filter_cons_of_pos htied] at hfirst
        rw [List.head?_cons,List.head_eq_of_cons_eq hfirst]

end Order

end Trema.Library
