import Mathlib.Data.List.Basic
import Mathlib.Data.List.Perm.Basic
import Mathlib.Data.List.Pairwise

namespace Trema.Library

variable {α β : Type} {q : α → Bool}

def modifyFirst (q : α → Bool) (f : α → α) : List α → List α
  | [] => []
  | a :: l => if q a then f a :: l else a :: modifyFirst q f l

def AtMostOne (q : α → Bool) (l : List α) : Prop := l.Pairwise fun a b => ¬ (q a = true ∧ q b = true)

theorem atMostOne_of_keys {R : α → α → Prop} {l : List α} (hl : l.Pairwise fun a b => ¬ R a b)
    (hq : ∀ a b, q a = true → q b = true → R a b) : AtMostOne q l :=
  hl.imp fun hab hboth => hab (hq _ _ hboth.1 hboth.2)

theorem AtMostOne.rest {a : α} {l : List α} (h : AtMostOne q (a :: l)) (ha : q a = true) :
    ∀ b ∈ l, q b = false := by
  intro b hb
  have hne := (List.pairwise_cons.mp h).1 b hb
  simpa using fun hqb => hne ⟨ha,hqb⟩

theorem AtMostOne.tail {a : α} {l : List α} (h : AtMostOne q (a :: l)) : AtMostOne q l :=
  (List.pairwise_cons.mp h).2

theorem AtMostOne.perm {l l' : List α} (h : AtMostOne q l) (hp : l.Perm l') : AtMostOne q l' :=
  hp.pairwise h fun hab hba => hab hba.symm

theorem AtMostOne.eraseP {l : List α} (h : AtMostOne q l) :
    l.eraseP q = l.filter fun a => !q a := by
  induction l with
  | nil => rfl
  | cons a l ih =>
    by_cases ha : q a = true
    · have hrest := h.rest ha
      rw [List.eraseP_cons_of_pos ha,List.filter_cons_of_neg (by simp [ha]),
        List.filter_eq_self.mpr fun b hb => by simp [hrest b hb]]
    · rw [List.eraseP_cons_of_neg ha,List.filter_cons_of_pos (by simp [ha]),ih h.tail]

theorem AtMostOne.modifyFirst {f : α → α} {l : List α} (h : AtMostOne q l) :
    modifyFirst q f l = l.map fun a => if q a then f a else a := by
  induction l with
  | nil => rfl
  | cons a l ih =>
    by_cases ha : q a = true
    · have hrest := h.rest ha
      rw [Library.modifyFirst,if_pos ha,List.map_cons,if_pos ha]
      refine congrArg _ ((List.map_id l).symm.trans (List.map_congr_left fun b hb => ?_))
      simp [hrest b hb]
    · rw [Library.modifyFirst,if_neg ha,List.map_cons,if_neg ha,ih h.tail]

theorem AtMostOne.find?_eq_some {l : List α} (h : AtMostOne q l) {a : α} :
    l.find? q = some a ↔ a ∈ l ∧ q a = true := by
  constructor
  · intro hf
    exact ⟨List.mem_of_find?_eq_some hf,List.find?_some hf⟩
  · rintro ⟨hm,ha⟩
    induction l with
    | nil => exact absurd hm (by simp)
    | cons b l ih =>
      rcases List.mem_cons.mp hm with rfl | hm
      · rw [List.find?_cons_of_pos ha]
      · have hb : ¬ q b = true := fun hb => by
          rw [h.rest hb a hm] at ha
          exact absurd ha (by simp)
        rw [List.find?_cons_of_neg hb,ih h.tail hm]

theorem AtMostOne.find?_perm {l l' : List α} (h : AtMostOne q l) (hp : l.Perm l') :
    l.find? q = l'.find? q := by
  refine Option.ext fun a => ?_
  rw [h.find?_eq_some,(h.perm hp).find?_eq_some,hp.mem_iff]

theorem AtMostOne.filter_eq {l : List α} (h : AtMostOne q l) : l.filter q = (l.find? q).toList := by
  induction l with
  | nil => rfl
  | cons a l ih =>
    by_cases ha : q a = true
    · have hrest := h.rest ha
      rw [List.filter_cons_of_pos ha,List.find?_cons_of_pos ha,
        List.filter_eq_nil_iff.mpr fun b hb => by simp [hrest b hb]]
      rfl
    · rw [List.filter_cons_of_neg ha,List.find?_cons_of_neg ha,ih h.tail]

end Trema.Library
