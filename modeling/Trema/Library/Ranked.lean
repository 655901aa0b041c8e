import Mathlib.Data.List.Sort

namespace Trema.Library

variable {α ι : Type} [LinearOrder ι] (rank : α → ι)

def Ranked (l : List α) : Prop := l.Pairwise fun a b => rank b ≤ rank a

def ranked (l : List α) : List α := l.mergeSort fun a b => decide (rank b ≤ rank a)

def place (x : α) : List α → List α
  | [] => [x]
  | y :: ys => if rank y < rank x then x :: y :: ys else y :: place x ys

variable {rank}

theorem ranked_perm (l : List α) : (ranked rank l).Perm l := List.mergeSort_perm l _

@[simp] theorem mem_ranked {l : List α} {x : α} : x ∈ ranked rank l ↔ x ∈ l := (ranked_perm l).mem_iff

theorem rank_le_trans (a b c : α) (hab : decide (rank b ≤ rank a) = true)
    (hbc : decide (rank c ≤ rank b) = true) : decide (rank c ≤ rank a) = true := by
  rw [decide_eq_true_eq] at *
  exact le_trans hbc hab

theorem rank_le_total (a b : α) :
    (decide (rank b ≤ rank a) || decide (rank a ≤ rank b)) = true := by
  rw [Bool.or_eq_true,decide_eq_true_eq,decide_eq_true_eq]
  exact le_total _ _

theorem pairwise_ranked (l : List α) : Ranked rank (ranked rank l) :=
  (List.pairwise_mergeSort rank_le_trans rank_le_total l).imp fun h => of_decide_eq_true h

theorem filter_ranked_eq (l : List α) (r : ι) :
    (ranked rank l).filter (fun a => decide (rank a = r)) = l.filter fun a => decide (rank a = r) := by
  have hsorted : (l.filter fun a => decide (rank a = r)).Pairwise
      (fun a b => decide (rank b ≤ rank a) = true) := by
    refine List.pairwise_of_forall_mem_list ?_
    intro a ha b hb
    have ha' : rank a = r := of_decide_eq_true (List.mem_filter.mp ha).2
    have hb' : rank b = r := of_decide_eq_true (List.mem_filter.mp hb).2
    simp [ha',hb']
  have hsub : (l.filter fun a => decide (rank a = r)).Sublist (ranked rank l) :=
    List.sublist_mergeSort rank_le_trans rank_le_total hsorted List.filter_sublist
  have hfilter := hsub.filter fun a => decide (rank a = r)
  rw [List.filter_filter] at hfilter
  simp only [Bool.and_self] at hfilter
  have hlen : (l.filter fun a => decide (rank a = r)).length =
      ((ranked rank l).filter fun a => decide (rank a = r)).length :=
    (((ranked_perm l).filter _).length_eq).symm
  exact (hfilter.eq_of_length hlen).symm

theorem Ranked.eq_of_filter_eq {l₁ l₂ : List α} (h₁ : Ranked rank l₁) (h₂ : Ranked rank l₂)
    (h : ∀ r, l₁.filter (fun a => decide (rank a = r)) = l₂.filter fun a => decide (rank a = r)) :
    l₁ = l₂ := by
  have hmem : ∀ a, a ∈ l₁ ↔ a ∈ l₂ := by
    intro a
    have := congrArg (a ∈ ·) (h (rank a))
    simpa [List.mem_filter] using this
  induction l₁ generalizing l₂ with
  | nil =>
    cases l₂ with
    | nil => rfl
    | cons y l₂ => exact absurd ((hmem y).mpr (by simp)) (by simp)
  | cons x l₁ ih =>
    cases l₂ with
    | nil => exact absurd ((hmem x).mp (by simp)) (by simp)
    | cons y l₂ =>
      have hx := (List.pairwise_cons.mp h₁).1
      have hy := (List.pairwise_cons.mp h₂).1
      have hxy : rank x ≤ rank y := by
        rcases List.mem_cons.mp ((hmem x).mp (by simp)) with rfl | hm
        · exact le_rfl
        · exact hy x hm
      have hyx : rank y ≤ rank x := by
        rcases List.mem_cons.mp ((hmem y).mpr (by simp)) with rfl | hm
        · exact le_rfl
        · exact hx y hm
      have heq : rank y = rank x := le_antisymm hyx hxy
      have hhead := h (rank x)
      rw [List.filter_cons_of_pos (by simp),List.filter_cons_of_pos (by simp [heq])] at hhead
      injection hhead with hhead htail
      subst hhead
      have hrest : ∀ r, l₁.filter (fun a => decide (rank a = r)) =
          l₂.filter fun a => decide (rank a = r) := by
        intro r
        by_cases hr : rank x = r
        · rw [← hr]
          exact htail
        · have := h r
          rwa [List.filter_cons_of_neg (by simp [hr]),List.filter_cons_of_neg (by simp [hr])] at this
      refine congrArg _ (ih (List.pairwise_cons.mp h₁).2 (List.pairwise_cons.mp h₂).2 hrest ?_)
      intro a
      have := congrArg (a ∈ ·) (hrest (rank a))
      simpa [List.mem_filter] using this

theorem Ranked.eq_ranked {l₁ l : List α} (h₁ : Ranked rank l₁)
    (h : ∀ r, l₁.filter (fun a => decide (rank a = r)) = l.filter fun a => decide (rank a = r)) :
    l₁ = ranked rank l :=
  h₁.eq_of_filter_eq (pairwise_ranked l) fun r => by rw [h,filter_ranked_eq]

theorem mem_place {x a : α} {l : List α} : a ∈ place rank x l ↔ a = x ∨ a ∈ l := by
  induction l with
  | nil => simp [place]
  | cons y ys ih =>
    rw [place]
    split
    · simp
    · rw [List.mem_cons,ih,List.mem_cons]
      exact or_left_comm

theorem Ranked.place {l : List α} (h : Ranked rank l) (x : α) : Ranked rank (place rank x l) := by
  induction l with
  | nil => simp [Library.place,Ranked]
  | cons y ys ih =>
    obtain ⟨hy,hys⟩ := List.pairwise_cons.mp h
    rw [Library.place]
    split
    · rename_i hlt
      refine List.pairwise_cons.mpr ⟨?_,h⟩
      intro a ha
      rcases List.mem_cons.mp ha with rfl | ha
      · exact le_of_lt hlt
      · exact le_trans (hy a ha) (le_of_lt hlt)
    · rename_i hge
      refine List.pairwise_cons.mpr ⟨?_,ih hys⟩
      intro a ha
      rcases mem_place.mp ha with rfl | ha
      · exact not_lt.mp hge
      · exact hy a ha

theorem filter_place {x : α} {l : List α} (h : Ranked rank l) (r : ι) :
    (place rank x l).filter (fun a => decide (rank a = r)) =
      (l ++ [x]).filter fun a => decide (rank a = r) := by
  induction l with
  | nil => rfl
  | cons y ys ih =>
    obtain ⟨hy,hys⟩ := List.pairwise_cons.mp h
    rw [place]
    split
    · rename_i hlt
      by_cases hr : rank x = r
      · have hnone : (y :: ys).filter (fun a => decide (rank a = r)) = [] := by
          rw [List.filter_eq_nil_iff]
          intro a ha
          have hle : rank a ≤ rank y := by
            rcases List.mem_cons.mp ha with rfl | ha
            · exact le_rfl
            · exact hy a ha
          simpa using ne_of_lt (hr ▸ lt_of_le_of_lt hle hlt)
        rw [List.filter_cons_of_pos (by simp [hr]),List.filter_append,hnone]
        simp [hr]
      · rw [List.filter_cons_of_neg (by simp [hr]),List.filter_append]
        simp [hr]
    · rw [List.filter_cons,ih hys,List.cons_append,List.filter_cons]

theorem place_ranked (x : α) (l : List α) :
    place rank x (ranked rank l) = ranked rank (l ++ [x]) := by
  refine ((pairwise_ranked l).place x).eq_ranked fun r => ?_
  rw [filter_place (pairwise_ranked l),List.filter_append,filter_ranked_eq,← List.filter_append]

theorem filter_ranked (q : α → Bool) (l : List α) :
    (ranked rank l).filter q = ranked rank (l.filter q) := by
  refine Ranked.eq_ranked (List.Pairwise.filter q (pairwise_ranked l)) fun r => ?_
  rw [List.filter_comm,filter_ranked_eq,List.filter_comm]

theorem map_ranked {f : α → α} (hf : ∀ a, rank (f a) = rank a) (l : List α) :
    (ranked rank l).map f = ranked rank (l.map f) := by
  refine Ranked.eq_ranked (List.pairwise_map.mpr ?_) fun r => ?_
  · exact (pairwise_ranked l).imp fun h => by rwa [hf,hf]
  · rw [List.filter_map,List.filter_map]
    have hrank : (fun a => decide (rank a = r)) ∘ f = fun a => decide (rank a = r) :=
      funext fun a => by rw [Function.comp,hf]
    rw [hrank,filter_ranked_eq]

theorem find?_place_of_le {q : α → Bool} {x w : α} {l : List α} (hw : l.find? q = some w)
    (hle : rank x ≤ rank w) (hl : Ranked rank l) : (place rank x l).find? q = some w := by
  induction l with
  | nil => exact absurd hw (by simp)
  | cons y ys ih =>
    obtain ⟨hy,hys⟩ := List.pairwise_cons.mp hl
    have hwy : rank w ≤ rank y := by
      rcases List.mem_cons.mp (List.mem_of_find?_eq_some hw) with rfl | hm
      · exact le_rfl
      · exact hy w hm
    rw [place,if_neg (not_lt.mpr (le_trans hle hwy))]
    by_cases hq : q y = true
    · rw [List.find?_cons_of_pos hq] at hw ⊢
      exact hw
    · rw [List.find?_cons_of_neg hq] at hw ⊢
      exact ih hw hys

theorem find?_place_new {q : α → Bool} {x : α} {l : List α} (hx : q x = true)
    (hl : ∀ a ∈ l, q a = true → rank a < rank x) : (place rank x l).find? q = some x := by
  induction l with
  | nil => rw [place,List.find?_cons_of_pos hx]
  | cons y ys ih =>
    rw [place]
    split
    · rw [List.find?_cons_of_pos hx]
    · rename_i hge
      rw [List.find?_cons_of_neg fun hq => hge (hl y (by simp) hq)]
      exact ih fun a ha => hl a (by simp [ha])

theorem find?_place_neg {q : α → Bool} {x : α} (l : List α) (hx : ¬ q x = true) :
    (place rank x l).find? q = l.find? q := by
  induction l with
  | nil => rw [place,List.find?_cons_of_neg hx]
  | cons y ys ih =>
    rw [place]
    split
    · rw [List.find?_cons_of_neg hx]
    · rw [List.find?_cons,ih,List.find?_cons]

theorem Ranked.rank_le_find? {q : α → Bool} {a w : α} {l : List α} (hl : Ranked rank l) (ha : a ∈ l)
    (hq : q a = true) (hw : l.find? q = some w) : rank a ≤ rank w := by
  induction l with
  | nil => exact absurd ha (by simp)
  | cons y ys ih =>
    obtain ⟨hy,hys⟩ := List.pairwise_cons.mp hl
    by_cases hqy : q y = true
    · rw [List.find?_cons_of_pos hqy] at hw
      injection hw with hw
      subst hw
      rcases List.mem_cons.mp ha with rfl | ha
      · exact le_rfl
      · exact hy a ha
    · rw [List.find?_cons_of_neg hqy] at hw
      rcases List.mem_cons.mp ha with rfl | ha
      · exact absurd hq hqy
      · exact ih hys ha hw

end Trema.Library
