import Mathlib.Data.List.Basic
import Mathlib.Tactic.Common

namespace Trema.Library

structure Framer (α : Type) where
  head : Nat
  size : List α → Nat
  size_append : ∀ s t, head ≤ s.length → size (s ++ t) = size s

namespace Framer

variable {α : Type} (F : Framer α)

def Complete (s : List α) : Prop := F.head ≤ s.length ∧ 0 < F.size s ∧ F.size s ≤ s.length

instance (s : List α) : Decidable (F.Complete s) := inferInstanceAs (Decidable (_ ∧ _))

def cut : Nat → List α → List (List α) × List α
  | 0, s => ([],s)
  | n + 1, s =>
    if F.Complete s then
      let tail := cut n (s.drop (F.size s))
      (s.take (F.size s) :: tail.1,tail.2)
    else ([],s)

def frames (s : List α) : List (List α) × List α := F.cut s.length s

variable {F} {s t : List α} {P : List α → Prop}

theorem Complete.length_drop (h : F.Complete s) : (s.drop (F.size s)).length < s.length := by
  obtain ⟨_,hpos,hle⟩ := h
  rw [List.length_drop]
  omega

theorem cut_stable {n m : Nat} (hn : s.length ≤ n) (hm : s.length ≤ m) :
    F.cut n s = F.cut m s := by
  have hempty : ∀ {s : List α}, s.length ≤ 0 → ¬ F.Complete s := by
    intro s hs h
    have := h.length_drop
    omega
  induction n generalizing s m with
  | zero =>
    cases m with
    | zero => rfl
    | succ m => rw [cut,cut,if_neg (hempty hn)]
  | succ n ih =>
    cases m with
    | zero => rw [cut,cut,if_neg (hempty hm)]
    | succ m =>
      rw [cut,cut]
      split
      · rename_i hc
        have hlt := hc.length_drop
        rw [ih (by omega) (by omega : _ ≤ m)]
      · rfl

theorem frames_of_not_complete (h : ¬ F.Complete s) : F.frames s = ([],s) := by
  unfold frames
  cases s.length with
  | zero => rfl
  | succ n => rw [cut,if_neg h]

theorem frames_of_complete (h : F.Complete s) :
    F.frames s = (s.take (F.size s) :: (F.frames (s.drop (F.size s))).1,
      (F.frames (s.drop (F.size s))).2) := by
  have hlt := h.length_drop
  obtain ⟨n,hn⟩ : ∃ n, s.length = n + 1 := ⟨s.length - 1,by omega⟩
  have hcut : F.cut n (s.drop (F.size s)) = F.frames (s.drop (F.size s)) :=
    cut_stable (by omega) (Nat.le_refl _)
  rw [frames,hn,cut,if_pos h,hcut]

theorem frames_induction {motive : List α → Prop}
    (stop : ∀ s, ¬ F.Complete s → motive s)
    (next : ∀ s, F.Complete s → motive (s.drop (F.size s)) → motive s) (s : List α) : motive s := by
  induction hn : s.length using Nat.strongRecOn generalizing s with
  | ind n ih =>
    by_cases h : F.Complete s
    · exact next s h (ih _ (hn ▸ h.length_drop) _ rfl)
    · exact stop s h

theorem frames_flatten (s : List α) : (F.frames s).1.flatten ++ (F.frames s).2 = s := by
  induction s using F.frames_induction with
  | stop s h => simp [frames_of_not_complete h]
  | next s h ih =>
    rw [frames_of_complete h]
    simp only [List.flatten_cons,List.append_assoc,ih,List.take_append_drop]

theorem rest_not_complete (s : List α) : ¬ F.Complete (F.frames s).2 := by
  induction s using F.frames_induction with
  | stop s h => rwa [frames_of_not_complete h]
  | next s h ih =>
    rw [frames_of_complete h]
    exact ih

theorem length_frames (s : List α) : (F.frames s).1.length ≤ s.length := by
  induction s using F.frames_induction with
  | stop s h => simp [frames_of_not_complete h]
  | next s h ih =>
    have hlt := h.length_drop
    rw [frames_of_complete h,List.length_cons]
    omega

theorem Complete.append (h : F.Complete s) (t : List α) : F.Complete (s ++ t) := by
  obtain ⟨hhead,hpos,hle⟩ := h
  have hsize := F.size_append s t hhead
  rw [Complete,hsize,List.length_append]
  omega

theorem frames_append (s t : List α) : F.frames (s ++ t) =
    ((F.frames s).1 ++ (F.frames ((F.frames s).2 ++ t)).1,(F.frames ((F.frames s).2 ++ t)).2) := by
  induction s using F.frames_induction with
  | stop s h => simp [frames_of_not_complete h]
  | next s h ih =>
    have hsize := F.size_append s t h.1
    have htake : (s ++ t).take (F.size s) = s.take (F.size s) :=
      List.take_append_of_le_length h.2.2
    have hdrop : (s ++ t).drop (F.size s) = s.drop (F.size s) ++ t :=
      List.drop_append_of_le_length h.2.2
    rw [frames_of_complete (h.append t),frames_of_complete h,hsize,htake,hdrop,ih]
    simp

theorem size_of_mem {m : List α} (hm : m ∈ (F.frames s).1) (hhead : F.head ≤ m.length) :
    F.size m = m.length := by
  induction s using F.frames_induction with
  | stop s h => simp [frames_of_not_complete h] at hm
  | next s h ih =>
    rw [frames_of_complete h] at hm
    rcases List.mem_cons.mp hm with rfl | hm
    · have hsplit := F.size_append (s.take (F.size s)) (s.drop (F.size s)) hhead
      rw [List.take_append_drop] at hsplit
      rw [← hsplit,List.length_take,Nat.min_eq_left h.2.2]
    · exact ih hm

variable (F P) in
def Headed (s : List α) : Prop :=
  (∀ m ∈ (F.frames s).1, F.head ≤ m.length ∧ P m) ∧
    (F.head ≤ (F.frames s).2.length → F.head ≤ F.size (F.frames s).2 ∧ P (F.frames s).2)

theorem Headed.mono {Q : List α → Prop} (h : F.Headed P s) (hPQ : ∀ m, P m → Q m) :
    F.Headed Q s := by
  refine ⟨fun m hm => ?_,fun hhead => ?_⟩
  · obtain ⟨hlen,hp⟩ := h.1 m hm
    exact ⟨hlen,hPQ m hp⟩
  · obtain ⟨hsize,hp⟩ := h.2 hhead
    exact ⟨hsize,hPQ _ hp⟩

theorem Headed.drop (h : F.Headed P s) (hc : F.Complete s) :
    F.Headed P (s.drop (F.size s)) := by
  unfold Headed at h
  rw [frames_of_complete hc] at h
  exact ⟨fun m hm => h.1 m (List.mem_cons_of_mem _ hm),h.2⟩

theorem Headed.rest (h : F.Headed P (s ++ t)) : F.Headed P ((F.frames s).2 ++ t) := by
  unfold Headed at h
  rw [frames_append] at h
  exact ⟨fun m hm => h.1 m (List.mem_append_right _ hm),h.2⟩

variable (hP : ∀ s t, F.head ≤ s.length → (P (s ++ t) ↔ P s))

include hP

theorem Headed.first (h : F.Headed P s) (hhead : F.head ≤ s.length) :
    F.head ≤ F.size s ∧ P s := by
  by_cases hc : F.Complete s
  · have hmem : s.take (F.size s) ∈ (F.frames s).1 := by
      rw [frames_of_complete hc]
      exact List.mem_cons_self
    obtain ⟨hlen,hfirst⟩ := h.1 _ hmem
    have hstable := (hP _ (s.drop (F.size s)) hlen).mpr hfirst
    rw [List.take_append_drop] at hstable
    rw [List.length_take] at hlen
    exact ⟨by omega,hstable⟩
  · have hrest := h.2
    rw [frames_of_not_complete hc] at hrest
    exact hrest hhead

theorem Headed.of_append (h : F.Headed P (s ++ t)) : F.Headed P s := by
  have hrest := h.rest
  unfold Headed at h
  rw [frames_append] at h
  refine ⟨fun m hm => h.1 m (List.mem_append_left _ hm),fun hhead => ?_⟩
  have hfirst := hrest.first hP (by rw [List.length_append]; omega)
  rw [F.size_append _ t hhead,hP _ t hhead] at hfirst
  exact hfirst

end Framer

end Trema.Library
