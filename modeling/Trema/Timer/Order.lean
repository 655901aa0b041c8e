import Mathlib.Data.List.Pairwise
import Mathlib.Data.List.Perm.Basic
import Mathlib.Data.List.TakeWhile
import Trema.Timer.Timers

namespace Trema.Timer

open Library

def TimerCallbackInfo.expiry (t : TimerCallbackInfo) : Int := nanos t.expiresAt

def ids (timers : List TimerCallbackInfo) : List Nat := timers.map TimerCallbackInfo.id

-- The list as the code keeps it: the live timers by expiry, cleared ones anywhere.
structure Ordered (timers : List TimerCallbackInfo) : Prop where
  sorted : (timers.filter TimerCallbackInfo.live).Pairwise fun t u => t.expiry ≤ u.expiry
  nodup : (ids timers).Nodup
  cleared : ∀ t ∈ timers, t.live = false → t.expiry = 0
  positive : ∀ t ∈ timers, t.live = true → 0 < t.expiry
  periods : ∀ t ∈ timers, 0 ≤ t.interval.tvSec

section Lists

variable {timers front back : List TimerCallbackInfo} {t u : TimerCallbackInfo} {i : Nat} {p : Option Nat}

theorem insert_split (new : TimerCallbackInfo) (timers : List TimerCallbackInfo) :
    ∃ before after, timers = before ++ after ∧ insertTimerCallback new timers = before ++ new :: after ∧
      (∀ t ∈ before, t.expiry ≤ new.expiry) ∧ ∀ t, after.head? = some t → new.expiry < t.expiry := by
  induction timers with
  | nil => exact ⟨[],[],rfl,rfl,by simp,by simp⟩
  | cons cb rest ih =>
    rw [insertTimerCallback]
    split
    · rename_i hless
      refine ⟨[],cb :: rest,rfl,rfl,by simp,?_⟩
      rintro t ht
      obtain rfl := Option.some.inj ht
      exact lessThen_iff.mp hless
    · rename_i hless
      obtain ⟨before,after,hsplit,hinsert,hle,hlt⟩ := ih
      refine ⟨cb :: before,after,by rw [hsplit]; rfl,by rw [hinsert]; rfl,?_,hlt⟩
      intro t ht
      rcases List.mem_cons.mp ht with rfl | ht
      · exact not_lessThen_iff.mp (Bool.not_eq_true _ ▸ hless)
      · exact hle t ht

theorem insert_perm (new : TimerCallbackInfo) (timers : List TimerCallbackInfo) :
    (insertTimerCallback new timers).Perm (new :: timers) := by
  obtain ⟨before,after,rfl,hinsert,_⟩ := insert_split new timers
  rw [hinsert]
  exact List.perm_middle

theorem mem_insert {new : TimerCallbackInfo} : t ∈ insertTimerCallback new timers ↔ t = new ∨ t ∈ timers :=
  (insert_perm new timers).mem_iff.trans List.mem_cons

theorem Ordered.insert (h : Ordered timers) {new : TimerCallbackInfo} (hlive : new.live = true)
    (hfresh : new.id ∉ ids timers) (hpos : 0 < new.expiry) (hperiod : 0 ≤ new.interval.tvSec) :
    Ordered (insertTimerCallback new timers) where
  sorted := by
    obtain ⟨before,after,rfl,hinsert,hle,hlt⟩ := insert_split new timers
    have hsorted := h.sorted
    rw [List.filter_append,List.pairwise_append] at hsorted
    obtain ⟨hbefore,hafter,hcross⟩ := hsorted
    have hbehind : ∀ u ∈ after.filter TimerCallbackInfo.live, new.expiry ≤ u.expiry := by
      intro u hu
      cases after with
      | nil => cases hu
      | cons v after =>
        have hv := hlt v rfl
        have hvlive : v.live = true := by
          by_contra hdead
          have hzero := h.cleared v (by simp) (Bool.not_eq_true _ ▸ hdead)
          omega
        rw [List.filter_cons_of_pos hvlive] at hu hafter
        rcases List.mem_cons.mp hu with rfl | hu
        · exact hv.le
        · exact hv.le.trans ((List.pairwise_cons.mp hafter).1 u hu)
    rw [hinsert,List.filter_append,List.filter_cons_of_pos hlive,List.pairwise_append]
    refine ⟨hbefore,List.pairwise_cons.mpr ⟨hbehind,hafter⟩,?_⟩
    intro t ht u hu
    rcases List.mem_cons.mp hu with rfl | hu
    · exact hle t (List.mem_of_mem_filter ht)
    · exact hcross t ht u hu
  nodup := ((insert_perm new timers).map TimerCallbackInfo.id).nodup_iff.mpr (List.nodup_cons.mpr ⟨hfresh,h.nodup⟩)
  cleared t ht hdead := by
    rcases mem_insert.mp ht with rfl | ht
    · rw [hlive] at hdead
      cases hdead
    · exact h.cleared t ht hdead
  positive t ht hlive' := by
    rcases mem_insert.mp ht with rfl | ht
    · exact hpos
    · exact h.positive t ht hlive'
  periods t ht := by
    rcases mem_insert.mp ht with rfl | ht
    · exact hperiod
    · exact h.periods t ht

theorem Ordered.sublist (h : Ordered timers) {l : List TimerCallbackInfo} (hl : l.Sublist timers) : Ordered l where
  sorted := h.sorted.sublist (hl.filter _)
  nodup := h.nodup.sublist (hl.map _)
  cleared t ht := h.cleared t (hl.subset ht)
  positive t ht := h.positive t (hl.subset ht)
  periods t ht := h.periods t (hl.subset ht)

theorem Ordered.delete (h : Ordered timers) (i : Nat) : Ordered (deleteDlistElement i timers) :=
  h.sublist List.filter_sublist

theorem mem_delete : t ∈ deleteDlistElement i timers ↔ t ∈ timers ∧ t.id ≠ i := by
  simp [deleteDlistElement]

theorem ids_update_cleared (i : Nat) (timers : List TimerCallbackInfo) :
    ids (update i TimerCallbackInfo.cleared timers) = ids timers := by
  rw [ids,ids,update,List.map_map]
  refine List.map_congr_left fun t _ => ?_
  simp only [Function.comp_apply]
  split <;> rfl

theorem mem_update_cleared (h : t ∈ update i TimerCallbackInfo.cleared timers) :
    t ∈ timers ∧ t.id ≠ i ∨ ∃ u ∈ timers, u.id = i ∧ t = u.cleared := by
  obtain ⟨u,hu,rfl⟩ := List.mem_map.mp h
  split
  · rename_i hid
    exact .inr ⟨u,hu,hid,rfl⟩
  · rename_i hid
    exact .inl ⟨hu,hid⟩

theorem filter_update_cleared (i : Nat) (timers : List TimerCallbackInfo) :
    (update i TimerCallbackInfo.cleared timers).filter TimerCallbackInfo.live =
      (timers.filter TimerCallbackInfo.live).filter (·.id ≠ i) := by
  induction timers with
  | nil => rfl
  | cons t timers ih =>
    rw [update,List.map_cons,← update]
    by_cases hid : t.id = i
    · rw [if_pos hid,List.filter_cons_of_neg (by simp [TimerCallbackInfo.live,TimerCallbackInfo.cleared]),ih]
      cases hlive : t.live with
      | true => rw [List.filter_cons_of_pos hlive,List.filter_cons_of_neg (by simp [hid])]
      | false => rw [List.filter_cons_of_neg (by simp [hlive])]
    · rw [if_neg hid]
      cases hlive : t.live with
      | true => rw [List.filter_cons_of_pos hlive,List.filter_cons_of_pos hlive,
          List.filter_cons_of_pos (by simp [hid]),ih]
      | false => rw [List.filter_cons_of_neg (by simp [hlive]),List.filter_cons_of_neg (by simp [hlive]),ih]

theorem Ordered.clear (h : Ordered timers) (i : Nat) : Ordered (update i TimerCallbackInfo.cleared timers) where
  sorted := by
    rw [filter_update_cleared]
    exact h.sorted.sublist List.filter_sublist
  nodup := by
    rw [ids_update_cleared]
    exact h.nodup
  cleared t ht hdead := by
    rcases mem_update_cleared ht with ⟨ht,_⟩ | ⟨u,_,_,rfl⟩
    · exact h.cleared t ht hdead
    · exact nanos_zero
  positive t ht hlive := by
    rcases mem_update_cleared ht with ⟨ht,_⟩ | ⟨u,_,_,rfl⟩
    · exact h.positive t ht hlive
    · cases hlive
  periods t ht := by
    rcases mem_update_cleared ht with ⟨ht,_⟩ | ⟨u,_,_,rfl⟩
    · exact h.periods t ht
    · exact le_refl _

end Lists

end Trema.Timer
