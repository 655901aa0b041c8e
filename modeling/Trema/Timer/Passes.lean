import Mathlib.Algebra.BigOperators.Group.List.Basic
import Mathlib.Algebra.Order.BigOperators.Group.List
import Mathlib.Algebra.Order.Ring.Nat
import Trema.Timer.Timeout

namespace Trema.Timer

open Library

-- A second call in the same pass is open to a periodic timer that is late.
def residual (now : Timespec) (t : TimerCallbackInfo) : Nat :=
  if t.live = true ∧ 0 < nanos t.interval ∧ t.expiry < nanos now then 1 else 0

def weight (now : Timespec) (t : TimerCallbackInfo) : Nat :=
  if t.live = true ∧ t.expiry ≤ nanos now then 1 + residual now t else 0

def total (f : TimerCallbackInfo → Nat) (timers : List TimerCallbackInfo) : Nat := (timers.map f).sum

def among (chosen : Nat → Bool) (f : TimerCallbackInfo → Nat) (t : TimerCallbackInfo) : Nat :=
  if chosen t.id then f t else 0

-- The calls of chosen timers that the pass can still make.
def charge (chosen : Nat → Bool) (s : State) : Nat :=
  match s.control with
  | .idle => 0
  | .walking now _ => total (among chosen (weight now)) s.timers
  | .calling now i _ =>
    total (among chosen fun t => if t.id = i then residual now t else weight now t) s.timers

def Event.isCall (chosen : Nat → Bool) : Event → Bool
  | .called i _ => chosen i
  | _ => false

def callCount (chosen : Nat → Bool) (log : List Event) : Nat := (log.filter (Event.isCall chosen)).length

section Totals

variable {f g : TimerCallbackInfo → Nat} {timers : List TimerCallbackInfo} {t : TimerCallbackInfo} {i : Nat}

theorem total_insert (f : TimerCallbackInfo → Nat) (new : TimerCallbackInfo) (timers : List TimerCallbackInfo) :
    total f (insertTimerCallback new timers) = f new + total f timers := by
  rw [total,((insert_perm new timers).map f).sum_eq,List.map_cons,List.sum_cons,total]

theorem total_delete (hnodup : (ids timers).Nodup) (ht : t ∈ timers) (f : TimerCallbackInfo → Nat) :
    total f timers = f t + total f (deleteDlistElement t.id timers) := by
  obtain ⟨front,back,rfl⟩ := List.append_of_mem ht
  rw [delete_here hnodup,total,total,List.map_append,List.map_append,List.sum_append,List.sum_append,
    List.map_cons,List.sum_cons]
  omega

theorem total_congr (h : ∀ t ∈ timers, f t = g t) : total f timers = total g timers := by
  rw [total,total,List.map_congr_left h]

theorem total_clear (i : Nat) (hclear : ∀ t : TimerCallbackInfo, f t.cleared = 0) (timers : List TimerCallbackInfo) :
    total f (update i TimerCallbackInfo.cleared timers) ≤ total f timers := by
  rw [total,total,update,List.map_map]
  refine List.sum_le_sum fun t _ => ?_
  simp only [Function.comp_apply]
  split
  · rw [hclear]
    exact Nat.zero_le _
  · exact le_rfl

theorem weight_cleared (now : Timespec) (t : TimerCallbackInfo) : weight now t.cleared = 0 := rfl

theorem residual_cleared (now : Timespec) (t : TimerCallbackInfo) : residual now t.cleared = 0 := rfl

theorem residual_le (now : Timespec) (t : TimerCallbackInfo) : residual now t ≤ 1 := by
  unfold residual
  split <;> omega

-- After a call that comes back, what the timer weighs is what was left of it.
theorem weight_afterCall {now : Timespec} {t t' : TimerCallbackInfo} (hperiod : 0 ≤ t.interval.tvSec)
    (h : afterCall now t = .ok t') : weight now t' ≤ residual now t := by
  obtain ⟨_,hcases⟩ := afterCall_cases h
  rcases hcases hperiod with ⟨hinterval,hfunction,_,hpos,hexpiry⟩ | ⟨hdead,_⟩
  · unfold weight residual
    have hlive : t'.live = t.live := by rw [TimerCallbackInfo.live,TimerCallbackInfo.live,hfunction]
    rw [hinterval,hlive,hexpiry]
    split
    · rename_i hdue
      have hlate : t.expiry < nanos now := by omega
      rw [if_neg (by omega),if_pos ⟨hdue.1,hpos,hlate⟩]
    · exact Nat.zero_le _
  · have hzero : weight now t' = 0 := by simp [weight,hdead]
    rw [hzero]
    exact Nat.zero_le _

end Totals

section Charge

variable {s s' : State} {chosen : Nat → Bool}

theorem callCount_append (chosen : Nat → Bool) (log more : List Event) :
    callCount chosen (log ++ more) = callCount chosen log + callCount chosen more := by
  rw [callCount,List.filter_append,List.length_append]
  rfl

-- Within a pass every call is paid for, and nothing else adds to the charge.
theorem Change.paid (h : Inv s) (hpass : s.control ≠ .idle) (hchange : Change s s') (chosen : Nat → Bool) :
    callCount chosen s'.log + charge chosen s' ≤ callCount chosen s.log + charge chosen s := by
  have hplaced := h.placed
  cases hchange with
  | read clock hcontrol hclock => exact le_rfl
  | inserted now new hcontrol hclock hid hlive hperiod hlater =>
    cases hc : s.control with
    | idle => exact absurd hc hpass
    | walking pass element =>
      rw [hc] at hcontrol
      cases hcontrol
    | calling pass i next =>
      simp only [Placed,hc] at hplaced
      obtain ⟨_,hle,front,back,hsplit,_,hi,_⟩ := hplaced
      have hne : new.id ≠ i := by
        obtain ⟨u,hu,rfl⟩ := List.mem_map.mp hi
        have hlt := h.fresh u (hsplit ▸ List.mem_append_left _ hu)
        omega
      have hzero : weight pass new = 0 := if_neg (by omega)
      have hnone : callCount chosen [Event.added new] = 0 := rfl
      have hnew : among chosen (fun t => if t.id = i then residual pass t else weight pass t) new = 0 := by
        simp [among,hne,hzero]
      simp only [charge,State.insertNew,hc,total_insert,callCount_append,hnone,hnew]
      omega
  | deleted callback userData hcontrol =>
    have hnone : callCount chosen [Event.deleted callback userData] = 0 := rfl
    cases hc : s.control with
    | idle => exact absurd hc hpass
    | walking pass element =>
      rw [hc] at hcontrol
      cases hcontrol
    | calling pass i next =>
      unfold deleteTimerEvent
      split
      · simp only [charge,hc,callCount_append,hnone]
        omega
      · rename_i u hu
        have hle := total_clear u.id (f := among chosen fun t =>
          if t.id = i then residual pass t else weight pass t)
          (fun t => by simp [among,weight_cleared,residual_cleared]) s.timers
        simp only [charge,hc,callCount_append,hnone]
        omega
  | began now hcontrol hclock => exact absurd hcontrol hpass
  | ended now element usec hcontrol hend husec =>
    have hnone : callCount chosen [Event.passed now usec] = 0 := rfl
    rw [callCount_append,hnone]
    exact Nat.add_le_add le_rfl (Nat.zero_le _)
  | dropped now t hcontrol ht hdead =>
    have hsum := total_delete h.ordered.nodup (lookup_mem ht).1 (among chosen (weight now))
    simp only [charge,hcontrol]
    omega
  | called now t hcontrol ht hlive hdue =>
    have hcount : callCount chosen [Event.called t.id now] = if chosen t.id then 1 else 0 := by
      cases hchosen : chosen t.id with
      | true => simp [callCount,Event.isCall,hchosen]
      | false => simp [callCount,Event.isCall,hchosen]
    have hweight : weight now t = 1 + residual now t := if_pos ⟨hlive,hdue⟩
    have hbefore := total_delete h.ordered.nodup (lookup_mem ht).1 (among chosen (weight now))
    have hafter := total_delete h.ordered.nodup (lookup_mem ht).1
      (among chosen fun u => if u.id = t.id then residual now u else weight now u)
    have hrest : total (among chosen fun u => if u.id = t.id then residual now u else weight now u)
        (deleteDlistElement t.id s.timers) = total (among chosen (weight now)) (deleteDlistElement t.id s.timers) := by
      refine total_congr fun u hu => ?_
      simp only [among,if_neg (mem_delete.mp hu).2]
    simp only [charge,hcontrol,callCount_append,hcount]
    rw [hbefore,hafter,hrest]
    simp only [among,if_true,hweight]
    split <;> omega
  | returned now next t t' hcontrol ht hafter =>
    obtain ⟨hmem,_⟩ := lookup_mem ht
    have hnone : callCount chosen [Event.returned t.id now] = 0 := rfl
    have hid := (afterCall_cases hafter).1
    have hweight := weight_afterCall (h.ordered.periods t hmem) hafter
    have hbefore := total_delete h.ordered.nodup hmem
      (among chosen fun u => if u.id = t.id then residual now u else weight now u)
    have hrest : total (among chosen fun u => if u.id = t.id then residual now u else weight now u)
        (deleteDlistElement t.id s.timers) = total (among chosen (weight now)) (deleteDlistElement t.id s.timers) := by
      refine total_congr fun u hu => ?_
      simp only [among,if_neg (mem_delete.mp hu).2]
    have hmoved : total (among chosen (weight now)) (moveOn t' s.timers) ≤
        among chosen (weight now) t' + total (among chosen (weight now)) (deleteDlistElement t.id s.timers) := by
      unfold moveOn
      rw [hid]
      split
      · rw [total_insert]
      · exact Nat.le_add_left _ _
    have hchosen : among chosen (weight now) t' ≤
        among chosen (fun u => if u.id = t.id then residual now u else weight now u) t := by
      simp only [among,hid,if_true]
      split
      · exact hweight
      · exact le_rfl
    simp only [charge,hcontrol,callCount_append,hnone]
    rw [hbefore,hrest]
    omega

end Charge

section Complete

variable {s s' start : State} {now : Timespec} {t : TimerCallbackInfo}

def Control.pass : Control → Option Timespec
  | .idle => none
  | .walking now _ => some now
  | .calling now _ _ => some now

-- The timer stands where the loop has still to go.
def Ahead (s : State) (t : TimerCallbackInfo) : Prop :=
  match s.control with
  | .idle => False
  | .walking _ p | .calling _ _ p =>
    ∃ front back, s.timers = front ++ back ∧ back.head?.map TimerCallbackInfo.id = p ∧ t ∈ back

-- Called, or deleted by its function and its data.
def Served (now : Timespec) (t : TimerCallbackInfo) (log : List Event) : Prop :=
  .called t.id now ∈ log ∨ ∃ callback, t.function = some callback ∧ .deleted callback t.userData ∈ log

theorem calls_iff {callback userData : Nat} : t.calls callback userData = true ↔
    t.function = some callback ∧ t.userData = userData := by
  simp [TimerCallbackInfo.calls]

theorem Change.log (hchange : Change s s') : ∃ more, s'.log = s.log ++ more := by
  cases hchange with
  | read => exact ⟨[],(List.append_nil _).symm⟩
  | inserted => exact ⟨_,rfl⟩
  | deleted callback userData =>
    unfold deleteTimerEvent
    split
    · exact ⟨_,rfl⟩
    · exact ⟨_,rfl⟩
  | began => exact ⟨[],(List.append_nil _).symm⟩
  | ended => exact ⟨_,rfl⟩
  | dropped => exact ⟨[],(List.append_nil _).symm⟩
  | called => exact ⟨_,rfl⟩
  | returned => exact ⟨_,rfl⟩

theorem Change.pass (hchange : Change s s') (hpass : s.control.pass = some now) :
    s'.control = .idle ∨ s'.control.pass = some now := by
  cases hchange with
  | read => exact .inr hpass
  | inserted => exact .inr hpass
  | deleted callback userData =>
    refine .inr ?_
    unfold deleteTimerEvent
    split
    · exact hpass
    · exact hpass
  | began now' hcontrol =>
    rw [hcontrol] at hpass
    cases hpass
  | ended => exact .inl rfl
  | dropped now' t hcontrol =>
    rw [hcontrol] at hpass
    exact .inr hpass
  | called now' t hcontrol =>
    rw [hcontrol] at hpass
    exact .inr hpass
  | returned now' next t t' hcontrol =>
    rw [hcontrol] at hpass
    exact .inr hpass

theorem Change.ahead (h : Inv s) (hchange : Change s s') (hpass : s.control.pass = some now)
    (hlive : t.live = true) (hdue : t.expiry ≤ nanos now) (hahead : Ahead s t) {more : List Event}
    (hmore : s'.log = s.log ++ more) : Served now t more ∨ Ahead s' t := by
  cases hchange with
  | read clock => exact .inr hahead
  | inserted now' new hcontrol hclock hid =>
    right
    unfold Ahead at hahead ⊢
    simp only [State.insertNew]
    cases hc : s.control with
    | idle =>
      rw [hc] at hpass
      cases hpass
    | walking pass p =>
      rw [hc] at hcontrol
      cases hcontrol
    | calling pass i p =>
      rw [hc] at hahead
      obtain ⟨front,back,hsplit,hhead,ht⟩ := hahead
      obtain ⟨front',back',hinsert,hhead',_,_,hback⟩ := insert_front_back new front back
      exact ⟨front',back',by rw [hsplit,hinsert],hhead'.trans hhead,hback ht⟩
  | deleted callback userData hcontrol =>
    cases hc : s.control with
    | idle =>
      rw [hc] at hpass
      cases hpass
    | walking pass p =>
      rw [hc] at hcontrol
      cases hcontrol
    | calling pass i p =>
      simp only [Ahead,hc] at hahead
      obtain ⟨front,back,hsplit,hhead,ht⟩ := hahead
      unfold deleteTimerEvent at hmore ⊢
      cases hfind : s.timers.find? (·.calls callback userData) with
      | none =>
        right
        simp only [Ahead,hc]
        exact ⟨front,back,hsplit,hhead,ht⟩
      | some u =>
        rw [hfind] at hmore
        obtain rfl := List.append_cancel_left hmore
        by_cases hid : t.id = u.id
        · left
          have hmem : t ∈ s.timers := hsplit ▸ List.mem_append_right _ ht
          obtain rfl := eq_of_id h.ordered.nodup hmem (List.mem_of_find?_eq_some hfind) hid
          have hcalls : t.calls callback userData = true := by simpa using List.find?_some hfind
          obtain ⟨hfunction,rfl⟩ := calls_iff.mp hcalls
          exact .inr ⟨callback,hfunction,List.mem_singleton_self _⟩
        · right
          simp only [Ahead,hc]
          refine ⟨update u.id TimerCallbackInfo.cleared front,update u.id TimerCallbackInfo.cleared back,?_,?_,?_⟩
          · rw [hsplit,update,List.map_append]
            rfl
          · have hids := congrArg List.head? (ids_update_cleared u.id back)
            rw [ids,ids,List.head?_map,List.head?_map] at hids
            exact hids.trans hhead
          · exact List.mem_map.mpr ⟨t,ht,if_neg hid⟩
  | began now' hcontrol =>
    rw [hcontrol] at hpass
    cases hpass
  | ended now' element usec hcontrol hend =>
    rw [hcontrol] at hpass
    obtain rfl := Option.some.inj hpass
    simp only [Ahead,hcontrol] at hahead
    obtain ⟨front,back,hsplit,hhead,ht⟩ := hahead
    cases back with
    | nil => cases ht
    | cons u back =>
      obtain ⟨v,hv,hvlive,hvlater⟩ := hend u.id hhead.symm
      obtain ⟨hvmem,hvid⟩ := lookup_mem hv
      obtain rfl := eq_of_id h.ordered.nodup hvmem (hsplit ▸ by simp) hvid
      have hback : Ordered (v :: back) :=
        (hsplit ▸ h.ordered : Ordered (front ++ v :: back)).sublist (List.sublist_append_right _ _)
      have hle := hback.first hvlive t ht hlive
      omega
  | dropped now' u hcontrol hu hdead =>
    right
    simp only [Ahead,hcontrol] at hahead
    obtain ⟨front,back,hsplit,hhead,ht⟩ := hahead
    have hnodup := hsplit ▸ h.ordered.nodup
    obtain ⟨rest,rfl⟩ := back_of_head hnodup (hsplit ▸ (lookup_mem hu).1) hhead
    refine ⟨front,rest,?_,?_,?_⟩
    · rw [hsplit,delete_here hnodup]
    · rw [hsplit,elementNext_split hnodup]
    · rcases List.mem_cons.mp ht with rfl | ht
      · rw [hlive] at hdead
        cases hdead
      · exact ht
  | called now' u hcontrol hu =>
    rw [hcontrol] at hpass
    obtain rfl := Option.some.inj hpass
    obtain rfl := List.append_cancel_left hmore
    simp only [Ahead,hcontrol] at hahead
    obtain ⟨front,back,hsplit,hhead,ht⟩ := hahead
    have hnodup := hsplit ▸ h.ordered.nodup
    obtain ⟨rest,rfl⟩ := back_of_head hnodup (hsplit ▸ (lookup_mem hu).1) hhead
    rcases List.mem_cons.mp ht with rfl | ht
    · exact .inl (.inl (List.mem_singleton_self _))
    · refine .inr ⟨front ++ [u],rest,?_,?_,ht⟩
      · rw [hsplit]
        simp
      · rw [hsplit,elementNext_split hnodup]
  | returned now' next u u' hcontrol hu hafter =>
    right
    have hplaced := h.placed
    simp only [Placed,hcontrol] at hplaced
    obtain ⟨_,_,front,back,hsplit,hnext,hi,_⟩ := hplaced
    simp only [Ahead,hcontrol] at hahead
    obtain ⟨front',back',hsplit',hnext',ht⟩ := hahead
    have hnodup := hsplit ▸ h.ordered.nodup
    obtain rfl := back_of_split hnodup (hsplit.symm.trans hsplit') (hnext.trans hnext'.symm)
    have hrest : deleteDlistElement u'.id s.timers = deleteDlistElement u.id front ++ back := by
      rw [(afterCall_cases hafter).1,hsplit,delete_front hnodup hi]
    simp only [Ahead,moveOn,hrest]
    split
    · obtain ⟨front'',back'',hinsert,hhead,_,_,hback⟩ :=
        insert_front_back u' (deleteDlistElement u.id front) back
      exact ⟨front'',back'',hinsert,hhead.trans hnext,hback ht⟩
    · exact ⟨_,back,rfl,hnext,ht⟩

-- A pass from `start` on, up to some point in it or to its end.
inductive InPass (start : State) (now : Timespec) : State → Prop
  | began {s : State} (htimely : (Action.execute now).Timely start.clock)
      (hstep : step start (.execute now) = .ok s) : InPass start now s
  | step {s s' : State} {a : Action} (h : InPass start now s) (hpass : s.control ≠ .idle)
      (htimely : a.Timely s.clock) (hstep : step s a = .ok s') : InPass start now s'

theorem InPass.reached (hstart : Reached start) (h : InPass start now s) : Reached s := by
  induction h with
  | began htimely hstep => exact hstart.step htimely hstep
  | step _ _ htimely hstep ih => exact ih.step htimely hstep

theorem execute_ok (hstep : Timer.step start (.execute now) = .ok s) : start.control = .idle ∧
    s = { start with
      control := .walking now (start.timers.head?.map TimerCallbackInfo.id)
      clock := now } := by
  unfold Timer.step at hstep
  cases hcontrol : start.control with
  | idle =>
    rw [hcontrol] at hstep
    exact ⟨rfl,(Except.ok.inj hstep).symm⟩
  | walking now' element =>
    rw [hcontrol] at hstep
    cases hstep
  | calling now' i next =>
    rw [hcontrol] at hstep
    cases hstep

theorem pass_of_busy (hbusy : s.control ≠ .idle) (h : s.control = .idle ∨ s.control.pass = some now) :
    s.control.pass = some now := h.resolve_left hbusy

theorem InPass.progress (hstart : Reached start) (h : InPass start now s) :
    (s.control = .idle ∨ s.control.pass = some now) ∧ ∃ more, s.log = start.log ++ more ∧
      (∀ chosen, callCount chosen more + charge chosen s ≤ total (among chosen (weight now)) start.timers) ∧
      ∀ t ∈ start.timers, t.live = true → t.expiry ≤ nanos now → Served now t more ∨ Ahead s t := by
  induction h with
  | began htimely hstep =>
    obtain ⟨_,rfl⟩ := execute_ok hstep
    refine ⟨.inr rfl,[],(List.append_nil _).symm,fun chosen => ?_,fun t ht _ _ => .inr ⟨[],start.timers,rfl,rfl,ht⟩⟩
    exact (Nat.zero_add _).le
  | @step s s' a h hbusy htimely hstep ih =>
    have hinv := (h.reached hstart).inv
    obtain ⟨hpass,more,hlog,hcharge,hserved⟩ := ih
    have hchange := step_change hinv htimely hstep
    have hpass' := pass_of_busy hbusy hpass
    obtain ⟨last,hlast⟩ := hchange.log
    refine ⟨hchange.pass hpass',more ++ last,by rw [hlast,hlog,List.append_assoc],?_,?_⟩
    · intro chosen
      have hpaid := hchange.paid hinv hbusy chosen
      have hold := hcharge chosen
      rw [hlast,callCount_append] at hpaid
      rw [callCount_append]
      omega
    · intro t ht hlive hdue
      rcases hserved t ht hlive hdue with hdone | hahead
      · refine .inl (hdone.imp (List.mem_append_left _) ?_)
        rintro ⟨callback,hfunction,hdeleted⟩
        exact ⟨callback,hfunction,List.mem_append_left _ hdeleted⟩
      · rcases hchange.ahead hinv hpass' hlive hdue hahead hlast with hdone | hahead
        · refine .inl (hdone.imp (List.mem_append_right _) ?_)
          rintro ⟨callback,hfunction,hdeleted⟩
          exact ⟨callback,hfunction,List.mem_append_right _ hdeleted⟩
        · exact .inr hahead

theorem weight_le (now : Timespec) (t : TimerCallbackInfo) :
    weight now t ≤ if 0 < nanos t.interval then 2 else 1 := by
  have hresidual := residual_le now t
  unfold weight
  split
  · split
    · omega
    · rename_i hsingle
      have hnone : residual now t = 0 := if_neg fun h => hsingle h.2.1
      omega
  · omega

-- What one timer can be charged with.
theorem total_single (hnodup : (ids s.timers).Nodup) (ht : t ∈ s.timers) (f : TimerCallbackInfo → Nat) :
    total (among (· = t.id) f) s.timers = f t := by
  have hrest : total (among (· = t.id) f) (deleteDlistElement t.id s.timers) = 0 := by
    refine List.sum_eq_zero ?_
    intro n hn
    obtain ⟨u,hu,rfl⟩ := List.mem_map.mp hn
    simp [among,(mem_delete.mp hu).2]
  rw [total_delete hnodup ht,hrest]
  simp [among]

theorem total_absent {i : Nat} (hi : i ∉ ids s.timers) (f : TimerCallbackInfo → Nat) :
    total (among (· = i) f) s.timers = 0 := by
  refine List.sum_eq_zero ?_
  intro n hn
  obtain ⟨u,hu,rfl⟩ := List.mem_map.mp hn
  have hne : u.id ≠ i := fun heq => hi (heq ▸ List.mem_map_of_mem hu)
  simp [among,hne]

-- Twice in a pass at most, and once without a period.
theorem InPass.calls_le (hstart : Reached start) (h : InPass start now s) (i : Nat) :
    ∃ more, s.log = start.log ++ more ∧ callCount (· = i) more ≤ 2 ∧
      ∀ t ∈ start.timers, t.id = i → ¬ 0 < nanos t.interval → callCount (· = i) more ≤ 1 := by
  have hnodup := hstart.inv.ordered.nodup
  obtain ⟨_,more,hlog,hcharge,_⟩ := h.progress hstart
  have hpaid := hcharge (· = i)
  refine ⟨more,hlog,?_,?_⟩
  · by_cases hi : i ∈ ids start.timers
    · obtain ⟨t,ht,rfl⟩ := List.mem_map.mp hi
      have hweight := weight_le now t
      rw [total_single hnodup ht] at hpaid
      split at hweight <;> omega
    · rw [total_absent hi] at hpaid
      omega
  · rintro t ht rfl hsingle
    have hweight := weight_le now t
    rw [total_single hnodup ht] at hpaid
    rw [if_neg hsingle] at hweight
    omega

end Complete

section Termination

variable {s s' : State} {now : Timespec}

def Control.inLoop : Control → Bool
  | .walking _ _ => true
  | _ => false

def Control.inCall : Control → Bool
  | .calling _ _ _ => true
  | _ => false

-- A step of the function that is called.
def Uses (s s' : State) : Prop :=
  s.control.inCall = true ∧ s'.control.inCall = true ∧ ∃ a : Action, a.Timely s.clock ∧ step s a = .ok s'

-- One turn of the loop: a visit, and when it calls a function what that does until it comes back.
inductive Turn : State → State → Prop
  | passed {s s' : State} (hloop : s.control.inLoop = true) (hstep : step s .visit = .ok s')
      (hloop' : s'.control.inLoop = true) : Turn s s'
  | called {s t u s' : State} (hloop : s.control.inLoop = true) (hvisit : step s .visit = .ok t)
      (hcall : t.control.inCall = true) (huses : Relation.ReflTransGen Uses t u)
      (hback : step u .comeBack = .ok s') : Turn s s'

def remaining (s : State) : Nat × Nat := (charge (fun _ => true) s,s.timers.length)

theorem not_idle_of_loop (h : s.control.inLoop = true) : s.control ≠ .idle := by
  intro hidle
  rw [hidle] at h
  cases h

theorem not_idle_of_call (h : s.control.inCall = true) : s.control ≠ .idle := by
  intro hidle
  rw [hidle] at h
  cases h

theorem loop_of_call {c : Control} (h : c.inCall = true) : c.inLoop = false := by
  cases c with
  | idle => cases h
  | walking now element => cases h
  | calling now i next => rfl

theorem outside_of_loop {c : Control} (h : c.inLoop = true) : c.outside = false := by
  cases c with
  | idle => cases h
  | walking now element => rfl
  | calling now i next => cases h

theorem Change.charge_le (h : Inv s) (hbusy : s.control ≠ .idle) (hchange : Change s s') :
    charge (fun _ => true) s' ≤ charge (fun _ => true) s := by
  have hpaid := hchange.paid h hbusy fun _ => true
  obtain ⟨more,hmore⟩ := hchange.log
  rw [hmore,callCount_append] at hpaid
  omega

theorem uses_reached (h : Reached s) (hcall : s.control.inCall = true) (huses : Relation.ReflTransGen Uses s s') :
    Reached s' ∧ s'.control.inCall = true ∧ charge (fun _ => true) s' ≤ charge (fun _ => true) s := by
  induction huses with
  | refl => exact ⟨h,hcall,le_rfl⟩
  | tail _ huse ih =>
    obtain ⟨hreached,_,hcharge⟩ := ih
    obtain ⟨hcall,hcall',a,htimely,hstep⟩ := huse
    have hchange := step_change hreached.inv htimely hstep
    exact ⟨hreached.step htimely hstep,hcall',(hchange.charge_le hreached.inv (not_idle_of_call hcall)).trans hcharge⟩

-- A visit calls a function, or takes a timer off the list.
theorem visit_decreases (h : Inv s) (hloop : s.control.inLoop = true) (hbusy : s'.control ≠ .idle)
    (hchange : Change s s') :
    charge (fun _ => true) s' < charge (fun _ => true) s ∧ s'.control.inCall = true ∨
      charge (fun _ => true) s' ≤ charge (fun _ => true) s ∧ s'.timers.length < s.timers.length ∧
        s'.control.inLoop = true := by
  have hpaid := hchange.paid h (not_idle_of_loop hloop) fun _ => true
  have hle := hchange.charge_le h (not_idle_of_loop hloop)
  cases hchange with
  | read clock hcontrol =>
    rw [outside_of_loop hloop] at hcontrol
    cases hcontrol
  | inserted now new hcontrol =>
    rw [outside_of_loop hloop] at hcontrol
    cases hcontrol
  | deleted callback userData hcontrol =>
    rw [outside_of_loop hloop] at hcontrol
    cases hcontrol
  | began now hcontrol =>
    rw [hcontrol] at hloop
    cases hloop
  | ended => exact absurd rfl hbusy
  | dropped now t hcontrol ht hdead =>
    refine .inr ⟨hle,?_,rfl⟩
    have hmem := (lookup_mem ht).1
    obtain ⟨front,back,hsplit⟩ := List.append_of_mem hmem
    have hnodup := hsplit ▸ h.ordered.nodup
    simp only [hsplit,delete_here hnodup,List.length_append,List.length_cons]
    omega
  | called now t hcontrol =>
    refine .inl ⟨?_,rfl⟩
    have hcount : callCount (fun _ => true) [Event.called t.id now] = 1 := rfl
    rw [callCount_append,hcount] at hpaid
    omega
  | returned now next t t' hcontrol =>
    rw [hcontrol] at hloop
    cases hloop

theorem Turn.decreases (h : Reached s) (hturn : Turn s s') :
    Reached s' ∧ Prod.Lex (· < ·) (· < ·) (remaining s') (remaining s) := by
  cases hturn with
  | passed hloop hstep hloop' =>
    have hchange := step_change (a := .visit) h.inv trivial hstep
    refine ⟨h.step (a := .visit) trivial hstep,?_⟩
    rcases visit_decreases h.inv hloop (not_idle_of_loop hloop') hchange with ⟨hless,_⟩ | ⟨hle,hshort,_⟩
    · exact .left _ _ hless
    · exact Prod.lex_iff.mpr (hle.lt_or_eq.imp id fun heq => ⟨heq,hshort⟩)
  | called hloop hvisit hcall huses hback =>
    have hchange := step_change (a := .visit) h.inv trivial hvisit
    have ht := h.step (a := .visit) trivial hvisit
    obtain ⟨hu,hcall',hcharge⟩ := uses_reached ht hcall huses
    have hchange' := step_change (a := .comeBack) hu.inv trivial hback
    have hback' := hchange'.charge_le hu.inv (not_idle_of_call hcall')
    refine ⟨hu.step (a := .comeBack) trivial hback,.left _ _ ?_⟩
    rcases visit_decreases h.inv hloop (not_idle_of_call hcall) hchange with ⟨hless,_⟩ | ⟨_,_,hloop'⟩
    · exact (hback'.trans hcharge).trans_lt hless
    · rw [loop_of_call hcall] at hloop'
      cases hloop'

theorem Reached.turns (h : Reached s) : Acc (fun s' s => Turn s s') s := by
  have hwf : WellFounded (Prod.Lex (· < ·) (· < ·) : Nat × Nat → Nat × Nat → Prop) :=
    WellFounded.prod_lex wellFounded_lt wellFounded_lt
  induction hm : remaining s using hwf.induction generalizing s with
  | _ m ih =>
    refine ⟨_,fun s' hturn => ?_⟩
    obtain ⟨hreached,hless⟩ := hturn.decreases h
    exact ih _ (hm ▸ hless) hreached rfl

-- The loop finds the element it is at, and the function that comes back its timer.
theorem visit_ok (h : Reached s) (hloop : s.control.inLoop = true) : ∃ s', step s .visit = .ok s' := by
  have hinv := h.inv
  have hplaced := hinv.placed
  cases hc : s.control with
  | idle =>
    rw [hc] at hloop
    cases hloop
  | calling now i next =>
    rw [hc] at hloop
    cases hloop
  | walking now element =>
    simp only [Placed,hc] at hplaced
    obtain ⟨hnow,_,front,back,hsplit,hhead,_⟩ := hplaced
    obtain ⟨usec,husec⟩ := nextTimeout_ok hnow s.timers
    simp only [step,hc]
    cases element with
    | none => exact ⟨_,by simp only [visit,endPass,husec,ok_bind]; rfl⟩
    | some i =>
      cases back with
      | nil => cases hhead
      | cons t back =>
        obtain rfl := Option.some.inj hhead
        have ht : lookup t.id s.timers = .ok t := lookup_ok hinv.ordered.nodup (hsplit ▸ by simp)
        simp only [visit,ht,ok_bind]
        split
        · split
          · exact ⟨_,by simp only [endPass,husec,ok_bind]; rfl⟩
          · split
            · exact ⟨_,rfl⟩
            · exact ⟨_,rfl⟩
        · exact ⟨_,rfl⟩

theorem comeBack_ok (h : Reached s) (hcall : s.control.inCall = true) :
    (∃ s', step s .comeBack = .ok s') ∨ step s .comeBack = .error (.rejected .overflow) := by
  have hinv := h.inv
  have hplaced := hinv.placed
  cases hc : s.control with
  | idle =>
    rw [hc] at hcall
    cases hcall
  | walking now element =>
    rw [hc] at hcall
    cases hcall
  | calling now i next =>
    simp only [Placed,hc] at hplaced
    obtain ⟨_,_,front,back,hsplit,_,hi,_⟩ := hplaced
    obtain ⟨t,ht,rfl⟩ := List.mem_map.mp hi
    have hlookup : lookup t.id s.timers = .ok t :=
      lookup_ok hinv.ordered.nodup (hsplit ▸ List.mem_append_left _ ht)
    simp only [step,hc,comeBack,hlookup,ok_bind,afterCall]
    split
    · rcases add_outcome t.expiresAt t.interval with ⟨c,hadd⟩ | hadd
      · exact .inl ⟨_,by simp only [hadd,ok_bind]; rfl⟩
      · exact .inr (by simp only [hadd]; rfl)
    · exact .inl ⟨_,rfl⟩

end Termination

end Trema.Timer
