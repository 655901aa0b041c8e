import Trema.Library.Schedule
import Trema.Timer.Passes

namespace Trema.Timer

open Library Schedule

section History

-- A live timer, by its function and data.
def entry (t : TimerCallbackInfo) : Option (Entry (Nat × Nat)) :=
  t.function.map fun callback => ⟨t.id,(callback,t.userData),t.expiry,nanos t.interval⟩

def happening : Event → Option (Happening (Nat × Nat))
  | .added t => (entry t).map .added
  | .deleted callback userData => some (.deleted (callback,userData))
  | .called i now => some (.called i (nanos now))
  | .returned i now => some (.returned i (nanos now))
  | .passed _ _ => none

def history (log : List Event) : List (Happening (Nat × Nat)) := log.filterMap happening

-- A function and its data belong to one live timer at most when they are deleted.
def Permitted (log : List Event) : Prop :=
  ∀ front callback userData back, log = front ++ .deleted callback userData :: back →
    ∀ e ∈ scheduled (history front), ∀ e' ∈ scheduled (history front),
      e.key = (callback,userData) → e'.key = (callback,userData) → e = e'

def Control.running : Control → Option Nat
  | .calling _ i _ => some i
  | _ => none

-- The log is lawful, and the live timers are those that are scheduled.
structure Sim (s : State) : Prop where
  lawful : Lawful (history s.log) s.control.running
  same : ∀ e, e ∈ scheduled (history s.log) ↔ ∃ t ∈ s.timers, entry t = some e
  known : ∀ e, .added e ∈ history s.log → e.id < s.nextId

end History

section Refinement

variable {s s' : State} {timers : List TimerCallbackInfo} {t t' u : TimerCallbackInfo} {e : Entry (Nat × Nat)}
  {log more : List Event}

theorem history_append (log more : List Event) : history (log ++ more) = history log ++ history more :=
  List.filterMap_append

theorem Permitted.front (h : Permitted (log ++ more)) : Permitted log := by
  intro front callback userData back hlog
  exact h front callback userData (back ++ more) (by rw [hlog,List.append_assoc,List.cons_append])

theorem entry_live (h : entry t = some e) : t.live = true ∧ t.id = e.id ∧ t.function = some e.key.1 ∧
    t.userData = e.key.2 ∧ t.expiry = e.expiry ∧ nanos t.interval = e.interval := by
  obtain ⟨callback,hfunction,rfl⟩ := Option.map_eq_some_iff.mp h
  exact ⟨by rw [TimerCallbackInfo.live,hfunction]; rfl,rfl,hfunction,rfl,rfl,rfl⟩

theorem entry_of_live (h : t.live = true) : ∃ e, entry t = some e := by
  obtain ⟨callback,hfunction⟩ := Option.isSome_iff_exists.mp h
  exact ⟨_,by rw [entry,hfunction]; rfl⟩

theorem calls_of_entry (h : entry t = some e) {callback userData : Nat} :
    t.calls callback userData = true ↔ e.key = (callback,userData) := by
  obtain ⟨_,_,hfunction,hdata,_⟩ := entry_live h
  rw [calls_iff,hfunction,hdata,Prod.ext_iff]
  exact ⟨fun h => ⟨Option.some.inj h.1,h.2⟩,fun h => ⟨congrArg some h.1,h.2⟩⟩

theorem mem_moveOn : u ∈ moveOn t timers ↔ t.live = true ∧ u = t ∨ u ∈ timers ∧ u.id ≠ t.id := by
  unfold moveOn
  split
  · rename_i hlive
    rw [mem_insert,mem_delete]
    simp [hlive]
  · rename_i hdead
    rw [mem_delete]
    simp [hdead]

theorem Sim.insertNew (h : Sim s) {now : Timespec} {new : TimerCallbackInfo} (hid : new.id = s.nextId)
    (hlive : new.live = true) : Sim (s.insertNew now new) := by
  obtain ⟨e,he⟩ := entry_of_live hlive
  have hhistory : history (s.insertNew now new).log = history s.log ++ [.added e] := by
    rw [State.insertNew,history_append]
    simp [history,happening,he]
  have heid : e.id = s.nextId := (entry_live he).2.1.symm.trans hid
  refine ⟨?_,?_,?_⟩
  · rw [hhistory]
    refine h.lawful.added fun e' he' => ?_
    have hlt := h.known e' he'
    omega
  · intro e'
    rw [hhistory,scheduled_concat,happen,List.mem_append,List.mem_singleton,h.same]
    constructor
    · rintro (⟨t,ht,het⟩ | rfl)
      · exact ⟨t,mem_insert.mpr (.inr ht),het⟩
      · exact ⟨new,mem_insert.mpr (.inl rfl),he⟩
    · rintro ⟨t,ht,het⟩
      rcases mem_insert.mp ht with rfl | ht
      · exact .inr (Option.some.inj (het.symm.trans he))
      · exact .inl ⟨t,ht,het⟩
  · intro e' he'
    rw [hhistory] at he'
    rcases List.mem_append.mp he' with he' | he'
    · exact Nat.lt_succ_of_lt (h.known e' he')
    · obtain rfl := Happening.added.inj (List.mem_singleton.mp he')
      exact heid ▸ Nat.lt_succ_self _

theorem log_deleted (callback userData : Nat) (s : State) :
    (deleteTimerEvent callback userData s).2.log = s.log ++ [.deleted callback userData] := by
  unfold deleteTimerEvent
  split <;> rfl

theorem history_deleted (callback userData : Nat) (s : State) :
    history (deleteTimerEvent callback userData s).2.log = history s.log ++ [.deleted (callback,userData)] ∧
      (deleteTimerEvent callback userData s).2.control = s.control ∧
      (deleteTimerEvent callback userData s).2.nextId = s.nextId := by
  refine ⟨?_,?_⟩
  · rw [log_deleted,history_append]
    rfl
  · unfold deleteTimerEvent
    split <;> exact ⟨rfl,rfl⟩

-- The first timer that has the function and the data is the only one.
theorem Sim.deleted_same (h : Sim s) (hs : Inv s) {callback userData : Nat}
    (honly : ∀ e ∈ scheduled (history s.log), ∀ e' ∈ scheduled (history s.log),
      e.key = (callback,userData) → e'.key = (callback,userData) → e = e') :
    (∃ t ∈ (deleteTimerEvent callback userData s).2.timers, entry t = some e) ↔
      (∃ t ∈ s.timers, entry t = some e) ∧ e.key ≠ (callback,userData) := by
  unfold deleteTimerEvent
  cases hfind : s.timers.find? (·.calls callback userData) with
  | none =>
    simp only
    refine ⟨fun hmem => ⟨hmem,?_⟩,And.left⟩
    obtain ⟨t,ht,he⟩ := hmem
    intro hkey
    exact List.find?_eq_none.mp hfind t ht ((calls_of_entry he).mpr hkey)
  | some v =>
    have hv := List.mem_of_find?_eq_some hfind
    have hcalls : v.calls callback userData = true := by simpa using List.find?_some hfind
    simp only
    constructor
    · rintro ⟨t,ht,he⟩
      rcases mem_update_cleared ht with ⟨ht,hne⟩ | ⟨u,_,_,rfl⟩
      · refine ⟨⟨t,ht,he⟩,fun hkey => ?_⟩
        have hlive : v.live = true := by rw [TimerCallbackInfo.live,(calls_iff.mp hcalls).1]; rfl
        obtain ⟨e',he'⟩ := entry_of_live hlive
        have hsame := honly e ((h.same e).mpr ⟨t,ht,he⟩) e' ((h.same e').mpr ⟨v,hv,he'⟩) hkey
          ((calls_of_entry he').mp hcalls)
        exact hne ((entry_live he).2.1.trans (hsame ▸ (entry_live he').2.1.symm))
      · cases he
    · rintro ⟨⟨t,ht,he⟩,hkey⟩
      refine ⟨t,List.mem_map.mpr ⟨t,ht,if_neg fun hid => ?_⟩,he⟩
      obtain rfl := eq_of_id hs.ordered.nodup ht hv hid
      exact hkey ((calls_of_entry he).mp hcalls)

theorem Sim.returned_same (h : Sim s) (hs : Inv s) {now : Timespec} (ht : t ∈ s.timers)
    (hafter : afterCall now t = .ok t') :
    (∃ u ∈ moveOn t' s.timers, entry u = some e) ↔
      e ∈ happen (scheduled (history s.log)) (.returned t.id (nanos now)) := by
  obtain ⟨hid,hcases⟩ := afterCall_cases hafter
  have hmoved := hcases (hs.ordered.periods t ht)
  rw [happen,List.mem_filterMap]
  constructor
  · rintro ⟨u,hu,he⟩
    rcases mem_moveOn.mp hu with ⟨hlive,rfl⟩ | ⟨hu,hne⟩
    · rcases hmoved with ⟨hinterval,hfunction,hdata,hpos,hexpiry⟩ | ⟨hdead,_⟩
      · have hold : t.live = true := by rw [TimerCallbackInfo.live,← hfunction]; exact hlive
        obtain ⟨e₀,he₀⟩ := entry_of_live hold
        refine ⟨e₀,(h.same e₀).mpr ⟨t,ht,he₀⟩,?_⟩
        obtain ⟨callback,hcallback,rfl⟩ := Option.map_eq_some_iff.mp he
        obtain ⟨callback',hcallback',rfl⟩ := Option.map_eq_some_iff.mp he₀
        obtain rfl : callback = callback' := Option.some.inj (hcallback.symm.trans (hfunction.trans hcallback'))
        rw [if_pos rfl,Entry.after,if_pos hpos,Entry.again]
        simp only [hid,hdata,hexpiry,hinterval]
      · rw [hlive] at hdead
        cases hdead
    · refine ⟨e,(h.same e).mpr ⟨u,hu,he⟩,if_neg ?_⟩
      rw [← (entry_live he).2.1,← hid]
      exact hne
  · rintro ⟨e₀,he₀,hnext⟩
    obtain ⟨u,hu,heu⟩ := (h.same e₀).mp he₀
    have huid := (entry_live heu).2.1
    split at hnext
    · rename_i hsame
      obtain rfl := eq_of_id hs.ordered.nodup hu ht (huid.trans hsame)
      unfold Entry.after at hnext
      split at hnext
      · rename_i hpos
        obtain rfl := Option.some.inj hnext
        rcases hmoved with ⟨hinterval,hfunction,hdata,_,hexpiry⟩ | ⟨_,hsingle⟩
        · obtain ⟨callback,hcallback,rfl⟩ := Option.map_eq_some_iff.mp heu
          have hlive : t'.live = true := by rw [TimerCallbackInfo.live,hfunction,hcallback]; rfl
          refine ⟨t',mem_moveOn.mpr (.inl ⟨hlive,rfl⟩),?_⟩
          rw [entry,hfunction,hcallback,Option.map_some,Entry.again]
          simp only [hid,hdata,hexpiry,hinterval]
        · exact absurd ((entry_live heu).2.2.2.2.2 ▸ hpos) hsingle
      · cases hnext
    · rename_i hother
      obtain rfl := Option.some.inj hnext
      refine ⟨u,mem_moveOn.mpr (.inr ⟨hu,?_⟩),heu⟩
      rw [hid,huid]
      exact hother

theorem lookup_entry (ht : lookup t.id s.timers = .ok t) (hlive : t.live = true) (h : Sim s) :
    ∃ e ∈ scheduled (history s.log), e.id = t.id ∧ e.expiry = t.expiry := by
  obtain ⟨e,he⟩ := entry_of_live hlive
  obtain ⟨_,hid,_,_,hexpiry,_⟩ := entry_live he
  exact ⟨e,(h.same e).mpr ⟨t,(lookup_mem ht).1,he⟩,hid.symm,hexpiry.symm⟩

theorem Change.sim (hs : Inv s) (hchange : Change s s') (hpermitted : Permitted s'.log) (h : Sim s) : Sim s' := by
  cases hchange with
  | read clock => exact ⟨h.lawful,h.same,h.known⟩
  | inserted now new _ _ hid hlive => exact h.insertNew hid hlive
  | deleted callback userData =>
    obtain ⟨hhistory,hcontrol,hnext⟩ := history_deleted callback userData s
    have honly : ∀ e ∈ scheduled (history s.log), ∀ e' ∈ scheduled (history s.log),
        e.key = (callback,userData) → e'.key = (callback,userData) → e = e' :=
      hpermitted s.log callback userData [] (log_deleted callback userData s)
    refine ⟨?_,?_,?_⟩
    · rw [hhistory,hcontrol]
      exact h.lawful.deleted _
    · intro e
      rw [hhistory,scheduled_concat,happen,List.mem_filter,h.same,h.deleted_same hs honly]
      simp
    · intro e he
      rw [hhistory] at he
      rw [hnext]
      exact h.known e (by simpa using he)
  | began now hcontrol =>
    refine ⟨?_,h.same,h.known⟩
    have hlawful := h.lawful
    rw [hcontrol] at hlawful
    exact hlawful
  | ended now element usec hcontrol =>
    have hlawful := h.lawful
    rw [hcontrol] at hlawful
    have hhistory : history (s.log ++ [.passed now usec]) = history s.log := by
      rw [history_append]
      exact List.append_nil _
    refine ⟨?_,?_,?_⟩
    · simp only [hhistory]
      exact hlawful
    · simp only [hhistory]
      exact h.same
    · simp only [hhistory]
      exact h.known
  | dropped now t hcontrol ht hdead =>
    have hlawful := h.lawful
    rw [hcontrol] at hlawful
    refine ⟨hlawful,fun e => (h.same e).trans ?_,h.known⟩
    constructor
    · rintro ⟨u,hu,he⟩
      refine ⟨u,mem_delete.mpr ⟨hu,fun hid => ?_⟩,he⟩
      obtain rfl := eq_of_id hs.ordered.nodup hu (lookup_mem ht).1 hid
      rw [(entry_live he).1] at hdead
      cases hdead
    · rintro ⟨u,hu,he⟩
      exact ⟨u,(mem_delete.mp hu).1,he⟩
  | called now t hcontrol ht hlive hdue =>
    obtain ⟨e,he,hid,hexpiry⟩ := lookup_entry ht hlive h
    have hlawful := h.lawful
    rw [hcontrol] at hlawful
    have hhistory : history (s.log ++ [.called t.id now]) = history s.log ++ [.called t.id (nanos now)] :=
      history_append _ _
    refine ⟨?_,?_,?_⟩
    · have hcall := hlawful.called he (hexpiry ▸ hdue)
      rw [hid] at hcall
      simp only [hhistory]
      exact hcall
    · intro e'
      simp only [hhistory,scheduled_concat,happen]
      exact h.same e'
    · intro e' he'
      simp only [hhistory] at he'
      exact h.known e' (by simpa using he')
  | returned now next t t' hcontrol ht hafter =>
    have hlawful := h.lawful
    rw [hcontrol] at hlawful
    have hhistory : history (s.log ++ [.returned t.id now]) = history s.log ++ [.returned t.id (nanos now)] :=
      history_append _ _
    refine ⟨?_,?_,?_⟩
    · simp only [hhistory]
      exact hlawful.returned _
    · intro e
      simp only [hhistory,scheduled_concat]
      exact (h.returned_same hs (lookup_mem ht).1 hafter).symm
    · intro e he
      simp only [hhistory] at he
      exact h.known e (by simpa using he)

theorem Reached.sim (h : Reached s) (hpermitted : Permitted s.log) : Sim s := by
  induction h with
  | init clock =>
    exact ⟨.nil,fun e => by simp [initTimer,history,scheduled],fun e he => by simp [initTimer,history] at he⟩
  | @step s s' a h htimely hstep ih =>
    have hchange := step_change h.inv htimely hstep
    obtain ⟨more,hmore⟩ := hchange.log
    exact hchange.sim h.inv hpermitted (ih (Permitted.front (hmore ▸ hpermitted)))

end Refinement

section Operations

variable {s : State}

theorem Permitted.called_due (h : Reached s) (hpermitted : Permitted s.log) {front back : List Event} {i : Nat}
    {now : Timespec} (hlog : s.log = front ++ .called i now :: back) :
    ∃ e ∈ scheduled (history front), e.id = i ∧ e.expiry ≤ nanos now := by
  have hlawful := (h.sim hpermitted).lawful
  rw [hlog,history_append] at hlawful
  exact hlawful.called_due

theorem Permitted.not_called (h : Reached s) (hpermitted : Permitted s.log) {front middle back : List Event}
    {callback userData i : Nat} {now : Timespec}
    (hlog : s.log = front ++ .deleted callback userData :: (middle ++ .called i now :: back))
    {t : TimerCallbackInfo} (ht : .added t ∈ front) (hfunction : t.function = some callback)
    (hdata : t.userData = userData) : t.id ≠ i := by
  obtain ⟨e,he⟩ := entry_of_live (t := t) (by rw [TimerCallbackInfo.live,hfunction]; rfl)
  have hkey : e.key = (callback,userData) := (calls_of_entry he).mp (calls_iff.mpr ⟨hfunction,hdata⟩)
  have hadded : .added e ∈ history front := List.mem_filterMap.mpr ⟨_,ht,by rw [happening,he]; rfl⟩
  have hlawful := (h.sim hpermitted).lawful
  have hhistory : history s.log =
      history front ++ .deleted e.key :: (history middle ++ .called i (nanos now) :: history back) := by
    rw [hlog,history_append,hkey]
    change _ ++ (_ :: history (middle ++ _)) = _
    rw [history_append]
    rfl
  rw [hhistory] at hlawful
  rw [(entry_live he).2.1]
  exact hlawful.not_called hadded

theorem callCount_eq (i : Nat) (log : List Event) : callCount (· = i) log = calls i (history log) := by
  induction log with
  | nil => rfl
  | cons event log ih =>
    have hcons : ∀ log, callCount (· = i) (event :: log) = callCount (· = i) [event] + callCount (· = i) log :=
      fun log => callCount_append _ [event] log
    have hhistory : calls i (history (event :: log)) = calls i (history [event]) + calls i (history log) := by
      rw [← calls_append,← history_append]
      rfl
    have hone : callCount (· = i) [event] = calls i (history [event]) := by
      cases event with
      | added t => cases he : entry t <;> simp [callCount,Event.isCall,calls,history,happening,he]
      | deleted callback userData => rfl
      | called j now => by_cases hj : j = i <;> simp [callCount,Event.isCall,calls,history,happening,hj]
      | returned j now => rfl
      | passed now usec => rfl
    rw [hcons,hhistory,hone,ih]

theorem Permitted.once (h : Reached s) (hpermitted : Permitted s.log) {t : TimerCallbackInfo}
    (ht : .added t ∈ s.log) (hlive : t.live = true) (hsingle : ¬ 0 < nanos t.interval) :
    callCount (· = t.id) s.log ≤ 1 := by
  obtain ⟨e,he⟩ := entry_of_live hlive
  obtain ⟨_,hid,_,_,_,hinterval⟩ := entry_live he
  have hadded : .added e ∈ history s.log := List.mem_filterMap.mpr ⟨_,ht,by rw [happening,he]; rfl⟩
  rw [callCount_eq,hid]
  exact ((h.sim hpermitted).lawful.once hadded (hinterval ▸ hsingle)).1

end Operations

theorem timer_runs {s : State} (h : Reached s) :
    ((s.timers.filter TimerCallbackInfo.live).Pairwise fun t u => t.expiry ≤ u.expiry) ∧
    (Permitted s.log →
      (∀ e, e ∈ scheduled (history s.log) ↔ ∃ t ∈ s.timers, entry t = some e) ∧
      (∀ front i now back, s.log = front ++ .called i now :: back →
        ∃ e ∈ scheduled (history front), e.id = i ∧ e.expiry ≤ nanos now) ∧
      (∀ front callback userData middle i now back,
        s.log = front ++ .deleted callback userData :: (middle ++ .called i now :: back) →
        ∀ t, .added t ∈ front → t.function = some callback → t.userData = userData → t.id ≠ i) ∧
      ∀ t, .added t ∈ s.log → t.live = true → ¬ 0 < nanos t.interval → callCount (· = t.id) s.log ≤ 1) ∧
    (∀ now s', InPass s now s' → ∃ more, s'.log = s.log ++ more ∧ (∀ i, callCount (· = i) more ≤ 2) ∧
      (∀ t ∈ s.timers, t.live = true → t.expiry ≤ nanos now → Served now t more ∨ Ahead s' t) ∧
      (s'.control = .idle → ∀ t ∈ s.timers, t.live = true → t.expiry ≤ nanos now → Served now t more)) ∧
    Acc (fun s' s => Turn s s') s ∧
    (s.control.inLoop = true → ∃ s', step s .visit = .ok s') ∧
    (s.control.inCall = true →
      (∃ s', step s .comeBack = .ok s') ∨ step s .comeBack = .error (.rejected .overflow)) := by
  refine ⟨h.inv.ordered.sorted,?_,?_,h.turns,visit_ok h,comeBack_ok h⟩
  · intro hpermitted
    refine ⟨(h.sim hpermitted).same,?_,?_,?_⟩
    · intro front i now back hlog
      exact hpermitted.called_due h hlog
    · intro front callback userData middle i now back hlog t ht hfunction hdata
      exact hpermitted.not_called h hlog ht hfunction hdata
    · intro t ht hlive hsingle
      exact hpermitted.once h ht hlive hsingle
  · intro now s' hpass
    obtain ⟨_,more,hlog,_,hserved⟩ := hpass.progress h
    refine ⟨more,hlog,?_,hserved,?_⟩
    · intro i
      obtain ⟨more',hlog',htwice,_⟩ := hpass.calls_le h i
      rw [List.append_cancel_left (hlog.symm.trans hlog')]
      exact htwice
    · intro hidle t ht hlive hdue
      refine (hserved t ht hlive hdue).resolve_right ?_
      rw [Ahead,hidle]
      exact id

def earlyTimer : TimerCallbackInfo := ⟨0,some 7,seconds 3 three_representable,seconds 2 two_representable,1⟩
def laterTimer : TimerCallbackInfo := ⟨1,some 7,seconds 4 four_representable,seconds 3 three_representable,2⟩

def twoTimers : State :=
  ⟨[earlyTimer,laterTimer],2,.idle,seconds 1 (by decide),[.added earlyTimer,.added laterTimer]⟩

theorem twoTimers_reached : Reached twoTimers := by
  have hone : Reached ⟨[earlyTimer],1,.idle,seconds 1 (by decide),[.added earlyTimer]⟩ := by
    refine (Reached.init (seconds 1 (by decide)) (by decide)).step
      (a := .addPeriodic (some (seconds 1 (by decide))) 2 (by decide) 7 1) ?_ rfl
    rintro now hnow
    obtain rfl := Option.some.inj hnow
    rfl
  refine hone.step (a := .addPeriodic (some (seconds 1 (by decide))) 3 (by decide) 7 2) ?_ rfl
  rintro now hnow
  obtain rfl := Option.some.inj hnow
  rfl

def threeSeconds : Timespec := seconds 3 three_representable

def passedTimers : State :=
  ⟨[laterTimer,{ earlyTimer with expiresAt := seconds 5 (by decide) }],2,.idle,threeSeconds,
    twoTimers.log ++ [.called 0 threeSeconds,.returned 0 threeSeconds,.passed threeSeconds 1000000]⟩

theorem passedTimers_inPass : InPass twoTimers threeSeconds passedTimers := by
  have hexecute : InPass twoTimers threeSeconds
      { twoTimers with control := .walking threeSeconds (some 0), clock := threeSeconds } :=
    .began rfl rfl
  have hvisit := hexecute.step (a := .visit) (by decide) trivial rfl
  have hreturn := hvisit.step (a := .comeBack) (by decide) trivial rfl
  exact hreturn.step (a := .visit) (by decide) trivial rfl

-- A pass at three seconds calls the first timer and puts it behind the other one.
theorem timer_runs_two :
    InPass twoTimers threeSeconds passedTimers ∧
    ((passedTimers.timers.filter TimerCallbackInfo.live).Pairwise fun t u => t.expiry ≤ u.expiry) ∧
    (∀ e, e ∈ scheduled (history twoTimers.log) ↔ ∃ t ∈ twoTimers.timers, entry t = some e) ∧
    ∃ more, passedTimers.log = twoTimers.log ++ more ∧ (∀ i, callCount (· = i) more ≤ 2) ∧
      Served threeSeconds earlyTimer more := by
  have hpermitted : Permitted twoTimers.log := by
    intro front callback userData back hlog
    have hmem : Event.deleted callback userData ∈ twoTimers.log := by rw [hlog]; simp
    simp [twoTimers] at hmem
  obtain ⟨_,hruns,hpasses,_⟩ := timer_runs twoTimers_reached
  obtain ⟨hsorted,_⟩ := timer_runs (passedTimers_inPass.reached twoTimers_reached)
  obtain ⟨more,hlog,htwice,_,hserved⟩ := hpasses threeSeconds passedTimers passedTimers_inPass
  have hdue : earlyTimer.expiry ≤ nanos threeSeconds := by decide
  exact ⟨passedTimers_inPass,hsorted,(hruns hpermitted).1,more,hlog,htwice,
    hserved rfl earlyTimer (by simp [twoTimers]) rfl hdue⟩

end Trema.Timer
