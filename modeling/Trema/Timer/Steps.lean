import Trema.Timer.Order

namespace Trema.Timer

open Library

section Places

variable {timers front back : List TimerCallbackInfo} {t : TimerCallbackInfo} {i : Nat}

theorem lookup_mem (h : lookup i timers = .ok t) : t ∈ timers ∧ t.id = i := by
  unfold lookup at h
  cases hfind : timers.find? (·.id = i) with
  | none =>
    rw [hfind] at h
    cases h
  | some u =>
    rw [hfind] at h
    obtain rfl := Except.ok.inj h
    exact ⟨List.mem_of_find?_eq_some hfind,by simpa using List.find?_some hfind⟩

theorem eq_of_id (hnodup : (ids timers).Nodup) {u : TimerCallbackInfo} (ht : t ∈ timers) (hu : u ∈ timers)
    (hid : t.id = u.id) : t = u := List.inj_on_of_nodup_map hnodup ht hu hid

theorem lookup_ok (hnodup : (ids timers).Nodup) (ht : t ∈ timers) : lookup t.id timers = .ok t := by
  unfold lookup
  cases hfind : timers.find? (·.id = t.id) with
  | none =>
    have hno := List.find?_eq_none.mp hfind t ht
    simp at hno
  | some u =>
    have hu := List.find?_some hfind
    rw [eq_of_id hnodup (List.mem_of_find?_eq_some hfind) ht (by simpa using hu)]

theorem elementNext_split (hnodup : (ids (front ++ t :: back)).Nodup) :
    elementNext t.id (front ++ t :: back) = back.head?.map TimerCallbackInfo.id := by
  have hfront : ∀ u ∈ front, u.id ≠ t.id := by
    intro u hu heq
    rw [ids,List.map_append,List.nodup_append] at hnodup
    exact hnodup.2.2 _ (List.mem_map_of_mem hu) _ (List.mem_map_of_mem List.mem_cons_self) heq
  have hdrop : (front ++ t :: back).dropWhile (·.id ≠ t.id) = t :: back := by
    rw [List.dropWhile_append_of_pos fun u hu => by simpa using hfront u hu,List.dropWhile_cons_of_neg (by simp)]
  rw [elementNext,hdrop,List.tail_cons]

theorem delete_other (h : i ∉ ids timers) : deleteDlistElement i timers = timers := by
  refine List.filter_eq_self.mpr fun t ht => ?_
  have hne : t.id ≠ i := fun heq => h (heq ▸ List.mem_map_of_mem ht)
  simpa using hne

theorem delete_append (i : Nat) (front back : List TimerCallbackInfo) :
    deleteDlistElement i (front ++ back) = deleteDlistElement i front ++ deleteDlistElement i back :=
  List.filter_append _ _

theorem ids_append (front back : List TimerCallbackInfo) : ids (front ++ back) = ids front ++ ids back :=
  List.map_append

theorem delete_front (hnodup : (ids (front ++ back)).Nodup) (h : i ∈ ids front) :
    deleteDlistElement i (front ++ back) = deleteDlistElement i front ++ back := by
  rw [ids_append,List.nodup_append] at hnodup
  rw [delete_append,delete_other fun hi => hnodup.2.2 i h i hi rfl]

theorem delete_here (hnodup : (ids (front ++ t :: back)).Nodup) :
    deleteDlistElement t.id (front ++ t :: back) = front ++ back := by
  rw [ids_append,List.nodup_append] at hnodup
  obtain ⟨_,hback,hcross⟩ := hnodup
  have hfront : t.id ∉ ids front := fun h => hcross _ h _ List.mem_cons_self rfl
  have hrest : t.id ∉ ids back := (List.nodup_cons.mp hback).1
  rw [delete_append,delete_other hfront,deleteDlistElement,List.filter_cons_of_neg (by simp),← deleteDlistElement,
    delete_other hrest]

-- The element that the loop is at heads the rest of the list.
theorem back_of_head (hnodup : (ids (front ++ back)).Nodup) (ht : t ∈ front ++ back)
    (hhead : back.head?.map TimerCallbackInfo.id = some t.id) : ∃ rest, back = t :: rest := by
  cases back with
  | nil => cases hhead
  | cons u rest =>
    have hid : u.id = t.id := Option.some.inj hhead
    exact ⟨rest,by rw [eq_of_id hnodup (List.mem_append_right _ List.mem_cons_self) ht hid]⟩

theorem back_of_split {front' back' : List TimerCallbackInfo} (hnodup : (ids (front ++ back)).Nodup)
    (hsplit : front ++ back = front' ++ back')
    (hhead : back.head?.map TimerCallbackInfo.id = back'.head?.map TimerCallbackInfo.id) : back = back' := by
  cases back with
  | nil =>
    cases back' with
    | nil => rfl
    | cons u back' => cases hhead
  | cons t back =>
    cases back' with
    | nil => cases hhead
    | cons u back' =>
      have hid : t.id = u.id := Option.some.inj hhead
      have htu : t = u := eq_of_id hnodup (by simp) (by rw [hsplit]; simp) hid
      subst htu
      rw [hsplit] at hnodup
      rcases List.append_eq_append_iff.mp hsplit with ⟨more,_,hmore⟩ | ⟨more,hfront,hmore⟩
      · cases more with
        | nil => exact hmore
        | cons x more =>
          obtain ⟨rfl,rfl⟩ := List.cons.inj hmore
          rw [← hsplit,ids_append,List.nodup_append] at hnodup
          have hhere := hnodup.2.1
          simp [ids] at hhere
      · cases more with
        | nil => exact hmore.symm
        | cons x more =>
          obtain ⟨rfl,rfl⟩ := List.cons.inj hmore
          rw [ids_append,List.nodup_append] at hnodup
          have hhere := hnodup.2.1
          simp [ids] at hhere

theorem insert_front_back (new : TimerCallbackInfo) (front back : List TimerCallbackInfo) :
    ∃ front' back', insertTimerCallback new (front ++ back) = front' ++ back' ∧
      back'.head?.map TimerCallbackInfo.id = back.head?.map TimerCallbackInfo.id ∧
      (∀ t ∈ front', t = new ∨ t ∈ front) ∧ front ⊆ front' ∧ back ⊆ back' := by
  obtain ⟨before,after,hsplit,hinsert,_⟩ := insert_split new (front ++ back)
  rcases List.append_eq_append_iff.mp hsplit with ⟨more,rfl,rfl⟩ | ⟨more,rfl,rfl⟩
  · cases more with
    | nil =>
      refine ⟨front ++ [new],after,by rw [hinsert]; simp,rfl,?_,by simp,by simp⟩
      intro t ht
      rcases List.mem_append.mp ht with ht | ht
      · exact .inr ht
      · exact .inl (List.mem_singleton.mp ht)
    | cons u more =>
      refine ⟨front,u :: (more ++ new :: after),by rw [hinsert]; simp,rfl,fun t ht => .inr ht,
        fun _ ht => ht,?_⟩
      intro t ht
      simp only [List.cons_append,List.mem_cons,List.mem_append] at ht ⊢
      tauto
  · refine ⟨before ++ new :: more,back,by rw [hinsert]; simp,rfl,?_,?_,fun _ ht => ht⟩
    · intro t ht
      simp only [List.mem_append,List.mem_cons] at ht ⊢
      tauto
    · intro t ht
      simp only [List.mem_append,List.mem_cons] at ht ⊢
      tauto

end Places

def Control.outside : Control → Bool
  | .walking _ _ => false
  | _ => true

-- What one step can do.
inductive Change (s : State) : State → Prop
  | read (clock : Timespec) (hcontrol : s.control.outside = true) (hclock : nanos s.clock ≤ nanos clock) :
      Change s { s with clock := clock }
  | inserted (now : Timespec) (new : TimerCallbackInfo) (hcontrol : s.control.outside = true)
      (hclock : nanos s.clock ≤ nanos now) (hid : new.id = s.nextId) (hlive : new.live = true)
      (hperiod : 0 ≤ new.interval.tvSec) (hlater : nanos now < new.expiry) : Change s (s.insertNew now new)
  | deleted (callback userData : Nat) (hcontrol : s.control.outside = true) :
      Change s (deleteTimerEvent callback userData s).2
  | began (now : Timespec) (hcontrol : s.control = .idle) (hclock : nanos s.clock ≤ nanos now) :
      Change s { s with
        control := .walking now (s.timers.head?.map TimerCallbackInfo.id)
        clock := now }
  | ended (now : Timespec) (element : Option Nat) (usec : Int) (hcontrol : s.control = .walking now element)
      (hend : ∀ i, element = some i →
        ∃ t, lookup i s.timers = .ok t ∧ t.live = true ∧ nanos now < t.expiry)
      (husec : nextTimeout now s.timers = .ok usec) :
      Change s { s with control := .idle, log := s.log ++ [.passed now usec] }
  | dropped (now : Timespec) (t : TimerCallbackInfo) (hcontrol : s.control = .walking now (some t.id))
      (ht : lookup t.id s.timers = .ok t) (hdead : t.live = false) :
      Change s { s with
        timers := deleteDlistElement t.id s.timers
        control := .walking now (elementNext t.id s.timers) }
  | called (now : Timespec) (t : TimerCallbackInfo) (hcontrol : s.control = .walking now (some t.id))
      (ht : lookup t.id s.timers = .ok t) (hlive : t.live = true) (hdue : t.expiry ≤ nanos now) :
      Change s { s with
        control := .calling now t.id (elementNext t.id s.timers)
        log := s.log ++ [.called t.id now] }
  | returned (now : Timespec) (next : Option Nat) (t t' : TimerCallbackInfo)
      (hcontrol : s.control = .calling now t.id next) (ht : lookup t.id s.timers = .ok t)
      (hafter : afterCall now t = .ok t') :
      Change s { s with
        timers := moveOn t' s.timers
        control := .walking now next
        log := s.log ++ [.returned t.id now] }

-- The list is split where the loop goes on; what it has left behind is not due before the clock of the pass.
def Placed (s : State) : Prop :=
  match s.control with
  | .idle => True
  | .walking now element => 0 ≤ nanos now ∧ nanos now ≤ nanos s.clock ∧
      ∃ front back, s.timers = front ++ back ∧ back.head?.map TimerCallbackInfo.id = element ∧
        ∀ t ∈ front, t.live = true → nanos now ≤ t.expiry
  | .calling now i next => 0 ≤ nanos now ∧ nanos now ≤ nanos s.clock ∧
      ∃ front back, s.timers = front ++ back ∧ back.head?.map TimerCallbackInfo.id = next ∧ i ∈ ids front ∧
        ∀ t ∈ front, t.live = true → if t.id = i then t.expiry ≤ nanos now else nanos now ≤ t.expiry

structure Inv (s : State) : Prop where
  ordered : Ordered s.timers
  fresh : ∀ t ∈ s.timers, t.id < s.nextId
  clock : 0 ≤ nanos s.clock
  placed : Placed s

section Inversion

variable {s s' : State}

theorem add_cases {reading : Option Timespec} {interval value : Timespec} {callback userData : Nat} {r : Bool}
    (hinterval : 0 ≤ interval.tvSec) (hvalue : 0 ≤ value.tvSec)
    (h : addTimerEventCallback reading interval value callback userData s = .ok (r,s')) :
    s' = s ∨ ∃ now, reading = some now ∧ (s' = { s with clock := now } ∨
      ∃ new, s' = s.insertNew now new ∧ new.id = s.nextId ∧ new.live = true ∧ 0 ≤ new.interval.tvSec ∧
        nanos now < new.expiry) := by
  cases reading with
  | none =>
    obtain ⟨rfl,rfl⟩ := Prod.mk.inj (Except.ok.inj h)
    exact .inl rfl
  | some now =>
    refine .inr ⟨now,rfl,?_⟩
    simp only [addTimerEventCallback] at h
    split at h
    · rename_i hvalid
      obtain ⟨expiresAt,hadd,hpair⟩ := bind_eq_ok.mp h
      obtain ⟨rfl,rfl⟩ := Prod.mk.inj (Except.ok.inj hpair)
      have hpos := (valid_iff hvalue).mp hvalid
      have hsum := add_nanos hadd
      refine .inr ⟨_,rfl,rfl,rfl,hinterval,?_⟩
      simp only [TimerCallbackInfo.expiry]
      omega
    · split at h
      · rename_i hvalid
        obtain ⟨expiresAt,hadd,hpair⟩ := bind_eq_ok.mp h
        obtain ⟨rfl,rfl⟩ := Prod.mk.inj (Except.ok.inj hpair)
        have hpos := (valid_iff hinterval).mp hvalid
        have hsum := add_nanos hadd
        refine .inr ⟨_,rfl,rfl,rfl,hinterval,?_⟩
        simp only [TimerCallbackInfo.expiry]
        omega
      · obtain ⟨rfl,rfl⟩ := Prod.mk.inj (Except.ok.inj h)
        exact .inl rfl

-- A negative number of seconds is refused like zero.
theorem addPeriodic_cases {reading : Option Timespec} {sec : Int} {hsec : timeMin ≤ sec ∧ sec ≤ timeMax}
    {callback userData : Nat} {r : Bool}
    (h : addPeriodicEventCallback reading sec hsec callback userData s = .ok (r,s')) :
    s' = s ∨ ∃ now, reading = some now ∧ (s' = { s with clock := now } ∨
      ∃ new, s' = s.insertNew now new ∧ new.id = s.nextId ∧ new.live = true ∧ 0 ≤ new.interval.tvSec ∧
        nanos now < new.expiry) := by
  by_cases hnonneg : 0 ≤ sec
  · exact add_cases hnonneg (le_refl _) h
  · cases reading with
    | none =>
      obtain ⟨rfl,rfl⟩ := Prod.mk.inj (Except.ok.inj h)
      exact .inl rfl
    | some now =>
      have hzero : validTimespec zero = false := by decide
      have hinvalid : validTimespec (seconds sec hsec) = false := by
        rw [← Bool.not_eq_true,validTimespec,Bool.or_eq_true,decide_eq_true_eq,decide_eq_true_eq]
        simp only [seconds]
        omega
      simp only [addPeriodicEventCallback,addTimerEventCallback,hzero,hinvalid,Bool.false_eq_true,if_false] at h
      obtain ⟨rfl,rfl⟩ := Prod.mk.inj (Except.ok.inj h)
      exact .inr ⟨now,rfl,.inl rfl⟩

theorem visit_change {now : Timespec} {element : Option Nat} (hs : Inv s)
    (hcontrol : s.control = .walking now element) (h : visit now element s = .ok s') : Change s s' := by
  cases element with
  | none =>
    obtain ⟨usec,husec,hpair⟩ := bind_eq_ok.mp h
    obtain rfl := Except.ok.inj hpair
    exact .ended now none usec hcontrol (fun i hi => by cases hi) husec
  | some i =>
    obtain ⟨t,ht,hrest⟩ := bind_eq_ok.mp h
    obtain ⟨hmem,rfl⟩ := lookup_mem ht
    simp only at hrest
    split at hrest
    · rename_i hlive
      split at hrest
      · rename_i hless
        obtain ⟨usec,husec,hpair⟩ := bind_eq_ok.mp hrest
        obtain rfl := Except.ok.inj hpair
        refine .ended now _ usec hcontrol ?_ husec
        rintro i hi
        obtain rfl := Option.some.inj hi
        exact ⟨t,ht,hlive,lessThen_iff.mp hless⟩
      · rename_i hless
        have hpos := hs.ordered.positive t hmem hlive
        have hvalid : validTimespec t.expiresAt = true :=
          (valid_iff (tvSec_nonneg (le_of_lt hpos))).mpr hpos
        rw [if_pos hvalid] at hrest
        obtain rfl := Except.ok.inj hrest
        exact .called now t hcontrol ht hlive (not_lessThen_iff.mp (Bool.not_eq_true _ ▸ hless))
    · rename_i hdead
      have hfalse : t.live = false := Bool.not_eq_true _ ▸ hdead
      have hmove : moveOn t s.timers = deleteDlistElement t.id s.timers := by
        rw [moveOn,if_neg hdead]
      rw [hmove] at hrest
      obtain rfl := Except.ok.inj hrest
      exact .dropped now t hcontrol ht hfalse

-- Adding a timer, from what its call can come to.
theorem change_of_add {reading : Option Timespec} (hcontrol : s.control.outside = true)
    (hclock : ∀ now, reading = some now → timespecLessThen now s.clock = false)
    (h : s' = s ∨ ∃ now, reading = some now ∧ (s' = { s with clock := now } ∨
      ∃ new, s' = s.insertNew now new ∧ new.id = s.nextId ∧ new.live = true ∧ 0 ≤ new.interval.tvSec ∧
        nanos now < new.expiry)) : Change s s' := by
  rcases h with rfl | ⟨now,hnow,rfl | ⟨new,rfl,hid,hlive,hperiod,hlater⟩⟩
  · exact .read s'.clock hcontrol (le_refl _)
  · exact .read now hcontrol (not_lessThen_iff.mp (hclock now hnow))
  · exact .inserted now new hcontrol (not_lessThen_iff.mp (hclock now hnow)) hid hlive hperiod hlater

theorem useTimers_change {a : Action} (hcontrol : s.control.outside = true) (htimely : a.Timely s.clock)
    (h : useTimers a s = .ok s') : Change s s' := by
  cases a with
  | add reading interval value callback userData =>
    obtain ⟨hclock,hinterval,hvalue⟩ := htimely
    obtain ⟨⟨r,after⟩,hadd,hpair⟩ := bind_eq_ok.mp h
    obtain rfl := Except.ok.inj hpair
    exact change_of_add hcontrol hclock (add_cases hinterval hvalue hadd)
  | addPeriodic reading sec hsec callback userData =>
    obtain ⟨⟨r,after⟩,hadd,hpair⟩ := bind_eq_ok.mp h
    obtain rfl := Except.ok.inj hpair
    exact change_of_add hcontrol htimely (addPeriodic_cases hadd)
  | delete callback userData =>
    obtain rfl := Except.ok.inj h
    exact .deleted callback userData hcontrol
  | execute now => cases h
  | visit => cases h
  | comeBack => cases h

theorem step_change {a : Action} (hs : Inv s) (htimely : a.Timely s.clock) (h : step s a = .ok s') :
    Change s s' := by
  unfold step at h
  split at h
  · rename_i now hcontrol
    obtain rfl := Except.ok.inj h
    exact .began now hcontrol (not_lessThen_iff.mp htimely)
  · rename_i now element hcontrol
    exact visit_change hs hcontrol h
  · rename_i now i next hcontrol
    obtain ⟨t,ht,hrest⟩ := bind_eq_ok.mp h
    obtain ⟨t',hafter,hpair⟩ := bind_eq_ok.mp hrest
    obtain rfl := Except.ok.inj hpair
    obtain ⟨_,rfl⟩ := lookup_mem ht
    exact .returned now next t t' hcontrol ht hafter
  · cases h
  · rename_i hwalking _ _ _
    refine useTimers_change ?_ htimely h
    cases hcontrol : s.control with
    | idle => rfl
    | walking now element => exact absurd hcontrol (hwalking now element)
    | calling now i next => rfl

end Inversion

section Keeping

variable {s s' : State} {now : Timespec} {t t' : TimerCallbackInfo}

-- A timer after its function: due again no earlier than now and no earlier than a period later, or gone.
theorem afterCall_cases (h : afterCall now t = .ok t') : t'.id = t.id ∧
    (0 ≤ t.interval.tvSec → t'.interval = t.interval ∧ t'.function = t.function ∧ t'.userData = t.userData ∧
        0 < nanos t.interval ∧ t'.expiry = max (t.expiry + nanos t.interval) (nanos now) ∨
      t'.live = false ∧ ¬ 0 < nanos t.interval) := by
  unfold afterCall at h
  split at h
  · rename_i hvalid
    obtain ⟨expiresAt,hadd,hpair⟩ := bind_eq_ok.mp h
    obtain rfl := Except.ok.inj hpair
    refine ⟨rfl,fun hperiod => .inl ⟨rfl,rfl,rfl,(valid_iff hperiod).mp hvalid,?_⟩⟩
    have hsum := add_nanos hadd
    simp only [TimerCallbackInfo.expiry]
    cases hless : timespecLessThen expiresAt now with
    | true =>
      have hlt := lessThen_iff.mp hless
      rw [if_pos rfl]
      omega
    | false =>
      have hge := not_lessThen_iff.mp hless
      rw [if_neg (by decide)]
      omega
  · rename_i hvalid
    obtain rfl := Except.ok.inj h
    exact ⟨rfl,fun hperiod => .inr ⟨rfl,fun hpos => hvalid ((valid_iff hperiod).mpr hpos)⟩⟩

theorem Inv.insertNew (h : Inv s) {new : TimerCallbackInfo} (hcontrol : s.control.outside = true)
    (hclock : nanos s.clock ≤ nanos now) (hid : new.id = s.nextId) (hlive : new.live = true)
    (hperiod : 0 ≤ new.interval.tvSec) (hlater : nanos now < new.expiry) : Inv (s.insertNew now new) where
  ordered := by
    refine h.ordered.insert hlive ?_ ?_ hperiod
    · intro hmem
      obtain ⟨t,ht,heq⟩ := List.mem_map.mp hmem
      have hlt := h.fresh t ht
      omega
    · have hzero := h.clock
      omega
  fresh t ht := by
    rcases mem_insert.mp ht with rfl | ht
    · exact hid ▸ Nat.lt_succ_self _
    · exact Nat.lt_succ_of_lt (h.fresh t ht)
  clock := h.clock.trans hclock
  placed := by
    have hplaced := h.placed
    unfold Placed at hplaced ⊢
    simp only [State.insertNew]
    cases hc : s.control with
    | idle => trivial
    | walking now element =>
      rw [hc] at hcontrol
      cases hcontrol
    | calling pass i next =>
      rw [hc] at hplaced
      obtain ⟨hpos,hle,front,back,hsplit,hnext,hi,hdue⟩ := hplaced
      obtain ⟨front',back',hinsert,hnext',hmem,hfront,_⟩ := insert_front_back new front back
      refine ⟨hpos,hle.trans hclock,front',back',by rw [hsplit,hinsert],hnext'.trans hnext,?_,?_⟩
      · obtain ⟨t,ht,rfl⟩ := List.mem_map.mp hi
        exact List.mem_map_of_mem (hfront ht)
      · intro t ht hlive'
        rcases hmem t ht with rfl | ht
        · have hne : t.id ≠ i := by
            obtain ⟨u,hu,rfl⟩ := List.mem_map.mp hi
            have hlt := h.fresh u (hsplit ▸ List.mem_append_left _ hu)
            omega
          rw [if_neg hne]
          omega
        · exact hdue t ht hlive'

theorem Inv.deleteTimerEvent (h : Inv s) (callback userData : Nat) (hcontrol : s.control.outside = true) :
    Inv (deleteTimerEvent callback userData s).2 := by
  unfold Timer.deleteTimerEvent
  cases hfind : s.timers.find? (·.calls callback userData) with
  | none => exact ⟨h.ordered,h.fresh,h.clock,h.placed⟩
  | some u =>
    refine ⟨h.ordered.clear u.id,?_,h.clock,?_⟩
    · intro t ht
      rcases mem_update_cleared ht with ⟨ht,_⟩ | ⟨v,hv,_,rfl⟩
      · exact h.fresh t ht
      · exact h.fresh v hv
    · have hplaced := h.placed
      unfold Placed at hplaced ⊢
      simp only
      cases hc : s.control with
      | idle => trivial
      | walking now element =>
        rw [hc] at hcontrol
        cases hcontrol
      | calling pass i next =>
        rw [hc] at hplaced
        obtain ⟨hpos,hle,front,back,hsplit,hnext,hi,hdue⟩ := hplaced
        refine ⟨hpos,hle,update u.id TimerCallbackInfo.cleared front,update u.id TimerCallbackInfo.cleared back,
          by rw [hsplit,update,List.map_append]; rfl,?_,?_,?_⟩
        · have hids := congrArg List.head? (ids_update_cleared u.id back)
          rw [ids,ids,List.head?_map,List.head?_map] at hids
          exact hids.trans hnext
        · rw [ids_update_cleared]
          exact hi
        · intro t ht hlive
          rcases mem_update_cleared ht with ⟨ht,_⟩ | ⟨v,_,_,rfl⟩
          · exact hdue t ht hlive
          · cases hlive

theorem Change.inv (h : Inv s) (hchange : Change s s') : Inv s' := by
  cases hchange with
  | read clock hcontrol hclock =>
    refine ⟨h.ordered,h.fresh,h.clock.trans hclock,?_⟩
    have hplaced := h.placed
    unfold Placed at hplaced ⊢
    simp only
    cases hc : s.control with
    | idle => trivial
    | walking now element =>
      rw [hc] at hcontrol
      cases hcontrol
    | calling now i next =>
      rw [hc] at hplaced
      exact ⟨hplaced.1,hplaced.2.1.trans hclock,hplaced.2.2⟩
  | inserted now new hcontrol hclock hid hlive hperiod hlater =>
    exact h.insertNew hcontrol hclock hid hlive hperiod hlater
  | deleted callback userData hcontrol => exact h.deleteTimerEvent callback userData hcontrol
  | began now hcontrol hclock =>
    exact ⟨h.ordered,h.fresh,h.clock.trans hclock,h.clock.trans hclock,le_refl _,[],s.timers,rfl,rfl,by simp⟩
  | ended now element usec hcontrol hend husec => exact ⟨h.ordered,h.fresh,h.clock,trivial⟩
  | dropped now t hcontrol ht hdead =>
    have hplaced := h.placed
    simp only [Placed,hcontrol] at hplaced
    obtain ⟨hpos,hle,front,back,hsplit,hhead,hdue⟩ := hplaced
    have hnodup := hsplit ▸ h.ordered.nodup
    obtain ⟨rest,rfl⟩ := back_of_head hnodup (hsplit ▸ (lookup_mem ht).1) hhead
    refine ⟨h.ordered.delete t.id,fun u hu => h.fresh u (mem_delete.mp hu).1,h.clock,hpos,hle,front,rest,?_,?_,hdue⟩
    · rw [hsplit,delete_here hnodup]
    · rw [hsplit,elementNext_split hnodup]
  | called now t hcontrol ht hlive hdue =>
    have hplaced := h.placed
    simp only [Placed,hcontrol] at hplaced
    obtain ⟨hpos,hle,front,back,hsplit,hhead,hfront⟩ := hplaced
    have hnodup := hsplit ▸ h.ordered.nodup
    obtain ⟨rest,rfl⟩ := back_of_head hnodup (hsplit ▸ (lookup_mem ht).1) hhead
    refine ⟨h.ordered,h.fresh,h.clock,hpos,hle,front ++ [t],rest,by rw [hsplit]; simp,?_,?_,?_⟩
    · rw [hsplit,elementNext_split hnodup]
    · rw [ids_append]
      exact List.mem_append_right _ List.mem_cons_self
    · intro u hu hulive
      rcases List.mem_append.mp hu with hu | hu
      · rw [ids_append,List.nodup_append] at hnodup
        have hne : u.id ≠ t.id :=
          fun heq => hnodup.2.2 _ (List.mem_map_of_mem hu) _ List.mem_cons_self heq
        rw [if_neg hne]
        exact hfront u hu hulive
      · obtain rfl := List.mem_singleton.mp hu
        rw [if_pos rfl]
        exact hdue
  | returned now next t t' hcontrol ht hafter =>
    have hplaced := h.placed
    simp only [Placed,hcontrol] at hplaced
    obtain ⟨hpos,hle,front,back,hsplit,hnext,hi,hfront⟩ := hplaced
    obtain ⟨hmem,_⟩ := lookup_mem ht
    obtain ⟨hid,hcases⟩ := afterCall_cases hafter
    have hperiod := h.ordered.periods t hmem
    have hnodup := hsplit ▸ h.ordered.nodup
    have hrest : deleteDlistElement t'.id s.timers = deleteDlistElement t.id front ++ back := by
      rw [hid,hsplit,delete_front hnodup hi]
    have hlater : ∀ u ∈ deleteDlistElement t.id front, u.live = true → nanos now ≤ u.expiry := by
      intro u hu hulive
      obtain ⟨hu,hne⟩ := mem_delete.mp hu
      have hexpiry := hfront u hu hulive
      rw [if_neg hne] at hexpiry
      exact hexpiry
    simp only [moveOn]
    split
    · rename_i hlive
      rcases hcases hperiod with ⟨hinterval,_,_,hposint,hexpiry⟩ | ⟨hdead,_⟩
      · have hgone : t'.id ∉ ids (deleteDlistElement t'.id s.timers) := by
          intro hmem'
          obtain ⟨u,hu,heq⟩ := List.mem_map.mp hmem'
          exact (mem_delete.mp hu).2 heq
        have hbound : nanos now ≤ t'.expiry := by rw [hexpiry]; exact le_max_right _ _
        obtain ⟨front',back',hinsert,hnext',hmem',_,_⟩ :=
          insert_front_back t' (deleteDlistElement t.id front) back
        refine ⟨(h.ordered.delete t'.id).insert hlive hgone ?_ (hinterval ▸ hperiod),?_,h.clock,hpos,hle,front',
          back',by rw [hrest,hinsert],hnext'.trans hnext,?_⟩
        · have hold : 0 ≤ t.expiry := by
            cases htlive : t.live with
            | true => exact (h.ordered.positive t hmem htlive).le
            | false => exact (h.ordered.cleared t hmem htlive).ge
          omega
        · intro u hu
          rcases mem_insert.mp hu with rfl | hu
          · rw [hid]
            exact h.fresh t hmem
          · exact h.fresh u (mem_delete.mp hu).1
        · intro u hu hulive
          rcases hmem' u hu with rfl | hu
          · exact hbound
          · exact hlater u hu hulive
      · rw [hlive] at hdead
        cases hdead
    · refine ⟨h.ordered.delete t'.id,fun u hu => h.fresh u (mem_delete.mp hu).1,h.clock,hpos,hle,_,back,hrest,hnext,
        hlater⟩

theorem Reached.inv (h : Reached s) : Inv s := by
  induction h with
  | init clock h =>
    exact ⟨⟨.nil,.nil,by simp [initTimer],by simp [initTimer],by simp [initTimer]⟩,by simp [initTimer],nanos_nonneg h,
      trivial⟩
  | step _ htimely hstep ih => exact (step_change ih htimely hstep).inv ih

end Keeping

end Trema.Timer
