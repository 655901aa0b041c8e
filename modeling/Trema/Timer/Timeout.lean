import Trema.Timer.Steps

namespace Trema.Timer

open Library

-- Microseconds from now to the expiry, rounded up.
def usecUntil (now : Timespec) (t : TimerCallbackInfo) : Int := (t.expiry - nanos now + 999) / 1000

section Value

variable {s s' : State} {now : Timespec} {timers : List TimerCallbackInfo} {t : TimerCallbackInfo}

theorem maxTimeout_nanos : nanos maxTimeout = 2147000000000 := rfl

theorem nextTimeout_nil (now : Timespec) : nextTimeout now [] = .ok 2147000000 :=
  microseconds_ok (a := maxTimeout) (by rw [maxTimeout_nanos]; omega) (by rw [maxTimeout_nanos])

theorem nextTimeout_late (h : t.expiry < nanos now) : nextTimeout now (t :: timers) = .ok 0 := by
  rw [nextTimeout,if_pos (lessThen_iff.mpr h)]
  exact microseconds_ok (a := zero) (le_of_eq nanos_zero.symm) (by rw [nanos_zero]; omega)

theorem nextTimeout_cons (hnow : 0 ≤ nanos now) (h : nanos now ≤ t.expiry) :
    nextTimeout now (t :: timers) = .ok (min (usecUntil now t) 2147000000) := by
  have hnot : ¬ timespecLessThen t.expiresAt now = true := by
    rw [lessThen_iff]
    exact not_lt.mpr h
  obtain ⟨timeout,hsub,hnanos⟩ := sub_nanos hnow h
  have hdiff : nanos timeout = t.expiry - nanos now := hnanos
  simp only [nextTimeout,if_neg hnot,hsub,ok_bind]
  split
  · rename_i hless
    have hlt := lessThen_iff.mp hless
    rw [maxTimeout_nanos] at hlt
    rw [microseconds_ok (by omega) (by omega),hdiff,usecUntil]
    have hcap : (t.expiry - nanos now + 999) / 1000 ≤ 2147000000 := by omega
    rw [min_eq_left hcap]
  · rename_i hless
    have hge := not_lessThen_iff.mp (Bool.not_eq_true _ ▸ hless)
    rw [maxTimeout_nanos] at hge
    have hcap : 2147000000 ≤ usecUntil now t := by
      unfold usecUntil
      omega
    rw [min_eq_right hcap]
    exact nextTimeout_nil now

theorem nextTimeout_ok (hnow : 0 ≤ nanos now) (timers : List TimerCallbackInfo) :
    ∃ usec, nextTimeout now timers = .ok usec := by
  cases timers with
  | nil => exact ⟨_,nextTimeout_nil _⟩
  | cons t timers =>
    rcases lt_or_ge t.expiry (nanos now) with hlate | hlater
    · exact ⟨_,nextTimeout_late hlate⟩
    · exact ⟨_,nextTimeout_cons hnow hlater⟩

theorem Ordered.first (h : Ordered (t :: timers)) (ht : t.live = true) :
    ∀ u ∈ t :: timers, u.live = true → t.expiry ≤ u.expiry := by
  have hsorted := h.sorted
  rw [List.filter_cons_of_pos ht] at hsorted
  intro u hu hlive
  rcases List.mem_cons.mp hu with rfl | hu
  · exact le_rfl
  · exact (List.pairwise_cons.mp hsorted).1 u (List.mem_filter.mpr ⟨hu,hlive⟩)

-- Where the loop ends, no live timer is due before the clock of the pass.
theorem Inv.nothing_due (h : Inv s) {element : Option Nat} (hcontrol : s.control = .walking now element)
    (hend : ∀ i, element = some i → ∃ t, lookup i s.timers = .ok t ∧ t.live = true ∧ nanos now < t.expiry) :
    ∀ t ∈ s.timers, t.live = true → nanos now ≤ t.expiry := by
  have hplaced := h.placed
  simp only [Placed,hcontrol] at hplaced
  obtain ⟨_,_,front,back,hsplit,hhead,hfront⟩ := hplaced
  intro t ht hlive
  rw [hsplit] at ht
  rcases List.mem_append.mp ht with ht | ht
  · exact hfront t ht hlive
  · cases back with
    | nil => cases ht
    | cons u back =>
      obtain ⟨v,hv,hvlive,hvlater⟩ := hend u.id hhead.symm
      obtain ⟨hvmem,hvid⟩ := lookup_mem hv
      have huv : v = u := eq_of_id h.ordered.nodup hvmem (hsplit ▸ by simp) hvid
      subst huv
      have hback : Ordered (v :: back) :=
        (hsplit ▸ h.ordered : Ordered (front ++ v :: back)).sublist (List.sublist_append_right _ _)
      exact hvlater.le.trans (hback.first hvlive t ht hlive)

-- A step from the loop to the outside ends the pass.
theorem ended_of_step {a : Action} {element : Option Nat} (h : Inv s) (htimely : a.Timely s.clock)
    (hcontrol : s.control = .walking now element) (hstep : step s a = .ok s') (hidle : s'.control = .idle) :
    ∃ usec, s' = { s with control := .idle, log := s.log ++ [.passed now usec] } ∧
      nextTimeout now s.timers = .ok usec ∧
      ∀ i, element = some i → ∃ t, lookup i s.timers = .ok t ∧ t.live = true ∧ nanos now < t.expiry := by
  cases step_change h htimely hstep with
  | read clock houtside => rw [hcontrol] at houtside; cases houtside
  | inserted now' new houtside => rw [hcontrol] at houtside; cases houtside
  | deleted callback userData houtside => rw [hcontrol] at houtside; cases houtside
  | began now' hbegan => rw [hcontrol] at hbegan; cases hbegan
  | ended now' element' usec hended hend husec =>
    rw [hcontrol] at hended
    obtain ⟨rfl,rfl⟩ := Control.walking.inj hended
    exact ⟨usec,rfl,husec,hend⟩
  | dropped => cases hidle
  | called => cases hidle
  | returned => cases hidle

theorem usecUntil_nonneg (h : nanos now ≤ t.expiry) : 0 ≤ usecUntil now t := by
  unfold usecUntil
  omega

theorem usecUntil_mono {u : TimerCallbackInfo} (h : t.expiry ≤ u.expiry) : usecUntil now t ≤ usecUntil now u := by
  unfold usecUntil
  omega

-- A cleared timer at the head of the list is taken for one that is due.
theorem nextTimeout_cleared (hnow : 0 ≤ nanos now) (h : t.expiry = 0) : nextTimeout now (t :: timers) = .ok 0 := by
  rcases lt_or_ge t.expiry (nanos now) with hlate | hlater
  · exact nextTimeout_late hlate
  · have hzero : usecUntil now t = 0 := by
      unfold usecUntil
      omega
    rw [nextTimeout_cons hnow hlater,hzero]
    rfl

end Value

theorem next_timeout_bounds {s s' : State} {now : Timespec} {element : Option Nat} (h : Reached s)
    (hcontrol : s.control = .walking now element) (hstep : step s .visit = .ok s')
    (hend : s'.control = .idle) :
    ∃ usec, s'.log = s.log ++ [.passed now usec] ∧ 0 ≤ usec ∧ usec ≤ 2147000000 ∧
      (∀ t ∈ s'.timers, t.live = true → usec ≤ usecUntil now t) ∧
      (∀ t, s'.timers.head? = some t → t.live = true →
        (∀ u ∈ s'.timers, u.live = true → t.expiry ≤ u.expiry) ∧ usec = min (usecUntil now t) 2147000000) ∧
      (s'.timers = [] → usec = 2147000000) := by
  have hinv := h.inv
  have hplaced := hinv.placed
  simp only [Placed,hcontrol] at hplaced
  obtain ⟨hnow,_⟩ := hplaced
  obtain ⟨usec,rfl,husec,hlast⟩ := ended_of_step (a := .visit) hinv trivial hcontrol hstep hend
  have hdue := hinv.nothing_due hcontrol hlast
  refine ⟨usec,rfl,?_⟩
  simp only
  cases htimers : s.timers with
  | nil =>
    rw [htimers,nextTimeout_nil] at husec
    obtain rfl := Except.ok.inj husec
    exact ⟨by decide,le_rfl,by simp,by simp,fun _ => rfl⟩
  | cons t timers =>
    have horder := htimers ▸ hinv.ordered
    rw [htimers] at husec hdue
    cases hlive : t.live with
    | true =>
      have hfirst := horder.first hlive
      have hlater := hdue t List.mem_cons_self hlive
      have hnonneg := usecUntil_nonneg hlater
      rw [nextTimeout_cons hnow hlater] at husec
      obtain rfl := Except.ok.inj husec
      refine ⟨le_min hnonneg (by decide),min_le_right _ _,?_,?_,by simp⟩
      · intro u hu hulive
        exact (min_le_left _ _).trans (usecUntil_mono (hfirst u hu hulive))
      · rintro u hu _
        obtain rfl := Option.some.inj hu
        exact ⟨hfirst,rfl⟩
    | false =>
      rw [nextTimeout_cleared hnow (horder.cleared t List.mem_cons_self hlive)] at husec
      obtain rfl := Except.ok.inj husec
      refine ⟨le_rfl,by decide,?_,?_,by simp⟩
      · intro u hu hulive
        exact usecUntil_nonneg (hdue u hu hulive)
      · rintro u hu hulive
        obtain rfl := Option.some.inj hu
        rw [hlive] at hulive
        cases hulive

def waitingTimer : TimerCallbackInfo := ⟨0,some 7,seconds 4 (by decide),zero,9⟩

def waiting : State :=
  ⟨[waitingTimer],1,.walking (seconds 2 (by decide)) (some 0),seconds 2 (by decide),[.added waitingTimer]⟩

theorem waiting_reached : Reached waiting := by
  have hadded : Reached ⟨[waitingTimer],1,.idle,seconds 1 (by decide),[.added waitingTimer]⟩ := by
    refine (Reached.init (seconds 1 (by decide)) (by decide)).step
      (a := .add (some (seconds 1 (by decide))) zero (seconds 3 (by decide)) 7 9) ⟨?_,by decide,by decide⟩ rfl
    rintro now hnow
    obtain rfl := Option.some.inj hnow
    rfl
  exact hadded.step (a := .execute (seconds 2 (by decide))) rfl rfl

theorem next_timeout_bounds_waiting :
    ∃ usec, [Event.passed (seconds 2 (by decide)) 2000000] = [.passed (seconds 2 (by decide)) usec] ∧
      usec ≤ usecUntil (seconds 2 (by decide)) waitingTimer := by
  have hstep : step waiting .visit = .ok { waiting with
      control := .idle
      log := waiting.log ++ [.passed (seconds 2 (by decide)) 2000000] } := rfl
  obtain ⟨usec,hlog,_,_,hall,_⟩ := next_timeout_bounds waiting_reached rfl hstep rfl
  exact ⟨usec,List.append_cancel_left hlog,hall waitingTimer (List.mem_singleton_self _) rfl⟩

end Trema.Timer
