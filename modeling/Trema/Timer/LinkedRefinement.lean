import Trema.Timer.LinkedRuns

namespace Trema.Timer.Linked

open Library Utility Chain

-- Both levels go on, or both refuse for the same reason.
def Agree (x : Run Fault Memory) (y : Run Fault State) : Prop :=
  (∃ m s rows, x = .ok m ∧ y = .ok s ∧ Mirrors m s rows) ∨
    ∃ f, x = .error (.rejected f) ∧ y = .error (.rejected f)

section Places

variable {rows rows' front after : List Row} {r : Row}

-- The rows may change, but not what they are.
def Keeps (rows rows' : List Row) : Prop :=
  ∀ r ∈ rows, ∃ q ∈ rows', q.e = r.e ∧ q.a = r.a ∧ q.t.id = r.t.id

theorem Keeps.of_subset (h : rows ⊆ rows') : Keeps rows rows' := fun r hr => ⟨r,h hr,rfl,rfl,rfl⟩

theorem Points.mono {p element : Option Nat} (h : Points rows p element) (hkeep : Keeps rows rows') :
    Points rows' p element := by
  cases p with
  | none =>
    cases element with
    | none => exact h
    | some i => exact h
  | some e =>
    cases element with
    | none => exact h
    | some i =>
      obtain ⟨r,hr,rfl,rfl⟩ := h
      obtain ⟨q,hq,he,_,hid⟩ := hkeep r hr
      exact ⟨q,hq,he,hid⟩

theorem Matches.mono {place : Place} {control : Control} (h : Matches rows place control)
    (hkeep : Keeps rows rows') : Matches rows' place control := by
  cases place with
  | idle =>
    cases control with
    | idle => exact h
    | walking now element => exact h
    | calling now i next => exact h
  | walking now p =>
    cases control with
    | walking now' element => exact ⟨h.1,h.2.mono hkeep⟩
    | idle => exact h
    | calling now' i next => exact h
  | calling now e a next =>
    cases control with
    | calling now' i next' =>
      obtain ⟨hnow,⟨r,hr,rfl,rfl,rfl⟩,hnext⟩ := h
      obtain ⟨q,hq,he,ha,hid⟩ := hkeep r hr
      exact ⟨hnow,⟨q,hq,he,ha,hid⟩,hnext.mono hkeep⟩
    | idle => exact h
    | walking now' element => exact h

-- The element behind a row, as the pointer and as the timer.
theorem points_first (h : after ⊆ rows) : Points rows (first (cells after)) (after.head?.map fun q => q.t.id) := by
  cases after with
  | nil => exact trivial
  | cons q after => exact ⟨q,h List.mem_cons_self,rfl,rfl⟩

theorem points_head (rows : List Row) :
    Points rows (first (cells rows)) ((rows.map Row.t).head?.map TimerCallbackInfo.id) := by
  have hhead : (rows.map Row.t).head?.map TimerCallbackInfo.id = rows.head?.map fun q => q.t.id := by
    rw [List.head?_map,Option.map_map]
    rfl
  rw [hhead]
  exact points_first (List.Subset.refl _)

end Places

section Steps

variable {m : Memory} {s s' : State} {rows front after : List Row} {r : Row} {now : Timespec}

theorem Mirrors.nodup (h : Mirrors m s rows) (hs : Inv s) : (ids (rows.map Row.t)).Nodup := h.timers ▸ hs.ordered.nodup

theorem Mirrors.head (h : Mirrors m s rows) :
    ∃ node, (element m.elements m.timerCallbacks : Run Fault _) = .ok node ∧ node.next = first (cells rows) := by
  have hsplit : Holds m.elements [[] ++ (m.timerCallbacks,none) :: cells rows] := h.held
  exact ⟨_,element_ok (one_at hsplit).1.node,Option.or_none⟩

-- What the code reads at an element, and the timer that is there.
theorem Mirrors.row (h : Mirrors m s (front ++ r :: after)) : ∃ node, (element m.elements r.e : Run Fault _) = .ok node ∧
    node.data = some r.a ∧ node.next = first (cells after) ∧ callbackAt m.callbacks r.a = .ok r.stored := by
  have hheld := h.held
  rw [cells_append,← List.cons_append] at hheld
  obtain ⟨node,hnode,hdata,hnext⟩ := element_row hheld
  exact ⟨node,hnode,hdata,hnext,callbackAt_ok (h.stored.at_row r (by simp))⟩

theorem insertNew_mirrors (h : Mirrors m s rows) (now interval expiresAt : Timespec) (callback userData : Nat) :
    ∃ m' rows', insertNew m now interval expiresAt callback userData = .ok m' ∧
      Mirrors m' (s.insertNew now ⟨s.nextId,some callback,expiresAt,interval,userData⟩) rows' := by
  have hpush := h.stored.push (t := ⟨s.nextId,some callback,expiresAt,interval,userData⟩) 0
  obtain ⟨n,elements,before,after,hrows,hrun,hholds,htimers⟩ := insertTimerCallback_spec
    (m := { m with
      callbacks := m.callbacks ++ [some ⟨m.callbacks.length,some callback,expiresAt,interval,userData⟩]
      clock := now })
    h.held (fun r hr => hpush.at_row r (List.mem_cons_of_mem _ hr)) (hpush.at_row _ List.mem_cons_self)
  refine ⟨_,_,hrun,hholds,hpush.perm ?_,?_,h.place.mono (.of_subset ?_),rfl,?_⟩
  · rw [hrows,List.map_append,List.map_cons,List.map_cons,List.map_append]
    exact List.perm_middle
  · rw [← htimers,← h.timers]
    rfl
  · rw [hrows]
    intro q hq
    rcases List.mem_append.mp hq with hq | hq
    · exact List.mem_append_left _ hq
    · exact List.mem_append_right _ (List.mem_cons_of_mem _ hq)
  · rw [State.insertNew,List.filterMap_append,← h.timeouts]
    exact (List.append_nil _).symm

theorem insertion_agrees (h : Mirrors m s rows) (now base interval : Timespec) (callback userData : Nat) : Agree
    (do
      let (_,m) ← (do
        let expiresAt ← addTimespec now base
        let m ← insertNew m now interval expiresAt callback userData
        pure (true,m) : Run Fault (Bool × Memory))
      pure m)
    (do
      let (_,s) ← (do
        let expiresAt ← addTimespec now base
        pure (true,s.insertNew now ⟨s.nextId,some callback,expiresAt,interval,userData⟩) : Run Fault (Bool × State))
      pure s) := by
  rcases add_outcome now base with ⟨expiresAt,hadd⟩ | hadd
  · obtain ⟨m',rows',hrun,hmirrors⟩ := insertNew_mirrors h now interval expiresAt callback userData
    simp only [hadd,ok_bind,hrun]
    exact .inl ⟨m',_,rows',rfl,rfl,hmirrors⟩
  · simp only [hadd]
    exact .inr ⟨_,rfl,rfl⟩

theorem add_agrees (h : Mirrors m s rows) (reading : Option Timespec) (interval value : Timespec) (callback userData : Nat) :
    Agree (useTimers (.add reading interval value callback userData) m)
      (Timer.useTimers (.add reading interval value callback userData) s) := by
  have hrefused : ∀ clock, Mirrors { m with callbacks := m.callbacks ++ [none], clock := clock }
      { s with clock := clock } rows := fun clock =>
    ⟨h.held,h.stored.pushNone,h.timers,h.place,rfl,h.timeouts⟩
  simp only [useTimers,Timer.useTimers,addTimerEventCallback,Timer.addTimerEventCallback]
  cases reading with
  | none =>
    have hsame := hrefused s.clock
    rw [← h.clock] at hsame
    exact .inl ⟨_,s,rows,rfl,rfl,⟨hsame.held,hsame.stored,hsame.timers,hsame.place,h.clock,hsame.timeouts⟩⟩
  | some now =>
    by_cases hvalue : validTimespec value = true
    · simp only [if_pos hvalue]
      exact insertion_agrees h now value interval callback userData
    · by_cases hinterval : validTimespec interval = true
      · simp only [if_neg hvalue,if_pos hinterval]
        exact insertion_agrees h now interval interval callback userData
      · simp only [if_neg hvalue,if_neg hinterval]
        exact .inl ⟨_,_,rows,rfl,rfl,hrefused now⟩

theorem findFrom_spec (callback userData : Nat) (pre : Chain (Option Nat)) (todo : List Row)
    (h : Holds m.elements [pre ++ cells todo]) (hstored : ∀ r ∈ todo, m.callbacks[r.a]?.join = some r.stored)
    {fuel : Nat} (hfuel : todo.length < fuel) :
    findFrom m callback userData fuel (first (cells todo)) =
      .ok ((todo.find? fun r => r.t.calls callback userData).map Row.a) := by
  induction todo generalizing pre fuel with
  | nil =>
    cases fuel with
    | zero => cases hfuel
    | succ fuel => rfl
  | cons r todo ih =>
    cases fuel with
    | zero => cases hfuel
    | succ fuel =>
      obtain ⟨node,hnode,hdata,hnext⟩ := element_row h
      have hcb := callbackAt_ok (hstored r List.mem_cons_self)
      have hhead : first (cells (r :: todo)) = some r.e := rfl
      rw [hhead,findFrom,hnode,ok_bind,hdata,pointer_some,ok_bind,hcb,ok_bind,hnext]
      by_cases hcalls : r.t.calls callback userData = true
      · have hfound : r.stored.calls callback userData = true := hcalls
        rw [if_pos hfound,List.find?_cons_of_pos (by exact hcalls)]
        rfl
      · have hother : ¬ r.stored.calls callback userData = true := hcalls
        rw [if_neg hother,List.find?_cons_of_neg (by exact hcalls)]
        rw [cells_cons,List.append_cons] at h
        exact ih _ h (fun q hq => hstored q (List.mem_cons_of_mem _ hq)) (Nat.lt_of_succ_lt_succ hfuel)

theorem update_row (hd : (ids ((front ++ r :: after).map Row.t)).Nodup) (g : TimerCallbackInfo → TimerCallbackInfo) :
    update r.t.id g ((front ++ r :: after).map Row.t) = (front ++ { r with t := g r.t } :: after).map Row.t := by
  rw [List.map_append,List.map_cons] at hd ⊢
  have hother : ∀ rows : List Row, (∀ q ∈ rows, q.t.id ≠ r.t.id) → update r.t.id g (rows.map Row.t) = rows.map Row.t := by
    intro rows hne
    rw [update,List.map_map]
    exact List.map_congr_left fun q hq => if_neg (hne q hq)
  rw [ids_append,List.nodup_append] at hd
  obtain ⟨_,hback,hcross⟩ := hd
  have hfront : ∀ q ∈ front, q.t.id ≠ r.t.id := fun q hq =>
    hcross _ (List.mem_map_of_mem (List.mem_map_of_mem hq)) _ List.mem_cons_self
  have hafter : ∀ q ∈ after, q.t.id ≠ r.t.id := fun q hq heq =>
    (List.nodup_cons.mp hback).1 (heq ▸ List.mem_map_of_mem (List.mem_map_of_mem hq))
  rw [update,List.map_append,List.map_cons,← update,← update,hother front hfront,hother after hafter,if_pos rfl,
    List.map_append,List.map_cons]

-- A callback changes and stays what and where it is.
theorem Mirrors.set (h : Mirrors m s (front ++ r :: after)) (hs : Inv s) (g : TimerCallbackInfo → TimerCallbackInfo)
    (hid : (g r.t).id = r.t.id) (event : Event) (hevent : timeout event = none) :
    Mirrors { m with callbacks := m.callbacks.set r.a (some { g r.t with id := r.a }) }
      { s with timers := update r.t.id g s.timers, log := s.log ++ [event] }
      (front ++ { r with t := g r.t } :: after) := by
  have hcells : cells (front ++ { r with t := g r.t } :: after) = cells (front ++ r :: after) := by simp [cells]
  refine ⟨hcells ▸ h.held,h.stored.set _,?_,h.place.mono ?_,h.clock,?_⟩
  · simp only [h.timers]
    exact update_row (h.nodup hs) g
  · intro q hq
    rcases List.mem_append.mp hq with hq | hq
    · exact ⟨q,List.mem_append_left _ hq,rfl,rfl,rfl⟩
    · rcases List.mem_cons.mp hq with rfl | hq
      · exact ⟨{ q with t := g q.t },by simp,rfl,rfl,hid⟩
      · exact ⟨q,List.mem_append_right _ (List.mem_cons_of_mem _ hq),rfl,rfl,rfl⟩
  · rw [List.filterMap_append,← h.timeouts,List.filterMap_cons_none hevent]
    exact (List.append_nil _).symm

theorem delete_eq (h : Mirrors m s rows) (callback userData : Nat) : useTimers (.delete callback userData) m = (do
    match (rows.find? fun r => r.t.calls callback userData).map Row.a with
    | none => pure m
    | some a => do
      let cb ← callbackAt m.callbacks a
      pure { m with callbacks := m.callbacks.set a (some cb.cleared) }) := by
  obtain ⟨node,hnode,hnext⟩ := h.head
  have hfind := findFrom_spec callback userData [(m.timerCallbacks,none)] rows h.held h.stored.at_row
    (length_cells_lt [(m.timerCallbacks,none)] h.held)
  simp only [useTimers,deleteTimerEvent,hnode,ok_bind,hnext,hfind]
  cases hfound : rows.find? fun r => r.t.calls callback userData with
  | none => rfl
  | some r =>
    have hmem := List.mem_of_find?_eq_some hfound
    simp only [Option.map_some,callbackAt_ok (h.stored.at_row r hmem)]
    rfl

theorem delete_agrees (h : Mirrors m s rows) (hs : Inv s) (callback userData : Nat) :
    Agree (useTimers (.delete callback userData) m) (Timer.useTimers (.delete callback userData) s) := by
  have hlist : s.timers.find? (·.calls callback userData) =
      (rows.find? fun r => r.t.calls callback userData).map Row.t := by
    rw [h.timers,List.find?_map]
    rfl
  rw [delete_eq h]
  simp only [Timer.useTimers,Timer.deleteTimerEvent,hlist]
  cases hfound : rows.find? fun r => r.t.calls callback userData with
  | none =>
    have hlog : m.timeouts = (s.log ++ [Event.deleted callback userData]).filterMap timeout := by
      rw [List.filterMap_append,← h.timeouts]
      exact (List.append_nil _).symm
    exact .inl ⟨_,_,rows,rfl,rfl,h.held,h.stored,h.timers,h.place,h.clock,hlog⟩
  | some r =>
    obtain ⟨front,after,rfl⟩ := List.append_of_mem (List.mem_of_find?_eq_some hfound)
    obtain ⟨_,_,_,_,hcb⟩ := h.row
    simp only [Option.map_some,hcb,ok_bind]
    exact .inl ⟨_,_,_,rfl,rfl,h.set hs TimerCallbackInfo.cleared rfl (.deleted callback userData) rfl⟩

theorem nextTimeout_eq (h : Mirrors m s rows) (now : Timespec) : nextTimeout now m = Timer.nextTimeout now s.timers := by
  obtain ⟨node,hnode,hnext⟩ := h.head
  rw [nextTimeout,hnode,ok_bind,hnext,h.timers]
  cases rows with
  | nil => rfl
  | cons r rows =>
    have hfront : Mirrors m s ([] ++ r :: rows) := h
    obtain ⟨node,hnode,hdata,_,hcb⟩ := hfront.row
    have hfirst : first (cells (r :: rows)) = some r.e := rfl
    simp only [hfirst,hnode,ok_bind,hdata,pointer_some,hcb]
    rfl

theorem endPass_agrees (h : Mirrors m s rows) {usec : Int} (husec : Timer.nextTimeout now s.timers = .ok usec) :
    Agree (endPass now m) (Timer.endPass now s) := by
  simp only [endPass,Timer.endPass,nextTimeout_eq h,husec,ok_bind]
  refine .inl ⟨_,_,rows,rfl,rfl,h.held,h.stored,h.timers,trivial,h.clock,?_⟩
  rw [List.filterMap_append,← h.timeouts]
  rfl

-- A turn that moves on leaves the other rows, among them the next one.
theorem moveOn_agrees (now : Timespec) (h : Mirrors m s (front ++ r :: after)) (hs : Inv s) {p element : Option Nat}
    (hnext : Points (front ++ after) p element) :
    ∃ m' rows', moveOn r.e r.a m = .ok m' ∧ Mirrors { m' with place := .walking now p }
      { s with timers := Timer.moveOn r.t s.timers, control := .walking now element } rows' := by
  obtain ⟨elements,callbacks,rows',hrun,hholds,hstored,htimers,hsub⟩ := moveOn_spec h.held h.stored (h.nodup hs)
  refine ⟨_,rows',hrun,hholds,hstored,?_,⟨rfl,hnext.mono (.of_subset hsub)⟩,h.clock,h.timeouts⟩
  rw [htimers,h.timers]

theorem visit_agrees (h : Mirrors m s rows) (hs : Timer.Reached s) {p element : Option Nat} (hp : Points rows p element)
    (hcontrol : s.control = .walking now element) : Agree (visit now p m) (Timer.visit now element s) := by
  have hinv := hs.inv
  have hplaced := hinv.placed
  simp only [Placed,hcontrol] at hplaced
  obtain ⟨usec,husec⟩ := nextTimeout_ok hplaced.1 s.timers
  cases p with
  | none =>
    cases element with
    | none => exact endPass_agrees h husec
    | some i => exact hp.elim
  | some e =>
    cases element with
    | none => exact hp.elim
    | some i =>
      obtain ⟨r,hr,rfl,rfl⟩ := hp
      obtain ⟨front,after,rfl⟩ := List.append_of_mem hr
      obtain ⟨node,hnode,hdata,hnext,hcb⟩ := h.row
      have hd := h.nodup hinv
      have hlookup : lookup r.t.id s.timers = .ok r.t :=
        lookup_ok hinv.ordered.nodup (h.timers ▸ List.mem_map_of_mem hr)
      have hbehind : elementNext r.t.id s.timers = after.head?.map fun q => q.t.id := by
        rw [h.timers,List.map_append,List.map_cons] at *
        rw [elementNext_split hd,List.head?_map,Option.map_map]
        rfl
      have hpoints : Points (front ++ after) (first (cells after)) (after.head?.map fun q => q.t.id) :=
        points_first fun q hq => List.mem_append_right _ hq
      obtain ⟨m',rows',hrun,hmirrors⟩ := moveOn_agrees now h hinv hpoints
      simp only [visit,Timer.visit,hnode,ok_bind,hdata,pointer_some,hcb,hnext,hlookup,hbehind,hrun]
      have hlive : r.stored.live = r.t.live := rfl
      have hexpires : r.stored.expiresAt = r.t.expiresAt := rfl
      rw [hlive,hexpires]
      split
      · split
        · exact endPass_agrees h husec
        · split
          · refine .inl ⟨_,_,_,rfl,rfl,h.held,h.stored,h.timers,?_,h.clock,?_⟩
            · exact ⟨rfl,⟨r,hr,rfl,rfl,rfl⟩,hpoints.mono (.of_subset fun q hq => by
                simp only [List.mem_append,List.mem_cons] at hq ⊢
                tauto)⟩
            · rw [List.filterMap_append,← h.timeouts]
              exact (List.append_nil _).symm
          · exact .inl ⟨_,_,rows',rfl,rfl,hmirrors⟩
      · exact .inl ⟨_,_,rows',rfl,rfl,hmirrors⟩

theorem afterCall_id (now : Timespec) (t : TimerCallbackInfo) (a : Nat) :
    (∃ t', afterCall now t = .ok t' ∧ t'.id = t.id ∧ afterCall now { t with id := a } = .ok { t' with id := a }) ∨
      afterCall now t = .error (.rejected .overflow) ∧ afterCall now { t with id := a } = .error (.rejected .overflow) := by
  simp only [afterCall]
  by_cases hvalid : validTimespec t.interval = true
  · rw [if_pos hvalid,if_pos hvalid]
    rcases add_outcome t.expiresAt t.interval with ⟨c,hadd⟩ | hadd
    · simp only [hadd,ok_bind]
      exact .inl ⟨_,rfl,rfl,rfl⟩
    · simp only [hadd]
      exact .inr ⟨rfl,rfl⟩
  · rw [if_neg hvalid,if_neg hvalid]
    exact .inl ⟨_,rfl,rfl,rfl⟩

-- What is behind the element whose function runs is another element.
theorem next_stays (h : Mirrors m s (front ++ r :: after)) (hs : Inv s) {p next : Option Nat}
    (hcontrol : s.control = .calling now r.t.id next) (hnext : Points (front ++ r :: after) p next) :
    Points (front ++ after) p next := by
  have hplaced := hs.placed
  simp only [Placed,hcontrol] at hplaced
  obtain ⟨_,_,front',back,hsplit,hhead,hi,_⟩ := hplaced
  cases p with
  | none =>
    cases next with
    | none => exact hnext
    | some j => exact hnext
  | some e =>
    cases next with
    | none => exact hnext.elim
    | some j =>
      obtain ⟨q,hq,he,hj⟩ := hnext
      have hne : q ≠ r := by
        rintro rfl
        have hd := hs.ordered.nodup
        rw [hsplit,ids_append,List.nodup_append] at hd
        cases back with
        | nil => cases hhead
        | cons t back =>
          have hid : t.id = q.t.id := (Option.some.inj hhead).trans hj.symm
          exact hd.2.2 _ hi _ List.mem_cons_self hid.symm
      refine ⟨q,?_,he,hj⟩
      simp only [List.mem_append,List.mem_cons] at hq ⊢
      tauto

theorem comeBack_agrees (h : Mirrors m s rows) (hs : Timer.Reached s) {e a i : Nat} {p next : Option Nat}
    (hr : ∃ r ∈ rows, r.e = e ∧ r.a = a ∧ r.t.id = i) (hp : Points rows p next)
    (hcontrol : s.control = .calling now i next) : Agree (comeBack now e a p m) (Timer.comeBack now i next s) := by
  have hinv := hs.inv
  obtain ⟨r,hr,rfl,rfl,rfl⟩ := hr
  obtain ⟨front,after,rfl⟩ := List.append_of_mem hr
  obtain ⟨_,_,_,_,hcb⟩ := h.row
  have hd := h.nodup hinv
  have hlookup : lookup r.t.id s.timers = .ok r.t :=
    lookup_ok hinv.ordered.nodup (h.timers ▸ List.mem_map_of_mem hr)
  have hnext := next_stays h hinv hcontrol hp
  simp only [comeBack,Timer.comeBack,hcb,ok_bind,hlookup]
  rcases afterCall_id now r.t r.a with ⟨t',hafter,hid,hstored⟩ | ⟨hafter,hstored⟩
  · have hchanged := h.set hinv (fun _ => t') hid (.returned r.t.id now) rfl
    have hsame : (ids ((front ++ { r with t := t' } :: after).map Row.t)).Nodup := by
      simp only [List.map_append,List.map_cons,ids,hid] at hd ⊢
      exact hd
    obtain ⟨elements,callbacks,rows',hrun,hholds,hkept,htimers,hsub⟩ := moveOn_spec hchanged.held hchanged.stored hsame
    have hmoved : Timer.moveOn t' ((front ++ { r with t := t' } :: after).map Row.t) = Timer.moveOn t' s.timers := by
      have hgone : deleteDlistElement t'.id s.timers = (front ++ after).map Row.t := by
        rw [h.timers,List.map_append,List.map_cons,hid]
        rw [List.map_append,List.map_cons] at hd
        rw [delete_here hd,List.map_append]
      have hgone' : deleteDlistElement t'.id ((front ++ { r with t := t' } :: after).map Row.t) =
          (front ++ after).map Row.t := by
        rw [List.map_append,List.map_cons] at hsame ⊢
        rw [delete_here hsame,List.map_append]
      rw [Timer.moveOn,Timer.moveOn,hgone,hgone']
    have hrow : afterCall now r.stored = .ok { t' with id := r.a } := hstored
    simp only [hafter,hrow,ok_bind]
    simp only [hrun,ok_bind]
    refine .inl ⟨_,_,rows',rfl,rfl,hholds,hkept,?_,⟨rfl,hnext.mono (.of_subset hsub)⟩,h.clock,hchanged.timeouts⟩
    rw [htimers,hmoved]
  · have hrow : afterCall now r.stored = .error (.rejected .overflow) := hstored
    simp only [hafter,hrow]
    exact .inr ⟨_,rfl,rfl⟩

theorem useTimers_agrees (h : Mirrors m s rows) (hs : Inv s) (a : Action) : Agree (useTimers a m) (Timer.useTimers a s) := by
  cases a with
  | add reading interval value callback userData => exact add_agrees h reading interval value callback userData
  | addPeriodic reading sec hsec callback userData => exact add_agrees h reading (seconds sec hsec) zero callback userData
  | delete callback userData => exact delete_agrees h hs callback userData
  | execute now => exact .inr ⟨_,rfl,rfl⟩
  | visit => exact .inr ⟨_,rfl,rfl⟩
  | comeBack => exact .inr ⟨_,rfl,rfl⟩

theorem execute_agrees (h : Mirrors m s rows) (now : Timespec) :
    Agree (execute now m) (.ok { s with
      control := .walking now (s.timers.head?.map TimerCallbackInfo.id)
      clock := now }) := by
  obtain ⟨node,hnode,hnext⟩ := h.head
  simp only [execute,hnode,ok_bind,hnext]
  refine .inl ⟨_,_,rows,rfl,rfl,h.held,h.stored,h.timers,⟨rfl,?_⟩,rfl,h.timeouts⟩
  rw [h.timers]
  exact points_head rows

-- One step of either level is a step of the other.
theorem step_agrees (h : Mirrors m s rows) (hs : Timer.Reached s) (a : Action) : Agree (step m a) (Timer.step s a) := by
  have hplace := h.place
  cases hm : m.place with
  | idle =>
    cases hc : s.control with
    | idle =>
      simp only [step,Timer.step,hm,hc]
      cases a with
      | execute now => exact execute_agrees h now
      | add reading interval value callback userData => exact useTimers_agrees h hs.inv _
      | addPeriodic reading sec hsec callback userData => exact useTimers_agrees h hs.inv _
      | delete callback userData => exact useTimers_agrees h hs.inv _
      | visit => exact useTimers_agrees h hs.inv _
      | comeBack => exact useTimers_agrees h hs.inv _
    | walking now element =>
      rw [hm,hc] at hplace
      exact hplace.elim
    | calling now i next =>
      rw [hm,hc] at hplace
      exact hplace.elim
  | walking now p =>
    cases hc : s.control with
    | idle =>
      rw [hm,hc] at hplace
      exact hplace.elim
    | walking now' element =>
      rw [hm,hc] at hplace
      obtain ⟨rfl,hp⟩ := hplace
      simp only [step,Timer.step,hm,hc]
      cases a with
      | visit => exact visit_agrees h hs hp hc
      | add reading interval value callback userData => exact .inr ⟨_,rfl,rfl⟩
      | addPeriodic reading sec hsec callback userData => exact .inr ⟨_,rfl,rfl⟩
      | delete callback userData => exact .inr ⟨_,rfl,rfl⟩
      | execute now => exact .inr ⟨_,rfl,rfl⟩
      | comeBack => exact .inr ⟨_,rfl,rfl⟩
    | calling now' i next =>
      rw [hm,hc] at hplace
      exact hplace.elim
  | calling now e cb next =>
    cases hc : s.control with
    | idle =>
      rw [hm,hc] at hplace
      exact hplace.elim
    | walking now' element =>
      rw [hm,hc] at hplace
      exact hplace.elim
    | calling now' i next' =>
      rw [hm,hc] at hplace
      obtain ⟨rfl,hr,hp⟩ := hplace
      simp only [step,Timer.step,hm,hc]
      cases a with
      | comeBack => exact comeBack_agrees h hs hr hp hc
      | add reading interval value callback userData => exact useTimers_agrees h hs.inv _
      | addPeriodic reading sec hsec callback userData => exact useTimers_agrees h hs.inv _
      | delete callback userData => exact useTimers_agrees h hs.inv _
      | execute now => exact useTimers_agrees h hs.inv _
      | visit => exact useTimers_agrees h hs.inv _

end Steps

theorem init_mirrors (clock : Timespec) : Mirrors (initTimer clock) (Timer.initTimer clock) [] where
  held := by
    have hnone : Holds ([] : Elements Nat) [] := ⟨by simp,by simp,by simp⟩
    exact create_spec hnone
  stored := ⟨by simp,by simp,by simp [initTimer]⟩
  timers := rfl
  place := trivial
  clock := rfl
  timeouts := rfl

theorem Reached.mirrors {m : Memory} (h : Linked.Reached m) : ∃ s rows, Timer.Reached s ∧ Mirrors m s rows := by
  induction h with
  | init clock hclock => exact ⟨_,[],.init clock hclock,init_mirrors clock⟩
  | step h htimely hstep ih =>
    obtain ⟨s,rows,hs,hmirrors⟩ := ih
    rcases step_agrees hmirrors hs _ with ⟨m',s',rows',hm',hs',hmirrors'⟩ | ⟨f,hm',_⟩
    · rw [hstep] at hm'
      obtain rfl := Except.ok.inj hm'
      exact ⟨s',rows',.step hs (hmirrors.clock ▸ htimely) hs',hmirrors'⟩
    · rw [hstep] at hm'
      cases hm'

-- The elements and callbacks in memory are those of the timers of a run, step by step; no step faults.
theorem linked_timers_refine {m : Memory} (h : Linked.Reached m) :
    ∃ s rows, Timer.Reached s ∧ Mirrors m s rows ∧ ∀ a, Agree (step m a) (Timer.step s a) := by
  obtain ⟨s,rows,hs,hmirrors⟩ := h.mirrors
  exact ⟨s,rows,hs,hmirrors,step_agrees hmirrors hs⟩

-- A function has deleted the timer that called it.
def deletedInCall : Memory :=
  ⟨[some ⟨none,none,some 1⟩,some ⟨some 0,some 0,none⟩],[some ⟨0,none,zero,zero,0⟩],0,
    .calling (seconds 4 four_representable) 1 0 none,seconds 4 four_representable,[]⟩

theorem deletedInCall_reached : Linked.Reached deletedInCall := by
  have hadded : Linked.Reached ⟨[some ⟨none,none,some 1⟩,some ⟨some 0,some 0,none⟩],
      [some ⟨0,some 7,seconds 3 (by decide),seconds 2 (by decide),1⟩],0,.idle,seconds 1 (by decide),[]⟩ := by
    refine (Linked.Reached.init (seconds 1 (by decide)) (by decide)).step
      (a := .addPeriodic (some (seconds 1 (by decide))) 2 (by decide) 7 1) ?_ rfl
    rintro now hnow
    obtain rfl := Option.some.inj hnow
    rfl
  have hcalled := (hadded.step (a := .execute (seconds 4 (by decide))) rfl rfl).step (a := .visit) trivial rfl
  exact hcalled.step (a := .delete 7 1) trivial rfl

theorem linked_timers_refine_deletedInCall : ∃ s rows, Timer.Reached s ∧ Mirrors deletedInCall s rows ∧
    Agree (step deletedInCall .comeBack) (Timer.step s .comeBack) := by
  obtain ⟨s,rows,hs,hmirrors,hagree⟩ := linked_timers_refine deletedInCall_reached
  exact ⟨s,rows,hs,hmirrors,hagree .comeBack⟩

end Trema.Timer.Linked
