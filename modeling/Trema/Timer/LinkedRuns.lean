import Trema.Timer.LinkedTimers

namespace Trema.Timer.Linked

open Library Utility Chain

-- An element of the list, its callback and the timer that this is.
structure Row where
  e : Nat
  a : Nat
  t : TimerCallbackInfo

def Row.stored (r : Row) : TimerCallbackInfo := { r.t with id := r.a }

def cells (rows : List Row) : Chain (Option Nat) := rows.map fun r => (r.e,some r.a)

def Points (rows : List Row) : Option Nat → Option Nat → Prop
  | none, none => True
  | some e, some i => ∃ r ∈ rows, r.e = e ∧ r.t.id = i
  | _, _ => False

def Matches (rows : List Row) : Place → Control → Prop
  | .idle, .idle => True
  | .walking now p, .walking now' element => now = now' ∧ Points rows p element
  | .calling now e a next, .calling now' i next' =>
    now = now' ∧ (∃ r ∈ rows, r.e = e ∧ r.a = a ∧ r.t.id = i) ∧ Points rows next next'
  | _, _ => False

def timeout : Event → Option Int
  | .passed _ usec => some usec
  | _ => none

-- The callbacks that are allocated are those of the rows.
structure Stored (callbacks : List (Option TimerCallbackInfo)) (rows : List Row) : Prop where
  at_row : ∀ r ∈ rows, callbacks[r.a]?.join = some r.stored
  apart : (rows.map Row.a).Nodup
  live : ∀ a, callbacks[a]?.join ≠ none → a ∈ rows.map Row.a

structure Mirrors (m : Memory) (s : State) (rows : List Row) : Prop where
  held : Holds m.elements [(m.timerCallbacks,none) :: cells rows]
  stored : Stored m.callbacks rows
  timers : s.timers = rows.map Row.t
  place : Matches rows m.place s.control
  clock : m.clock = s.clock
  timeouts : m.timeouts = s.log.filterMap timeout

section Lists

variable {m : Memory} {rows todo before after : List Row} {r : Row} {e last : Nat} {x : Option Nat}
  {pre : Chain (Option Nat)}

theorem callbackAt_ok {callbacks : List (Option TimerCallbackInfo)} {a : Nat} {cb : TimerCallbackInfo}
    (h : callbacks[a]?.join = some cb) : callbackAt callbacks a = .ok cb := by
  rw [callbackAt,h]

@[simp] theorem pointer_some (a : Nat) : pointer (some a) = .ok a := rfl

theorem cells_append (before after : List Row) : cells (before ++ after) = cells before ++ cells after :=
  List.map_append

theorem cells_cons (r : Row) (rows : List Row) : cells (r :: rows) = (r.e,some r.a) :: cells rows := rfl

section One

variable {elements : Elements Nat} {post : Chain (Option Nat)}

theorem one_at {c : Chain (Option Nat)} (h : Holds elements [c]) : Doubly elements none none c ∧ (addresses c).Nodup := by
  have hsplit : Holds elements ([] ++ c :: []) := h
  exact ⟨hsplit.at.1,hsplit.at.2.1⟩

theorem insertBefore_one (h : Holds elements [pre ++ (e,x) :: post]) (y : Option Nat) :
    ∃ elements', (insertBeforeDlist elements (some e) y : Run Fault _) = .ok (elements.length,elements') ∧
      Holds elements' [pre ++ (elements.length,y) :: (e,x) :: post] := by
  have hsplit : Holds elements ([] ++ (pre ++ (e,x) :: post) :: []) := h
  obtain ⟨elements',hrun,_,hholds⟩ := insertBefore_spec (ε := Fault) hsplit y
  exact ⟨elements',hrun,hholds⟩

theorem insertAfter_one (h : Holds elements [pre ++ (e,x) :: post]) (y : Option Nat) :
    ∃ elements', (insertAfterDlist elements (some e) y : Run Fault _) = .ok (elements.length,elements') ∧
      Holds elements' [pre ++ (e,x) :: (elements.length,y) :: post] := by
  have hsplit : Holds elements ([] ++ (pre ++ (e,x) :: post) :: []) := h
  obtain ⟨elements',hrun,_,hholds⟩ := insertAfter_spec (ε := Fault) hsplit y
  exact ⟨elements',hrun,hholds⟩

theorem delete_one (h : Holds elements [pre ++ (e,x) :: post]) :
    ∃ elements', (Utility.deleteDlistElement elements (some e) : Run Fault _) = .ok elements' ∧
      Holds elements' [pre ++ post] := by
  have hsplit : Holds elements ([] ++ (pre ++ (e,x) :: post) :: []) := h
  obtain ⟨elements',hrun,_,hholds⟩ := delete_spec (ε := Fault) hsplit
  exact ⟨elements',hrun,hholds⟩

end One

-- The element of a row, and the element behind it.
theorem element_row {front : Chain (Option Nat)} (h : Holds m.elements [front ++ cells (r :: after)]) :
    ∃ node, (element m.elements r.e : Run Fault _) = .ok node ∧ node.data = some r.a ∧ node.next = first (cells after) :=
  ⟨_,element_ok (one_at h).1.node,rfl,Option.or_none⟩

theorem insertFrom_spec (todo : List Row) {t : TimerCallbackInfo} {a : Nat}
    (h : Holds m.elements [pre ++ (last,x) :: cells todo])
    (hstored : ∀ r ∈ todo, m.callbacks[r.a]?.join = some r.stored) {fuel : Nat} (hfuel : todo.length < fuel) :
    ∃ n elements before after, todo = before ++ after ∧
      insertFrom m { t with id := a } fuel (first (cells todo)) last = .ok elements ∧
      Holds elements [pre ++ (last,x) :: cells (before ++ ⟨n,a,t⟩ :: after)] ∧
      Timer.insertTimerCallback t (todo.map Row.t) = (before ++ ⟨n,a,t⟩ :: after).map Row.t := by
  induction todo generalizing pre last x fuel with
  | nil =>
    cases fuel with
    | zero => cases hfuel
    | succ fuel =>
      obtain ⟨elements,hrun,hholds⟩ := insertAfter_one h (some a)
      refine ⟨_,elements,[],[],rfl,?_,hholds,rfl⟩
      have hnone : first (cells []) = none := rfl
      simp only [hnone,insertFrom,hrun,ok_bind]
      rfl
  | cons r todo ih =>
    cases fuel with
    | zero => cases hfuel
    | succ fuel =>
      rw [List.append_cons] at h
      obtain ⟨node,hnode,hdata,hnext⟩ := element_row h
      have hcb := callbackAt_ok (hstored r List.mem_cons_self)
      have hhead : first (cells (r :: todo)) = some r.e := rfl
      rw [hhead,insertFrom,hnode,ok_bind,hdata,pointer_some,ok_bind,hcb,ok_bind,hnext]
      by_cases hless : timespecLessThen t.expiresAt r.t.expiresAt = true
      · obtain ⟨elements,hrun,hholds⟩ := insertBefore_one h (some a)
        refine ⟨_,elements,[],r :: todo,rfl,?_,by rw [List.append_cons]; exact hholds,?_⟩
        · have hfirst : timespecLessThen t.expiresAt r.stored.expiresAt = true := hless
          rw [if_pos hfirst]
          simp only [hrun,ok_bind]
          rfl
        · rw [List.map_cons,Timer.insertTimerCallback,if_pos hless]
          rfl
      · obtain ⟨n,elements,before,after,rfl,hrun,hholds,htimers⟩ :=
          ih h (fun r hr => hstored r (List.mem_cons_of_mem _ hr)) (Nat.lt_of_succ_lt_succ hfuel)
        refine ⟨n,elements,r :: before,after,rfl,?_,by rw [List.append_cons]; exact hholds,?_⟩
        · have hlater : ¬ timespecLessThen t.expiresAt r.stored.expiresAt = true := hless
          rw [if_neg hlater]
          exact hrun
        · rw [List.map_cons,Timer.insertTimerCallback,if_neg hless,htimers]
          rfl

theorem length_cells_lt (front : Chain (Option Nat)) (h : Holds m.elements [front ++ cells rows]) :
    rows.length < m.elements.length + 1 := by
  obtain ⟨hlinked,hd⟩ := one_at h
  have hle := length_le_nodes hlinked hd
  rw [List.length_append,cells,List.length_map] at hle
  omega

-- insert_timer_callback puts the element where the list has the timer.
theorem insertTimerCallback_spec {t : TimerCallbackInfo} {a : Nat}
    (h : Holds m.elements [(m.timerCallbacks,none) :: cells rows])
    (hstored : ∀ r ∈ rows, m.callbacks[r.a]?.join = some r.stored)
    (hnew : m.callbacks[a]?.join = some { t with id := a }) :
    ∃ n elements before after, rows = before ++ after ∧
      insertTimerCallback a m = .ok { m with elements := elements } ∧
      Holds elements [(m.timerCallbacks,none) :: cells (before ++ ⟨n,a,t⟩ :: after)] ∧
      Timer.insertTimerCallback t (rows.map Row.t) = (before ++ ⟨n,a,t⟩ :: after).map Row.t := by
  have hsplit : Holds m.elements [[] ++ (m.timerCallbacks,none) :: cells rows] := h
  have hhead := element_ok (ε := Fault) (one_at hsplit).1.node
  have hfuel : rows.length < m.elements.length + 1 :=
    length_cells_lt [(m.timerCallbacks,none)] h
  obtain ⟨n,elements,before,after,rfl,hrun,hholds,htimers⟩ := insertFrom_spec rows (a := a) (t := t) hsplit hstored hfuel
  refine ⟨n,elements,before,after,rfl,?_,hholds,htimers⟩
  simp only [insertTimerCallback,callbackAt_ok hnew,ok_bind,hhead,Option.or_none,hrun]
  rfl

end Lists

section Rows

variable {callbacks : List (Option TimerCallbackInfo)} {rows rows' front after : List Row} {r : Row} {m : Memory}

def Row.owned (r : Row) : Nat × TimerCallbackInfo := (r.a,r.t)

-- The elements of the rows and their order do not matter.
theorem Stored.perm (h : Stored callbacks rows) (hperm : (rows'.map Row.owned).Perm (rows.map Row.owned)) :
    Stored callbacks rows' := by
  have haddress : (rows'.map Row.a).Perm (rows.map Row.a) := by
    have hfirst := hperm.map Prod.fst
    rw [List.map_map,List.map_map] at hfirst
    exact hfirst
  refine ⟨fun r hr => ?_,haddress.nodup_iff.mpr h.apart,fun a ha => haddress.mem_iff.mpr (h.live a ha)⟩
  obtain ⟨q,hq,howned⟩ := List.mem_map.mp (hperm.mem_iff.mp (List.mem_map_of_mem hr))
  have hqr := h.at_row q hq
  obtain ⟨ha,ht⟩ := Prod.mk.inj howned
  rw [Row.stored,ha,ht] at hqr
  exact hqr

theorem Stored.free (h : Stored callbacks (front ++ r :: after)) : Stored (callbacks.set r.a none) (front ++ after) := by
  have hd := h.apart
  rw [List.map_append,List.map_cons] at hd
  obtain ⟨hnot,hd⟩ := List.nodup_cons.mp (List.nodup_middle.mp hd)
  rw [← List.map_append] at hnot hd
  refine ⟨fun q hq => ?_,hd,fun a ha => ?_⟩
  · have hne : q.a ≠ r.a := fun heq => hnot (heq ▸ List.mem_map_of_mem hq)
    rw [join_set_ne hne]
    refine h.at_row q ?_
    rcases List.mem_append.mp hq with hq | hq
    · exact List.mem_append_left _ hq
    · exact List.mem_append_right _ (List.mem_cons_of_mem _ hq)
  · by_cases hr : a = r.a
    · subst hr
      rw [join_set_self (lt_of_join (h.at_row r (by simp)))] at ha
      exact absurd rfl ha
    · rw [join_set_ne hr] at ha
      have hold := h.live a ha
      simp only [List.map_append,List.map_cons,List.mem_append,List.mem_cons,hr,false_or] at hold ⊢
      exact hold

theorem Stored.push (h : Stored callbacks rows) {t : TimerCallbackInfo} (e : Nat) :
    Stored (callbacks ++ [some { t with id := callbacks.length }]) (⟨e,callbacks.length,t⟩ :: rows) := by
  refine ⟨fun q hq => ?_,List.nodup_cons.mpr ⟨fun hmem => ?_,h.apart⟩,fun a ha => ?_⟩
  · rcases List.mem_cons.mp hq with rfl | hq
    · exact join_append_last _
    · exact (join_append _ (lt_of_join (h.at_row q hq))).trans (h.at_row q hq)
  · obtain ⟨q,hq,heq⟩ := List.mem_map.mp hmem
    have hlt := lt_of_join (h.at_row q hq)
    have hlast : q.a = callbacks.length := heq
    omega
  · rw [List.map_cons,List.mem_cons]
    obtain ⟨cb,hcb⟩ := Option.ne_none_iff_exists'.mp ha
    rcases lt_or_eq_of_append hcb with hlt | heq
    · rw [join_append _ hlt] at ha
      exact .inr (h.live a ha)
    · exact .inl heq

theorem Stored.pushNone (h : Stored callbacks rows) : Stored (callbacks ++ [none]) rows := by
  refine ⟨fun q hq => ?_,h.apart,fun a ha => ?_⟩
  · exact (join_append _ (lt_of_join (h.at_row q hq))).trans (h.at_row q hq)
  · obtain ⟨cb,hcb⟩ := Option.ne_none_iff_exists'.mp ha
    rcases lt_or_eq_of_append hcb with hlt | rfl
    · rw [join_append _ hlt] at ha
      exact h.live a ha
    · rw [join_append_last] at ha
      exact absurd rfl ha

-- The callback of a row changes.
theorem Stored.set (h : Stored callbacks (front ++ r :: after)) (t : TimerCallbackInfo) :
    Stored (callbacks.set r.a (some { t with id := r.a })) (front ++ { r with t := t } :: after) := by
  have hd := h.apart
  have haddress : (front ++ { r with t := t } :: after).map Row.a = (front ++ r :: after).map Row.a := by simp
  have hlt := lt_of_join (h.at_row r (by simp))
  refine ⟨fun q hq => ?_,haddress ▸ hd,fun a ha => ?_⟩
  · rw [List.map_append,List.map_cons] at hd
    obtain ⟨hnot,_⟩ := List.nodup_cons.mp (List.nodup_middle.mp hd)
    rw [← List.map_append] at hnot
    have hkept : ∀ q ∈ front ++ after, (callbacks.set r.a (some { t with id := r.a }))[q.a]?.join = some q.stored := by
      intro q hq
      have hne : q.a ≠ r.a := fun heq => hnot (heq ▸ List.mem_map_of_mem hq)
      rw [join_set_ne hne]
      refine h.at_row q ?_
      rcases List.mem_append.mp hq with hq | hq
      · exact List.mem_append_left _ hq
      · exact List.mem_append_right _ (List.mem_cons_of_mem _ hq)
    rcases List.mem_append.mp hq with hq | hq
    · exact hkept q (List.mem_append_left _ hq)
    · rcases List.mem_cons.mp hq with rfl | hq
      · exact join_set_self hlt _
      · exact hkept q (List.mem_append_right _ hq)
  · rw [haddress]
    by_cases hr : a = r.a
    · subst hr
      exact List.mem_map_of_mem (by simp)
    · rw [join_set_ne hr] at ha
      exact h.live a ha

theorem moveOn_spec (hheld : Holds m.elements [(m.timerCallbacks,none) :: cells (front ++ r :: after)])
    (hstored : Stored m.callbacks (front ++ r :: after)) (hd : (ids ((front ++ r :: after).map Row.t)).Nodup) :
    ∃ elements callbacks rows', moveOn r.e r.a m = .ok { m with elements := elements, callbacks := callbacks } ∧
      Holds elements [(m.timerCallbacks,none) :: cells rows'] ∧ Stored callbacks rows' ∧
      rows'.map Row.t = Timer.moveOn r.t ((front ++ r :: after).map Row.t) ∧ front ++ after ⊆ rows' := by
  have hsplit : Holds m.elements [(m.timerCallbacks,none) :: cells front ++ (r.e,some r.a) :: cells after] := by
    rw [cells_append] at hheld
    exact hheld
  obtain ⟨elements,hrun,hholds⟩ := delete_one hsplit
  rw [List.cons_append,← cells_append] at hholds
  have hcb := hstored.at_row r (by simp)
  rw [List.map_append,List.map_cons] at hd
  have hgone : deleteDlistElement r.t.id ((front ++ r :: after).map Row.t) = (front ++ after).map Row.t := by
    rw [List.map_append,List.map_cons,delete_here hd,List.map_append]
  cases hlive : r.t.live with
  | false =>
    refine ⟨elements,m.callbacks.set r.a none,front ++ after,?_,hholds,hstored.free,?_,List.Subset.refl _⟩
    · have hdead : ¬ r.stored.live = true := by
        rw [Bool.not_eq_true]
        exact hlive
      simp only [moveOn,hrun,ok_bind,callbackAt_ok hcb,if_neg hdead,xfree]
      rfl
    · rw [Timer.moveOn,hlive,hgone]
      rfl
  | true =>
    have hrest : ∀ q ∈ front ++ after, m.callbacks[q.a]?.join = some q.stored := by
      intro q hq
      refine hstored.at_row q ?_
      rcases List.mem_append.mp hq with hq | hq
      · exact List.mem_append_left _ hq
      · exact List.mem_append_right _ (List.mem_cons_of_mem _ hq)
    obtain ⟨n,elements',before,after',hrows,hinsert,hholds',htimers⟩ :=
      insertTimerCallback_spec (m := { m with elements := elements }) hholds hrest hcb
    refine ⟨elements',m.callbacks,before ++ ⟨n,r.a,r.t⟩ :: after',?_,hholds',hstored.perm ?_,?_,?_⟩
    · have hstill : r.stored.live = true := hlive
      simp only [moveOn,hrun,ok_bind,callbackAt_ok hcb,if_pos hstill]
      exact hinsert
    · have howned : (before ++ ⟨n,r.a,r.t⟩ :: after').map Row.owned =
          before.map Row.owned ++ r.owned :: after'.map Row.owned := by simp [Row.owned]
      rw [howned,List.map_append,List.map_cons]
      refine List.perm_middle.trans ((List.Perm.cons _ ?_).trans List.perm_middle.symm)
      rw [← List.map_append,← List.map_append,hrows]
    · rw [Timer.moveOn,hlive,hgone,if_pos rfl,htimers]
    · intro q hq
      rw [hrows] at hq
      rcases List.mem_append.mp hq with hq | hq
      · exact List.mem_append_left _ hq
      · exact List.mem_append_right _ (List.mem_cons_of_mem _ hq)

end Rows

end Trema.Timer.Linked
