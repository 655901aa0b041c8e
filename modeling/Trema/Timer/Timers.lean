import Trema.Timer.Timespec

namespace Trema.Timer

open Library

-- `id` tells which call made it; an element of the list is known by its data.
structure TimerCallbackInfo where
  id : Nat
  function : Option Nat
  expiresAt : Timespec
  interval : Timespec
  userData : Nat
deriving DecidableEq, Repr

def TimerCallbackInfo.live (t : TimerCallbackInfo) : Bool := t.function.isSome

inductive Event where
  | added (t : TimerCallbackInfo)
  | deleted (function userData : Nat)
  | called (id : Nat) (now : Timespec)
  | returned (id : Nat) (now : Timespec)
  | passed (now : Timespec) (nextTimeoutUsec : Int)
deriving DecidableEq, Repr

-- Where the thread is: outside, at the head of the loop, or in the function of an element.
inductive Control where
  | idle
  | walking (now : Timespec) (element : Option Nat)
  | calling (now : Timespec) (element : Nat) (elementNext : Option Nat)
deriving DecidableEq, Repr

structure State where
  timers : List TimerCallbackInfo
  nextId : Nat
  control : Control
  clock : Timespec
  log : List Event
deriving DecidableEq, Repr

def initTimer (clock : Timespec) : State := ⟨[],0,.idle,clock,[]⟩

section Code

def insertTimerCallback (newCb : TimerCallbackInfo) : List TimerCallbackInfo → List TimerCallbackInfo
  | [] => [newCb]
  | cb :: rest =>
    if timespecLessThen newCb.expiresAt cb.expiresAt then newCb :: cb :: rest
    else cb :: insertTimerCallback newCb rest

def State.insertNew (s : State) (now : Timespec) (t : TimerCallbackInfo) : State :=
  { s with
    timers := insertTimerCallback t s.timers
    nextId := s.nextId + 1
    clock := now
    log := s.log ++ [.added t] }

def addTimerEventCallback (reading : Option Timespec) (interval value : Timespec) (callback userData : Nat)
    (s : State) : Run Fault (Bool × State) :=
  match reading with
  | none => .ok (false,s)
  | some now =>
    if validTimespec value then do
      let expiresAt ← addTimespec now value
      pure (true,s.insertNew now ⟨s.nextId,some callback,expiresAt,interval,userData⟩)
    else if validTimespec interval then do
      let expiresAt ← addTimespec now interval
      pure (true,s.insertNew now ⟨s.nextId,some callback,expiresAt,interval,userData⟩)
    else .ok (false,{ s with clock := now })

def addPeriodicEventCallback (reading : Option Timespec) (sec : Int) (h : timeMin ≤ sec ∧ sec ≤ timeMax)
    (callback userData : Nat) (s : State) : Run Fault (Bool × State) :=
  addTimerEventCallback reading (seconds sec h) zero callback userData s

def update (i : Nat) (g : TimerCallbackInfo → TimerCallbackInfo) (timers : List TimerCallbackInfo) : List TimerCallbackInfo :=
  timers.map fun t => if t.id = i then g t else t

def TimerCallbackInfo.cleared (t : TimerCallbackInfo) : TimerCallbackInfo :=
  { t with function := none, userData := 0, expiresAt := zero, interval := zero }

def TimerCallbackInfo.calls (t : TimerCallbackInfo) (callback userData : Nat) : Bool :=
  t.function = some callback && t.userData = userData

def deleteTimerEvent (callback userData : Nat) (s : State) : Bool × State :=
  let log := s.log ++ [.deleted callback userData]
  match s.timers.find? (·.calls callback userData) with
  | none => (false,{ s with log })
  | some t => (true,{ s with timers := update t.id TimerCallbackInfo.cleared s.timers, log })

def deleteDlistElement (i : Nat) (timers : List TimerCallbackInfo) : List TimerCallbackInfo := timers.filter (·.id ≠ i)

def lookup (i : Nat) (timers : List TimerCallbackInfo) : Run Fault TimerCallbackInfo :=
  match timers.find? (·.id = i) with
  | none => .error .outOfBounds
  | some t => .ok t

def elementNext (i : Nat) (timers : List TimerCallbackInfo) : Option Nat :=
  (timers.dropWhile (·.id ≠ i)).tail.head?.map TimerCallbackInfo.id

-- on_timer behind the call of the function
def afterCall (now : Timespec) (t : TimerCallbackInfo) : Run Fault TimerCallbackInfo :=
  if validTimespec t.interval then do
    let expiresAt ← addTimespec t.expiresAt t.interval
    pure { t with expiresAt := if timespecLessThen expiresAt now then now else expiresAt }
  else pure { t with expiresAt := zero, function := none }

-- The element goes; its callback is freed or comes in again.
def moveOn (t : TimerCallbackInfo) (timers : List TimerCallbackInfo) : List TimerCallbackInfo :=
  if t.live then insertTimerCallback t (deleteDlistElement t.id timers) else deleteDlistElement t.id timers

def maxTimeout : Timespec := seconds (2147483647 / 1000000) (by decide)
def minTimeout : Timespec := zero

def nextTimeout (now : Timespec) (timers : List TimerCallbackInfo) : Run Fault Int :=
  match timers with
  | [] => timespecToMicroseconds maxTimeout
  | callback :: _ =>
    if timespecLessThen callback.expiresAt now then timespecToMicroseconds minTimeout
    else do
      let timeout ← subTimespec callback.expiresAt now
      if timespecLessThen timeout maxTimeout then timespecToMicroseconds timeout
      else timespecToMicroseconds maxTimeout

def endPass (now : Timespec) (s : State) : Run Fault State := do
  let usec ← nextTimeout now s.timers
  pure { s with control := .idle, log := s.log ++ [.passed now usec] }

-- One turn of the loop of execute_timer_events, up to the call of a function.
def visit (now : Timespec) (element : Option Nat) (s : State) : Run Fault State :=
  match element with
  | none => endPass now s
  | some i => do
    let t ← lookup i s.timers
    let next := elementNext i s.timers
    if t.live then
      if timespecLessThen now t.expiresAt then endPass now s
      else if validTimespec t.expiresAt then
        pure { s with control := .calling now i next, log := s.log ++ [.called i now] }
      else pure { s with timers := moveOn t s.timers, control := .walking now next }
    else pure { s with timers := moveOn t s.timers, control := .walking now next }

-- The rest of the turn, when the function has returned.
def comeBack (now : Timespec) (i : Nat) (next : Option Nat) (s : State) : Run Fault State := do
  let t ← lookup i s.timers
  let t ← afterCall now t
  pure { s with
    timers := moveOn t s.timers
    control := .walking now next
    log := s.log ++ [.returned i now] }

end Code

inductive Action where
  | add (reading : Option Timespec) (interval value : Timespec) (callback userData : Nat)
  | addPeriodic (reading : Option Timespec) (sec : Int) (h : timeMin ≤ sec ∧ sec ≤ timeMax)
      (callback userData : Nat)
  | delete (callback userData : Nat)
  | execute (now : Timespec)
  | visit
  | comeBack

-- What callers and timer functions do.
def useTimers (a : Action) (s : State) : Run Fault State :=
  match a with
  | .add reading interval value callback userData => do
    let (_,s) ← addTimerEventCallback reading interval value callback userData s
    pure s
  | .addPeriodic reading sec h callback userData => do
    let (_,s) ← addPeriodicEventCallback reading sec h callback userData s
    pure s
  | .delete callback userData => .ok (deleteTimerEvent callback userData s).2
  | .execute _ | .visit | .comeBack => .error (.rejected .misplaced)

def step (s : State) (a : Action) : Run Fault State :=
  match s.control,a with
  | .idle, .execute now =>
    .ok { s with control := .walking now (s.timers.head?.map TimerCallbackInfo.id), clock := now }
  | .walking now element, .visit => visit now element s
  | .calling now i next, .comeBack => comeBack now i next s
  | .walking _ _, _ => .error (.rejected .misplaced)
  | _, a => useTimers a s

-- The clock readings of a step, none before the last one, and no negative times.
def Action.Timely (a : Action) (clock : Timespec) : Prop :=
  match a with
  | .add reading interval value _ _ =>
    (∀ now, reading = some now → timespecLessThen now clock = false) ∧ 0 ≤ interval.tvSec ∧ 0 ≤ value.tvSec
  | .addPeriodic reading _ _ _ _ => ∀ now, reading = some now → timespecLessThen now clock = false
  | .execute now => timespecLessThen now clock = false
  | .delete _ _ | .visit | .comeBack => True

inductive Reached : State → Prop
  | init (clock : Timespec) (h : 0 ≤ clock.tvSec) : Reached (initTimer clock)
  | step {s s' : State} {a : Action} (h : Reached s) (htimely : a.Timely s.clock) (hstep : step s a = .ok s') :
      Reached s'

end Trema.Timer
