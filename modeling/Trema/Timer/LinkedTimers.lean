import Trema.Timer.Passes
import Trema.Utility.DoublyLinkedList

namespace Trema.Timer.Linked

open Library Utility

-- The element the loop is at, the callback whose function it has called, and element_next are pointers.
inductive Place where
  | idle
  | walking (now : Timespec) (element : Option Nat)
  | calling (now : Timespec) (element callback : Nat) (elementNext : Option Nat)
deriving DecidableEq, Repr

-- The elements and the callbacks that xmalloc has given out; the `id` of a callback is its address.
structure Memory where
  elements : Elements Nat
  callbacks : List (Option TimerCallbackInfo)
  timerCallbacks : Nat
  place : Place
  clock : Timespec
  timeouts : List Int
deriving DecidableEq, Repr

def initTimer (clock : Timespec) : Memory :=
  let (timerCallbacks,elements) := createDlist []
  ⟨elements,[],timerCallbacks,.idle,clock,[]⟩

section Code

def pointer (p : Option Nat) : Run Fault Nat :=
  match p with
  | none => .error .outOfBounds
  | some a => .ok a

def callbackAt (callbacks : List (Option TimerCallbackInfo)) (a : Nat) : Run Fault TimerCallbackInfo :=
  match callbacks[a]?.join with
  | none => .error .outOfBounds
  | some cb => .ok cb

def xfree (callbacks : List (Option TimerCallbackInfo)) (a : Nat) : Run Fault (List (Option TimerCallbackInfo)) := do
  let _ ← callbackAt callbacks a
  pure (callbacks.set a none)

-- The loop of insert_timer_callback from `element` on, with the element before it.
def insertFrom (m : Memory) (newCb : TimerCallbackInfo) : Nat → Option Nat → Nat → Run Fault (Elements Nat)
  | 0, _, _ => .error .outOfFuel
  | _ + 1, none, last => do
    let (_,elements) ← insertAfterDlist m.elements (some last) (some newCb.id)
    pure elements
  | fuel + 1, some e, _ => do
    let x ← element m.elements e
    let a ← pointer x.data
    let cb ← callbackAt m.callbacks a
    if timespecLessThen newCb.expiresAt cb.expiresAt then do
      let (_,elements) ← insertBeforeDlist m.elements (some e) (some newCb.id)
      pure elements
    else insertFrom m newCb fuel x.next e

def insertTimerCallback (newCb : Nat) (m : Memory) : Run Fault Memory := do
  let cb ← callbackAt m.callbacks newCb
  let head ← element m.elements m.timerCallbacks
  let elements ← insertFrom m cb (m.elements.length + 1) head.next m.timerCallbacks
  pure { m with elements := elements }

-- What insert_timer_callback is called with in add_timer_event_callback.
def insertNew (m : Memory) (now interval expiresAt : Timespec) (callback userData : Nat) : Run Fault Memory :=
  let cb := m.callbacks.length
  insertTimerCallback cb { m with
    callbacks := m.callbacks ++ [some ⟨cb,some callback,expiresAt,interval,userData⟩]
    clock := now }

-- A callback that is freed again keeps its address.
def addTimerEventCallback (reading : Option Timespec) (interval value : Timespec) (callback userData : Nat)
    (m : Memory) : Run Fault (Bool × Memory) :=
  match reading with
  | none => .ok (false,{ m with callbacks := m.callbacks ++ [none] })
  | some now =>
    if validTimespec value then do
      let expiresAt ← addTimespec now value
      let m ← insertNew m now interval expiresAt callback userData
      pure (true,m)
    else if validTimespec interval then do
      let expiresAt ← addTimespec now interval
      let m ← insertNew m now interval expiresAt callback userData
      pure (true,m)
    else .ok (false,{ m with callbacks := m.callbacks ++ [none], clock := now })

def addPeriodicEventCallback (reading : Option Timespec) (sec : Int) (h : timeMin ≤ sec ∧ sec ≤ timeMax)
    (callback userData : Nat) (m : Memory) : Run Fault (Bool × Memory) :=
  addTimerEventCallback reading (seconds sec h) zero callback userData m

def findFrom (m : Memory) (callback userData : Nat) : Nat → Option Nat → Run Fault (Option Nat)
  | 0, _ => .error .outOfFuel
  | _ + 1, none => .ok none
  | fuel + 1, some e => do
    let x ← element m.elements e
    let a ← pointer x.data
    let cb ← callbackAt m.callbacks a
    if cb.calls callback userData then pure (some a) else findFrom m callback userData fuel x.next

def deleteTimerEvent (callback userData : Nat) (m : Memory) : Run Fault (Bool × Memory) := do
  let head ← element m.elements m.timerCallbacks
  match ← findFrom m callback userData (m.elements.length + 1) head.next with
  | none => pure (false,m)
  | some a => do
    let cb ← callbackAt m.callbacks a
    pure (true,{ m with callbacks := m.callbacks.set a (some cb.cleared) })

-- The end of a turn: the element goes, and its callback is freed or comes in again.
def moveOn (e a : Nat) (m : Memory) : Run Fault Memory := do
  let elements ← Utility.deleteDlistElement m.elements (some e)
  let m := { m with elements := elements }
  let cb ← callbackAt m.callbacks a
  if cb.live then insertTimerCallback a m
  else do
    let callbacks ← xfree m.callbacks a
    pure { m with callbacks := callbacks }

def nextTimeout (now : Timespec) (m : Memory) : Run Fault Int := do
  let head ← element m.elements m.timerCallbacks
  match head.next with
  | none => Timer.nextTimeout now []
  | some e => do
    let x ← element m.elements e
    let a ← pointer x.data
    let cb ← callbackAt m.callbacks a
    Timer.nextTimeout now [cb]

def endPass (now : Timespec) (m : Memory) : Run Fault Memory := do
  let usec ← nextTimeout now m
  pure { m with place := .idle, timeouts := m.timeouts ++ [usec] }

def visit (now : Timespec) (p : Option Nat) (m : Memory) : Run Fault Memory :=
  match p with
  | none => endPass now m
  | some e => do
    let x ← element m.elements e
    let a ← pointer x.data
    let cb ← callbackAt m.callbacks a
    if cb.live then
      if timespecLessThen now cb.expiresAt then endPass now m
      else if validTimespec cb.expiresAt then pure { m with place := .calling now e a x.next }
      else do
        let m ← moveOn e a m
        pure { m with place := .walking now x.next }
    else do
      let m ← moveOn e a m
      pure { m with place := .walking now x.next }

def comeBack (now : Timespec) (e a : Nat) (next : Option Nat) (m : Memory) : Run Fault Memory := do
  let cb ← callbackAt m.callbacks a
  let cb ← afterCall now cb
  let m ← moveOn e a { m with callbacks := m.callbacks.set a (some cb) }
  pure { m with place := .walking now next }

end Code

def useTimers (a : Action) (m : Memory) : Run Fault Memory :=
  match a with
  | .add reading interval value callback userData => do
    let (_,m) ← addTimerEventCallback reading interval value callback userData m
    pure m
  | .addPeriodic reading sec h callback userData => do
    let (_,m) ← addPeriodicEventCallback reading sec h callback userData m
    pure m
  | .delete callback userData => do
    let (_,m) ← deleteTimerEvent callback userData m
    pure m
  | .execute _ | .visit | .comeBack => .error (.rejected .misplaced)

def execute (now : Timespec) (m : Memory) : Run Fault Memory := do
  let head ← element m.elements m.timerCallbacks
  pure { m with place := .walking now head.next, clock := now }

def step (m : Memory) (a : Action) : Run Fault Memory :=
  match m.place,a with
  | .idle, .execute now => execute now m
  | .walking now p, .visit => visit now p m
  | .calling now e cb next, .comeBack => comeBack now e cb next m
  | .walking _ _, _ => .error (.rejected .misplaced)
  | _, a => useTimers a m

inductive Reached : Memory → Prop
  | init (clock : Timespec) (h : 0 ≤ clock.tvSec) : Reached (initTimer clock)
  | step {m m' : Memory} {a : Action} (h : Reached m) (htimely : a.Timely m.clock)
      (hstep : Linked.step m a = .ok m') : Reached m'

end Trema.Timer.Linked
