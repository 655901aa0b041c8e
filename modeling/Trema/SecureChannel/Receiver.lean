import Trema.SecureChannel.Buffer
import Trema.SecureChannel.MessageQueue
import Trema.Library.Framing

namespace Trema.SecureChannel

open Library
open OpenFlow (Exec abortIf xmalloc subSize)

def receiveBufferSize : Nat := 65535 + 20 - 2

inductive ReadResult where
  | data (bytes : Bytes)
  | again
  | failed
  | closed
deriving DecidableEq, Repr

inductive Received where
  | done
  | failed
  | closed
  | badVersion
deriving DecidableEq, Repr

structure Receiver where
  recvQueue : MessageQueue Buffer
  fragmentBuf : Option Buffer
deriving DecidableEq, Repr

structure Reading where
  fragment : Buffer
  recvQueue : MessageQueue Buffer
  readTotal : Nat
deriving DecidableEq, Repr

section Operations

-- valid is valid_message_version in the daemon; the switch side makes no such check.
variable (heap : Nat → UInt8) (valid : UInt8 → UInt8 → Bool)

def copyMessage (fragment : Buffer) (messageLength : Nat) : Exec Buffer := do
  let message ← allocBufferWithLength heap messageLength
  let appended ← appendBackBuffer heap message messageLength
  let bytes ← load fragment.top fragment.data messageLength
  let top ← store appended.2.top appended.1 bytes
  pure { appended.2 with top := top }

def cutMessages : Nat → Reading → Exec (Bool × Reading)
  | 0, _ => .error .outOfFuel
  | fuel + 1, s =>
    if s.fragment.length < 8 then pure (true,s)
    else do
      let version ← byteAt s.fragment.top s.fragment.data
      let type ← byteAt s.fragment.top (s.fragment.data + 1)
      if valid type version = false then pure (false,s)
      else
        let messageLength ← net16 s.fragment.top (s.fragment.data + 2)
        if s.fragment.length < messageLength.toNat then pure (true,s)
        else
          let message ← copyMessage heap s.fragment messageLength.toNat
          let fragment ← removeFrontBuffer s.fragment messageLength.toNat
          cutMessages fuel
            ⟨fragment,enqueueMessage s.recvQueue message,s.readTotal + messageLength.toNat⟩

def removeHeadroom (fragment : Buffer) (readTotal : Nat) : Exec Buffer :=
  if 0 < readTotal then do
    let bytes ← load fragment.top fragment.data fragment.length
    if fragment.data < readTotal then .error .outOfBounds
    else
      let top ← store fragment.top (fragment.data - readTotal) bytes
      pure ⟨top,fragment.data - readTotal,fragment.length⟩
  else pure fragment

def Receiver.fragment (r : Receiver) : Exec Buffer :=
  match r.fragmentBuf with
  | some fragment => pure fragment
  | none => allocBufferWithLength heap receiveBufferSize

def remainingLength (fragment : Buffer) : Nat := subSize receiveBufferSize fragment.length

def receive (r : Receiver) (fragment : Buffer) (bytes : Bytes) : Exec (Received × Receiver) := do
  let top ← store fragment.top (fragment.data + fragment.length) bytes
  let length := fragment.length + bytes.length
  let cut ← cutMessages heap valid (length + 1) ⟨⟨top,fragment.data,length⟩,r.recvQueue,0⟩
  if cut.1 then
    let fragment ← removeHeadroom cut.2.fragment cut.2.readTotal
    pure (.done,⟨cut.2.recvQueue,some fragment⟩)
  else
    pure (.badVersion,⟨cut.2.recvQueue,some cut.2.fragment⟩)

def recvFromSecureChannel (r : Receiver) (read : ReadResult) : Exec (Received × Receiver) :=
  if 0 < r.recvQueue.length then pure (.done,r)
  else do
    let fragment ← r.fragment heap
    let r := { r with fragmentBuf := some fragment }
    match read with
    | .again => pure (.done,r)
    | .failed => pure (.failed,r)
    | .closed => pure (.closed,r)
    | .data bytes => receive heap valid r fragment bytes

def requestedSize (r : Receiver) : Exec Nat := do
  let fragment ← r.fragment heap
  pure (remainingLength fragment)

end Operations

section Draining

variable {σ : Type} (handle : Buffer → σ → Exec σ)

def drainQueue : Nat → MessageQueue Buffer → σ → Exec (MessageQueue Buffer × σ)
  | 0, _, _ => .error .outOfFuel
  | fuel + 1, queue, s =>
    match dequeueMessage queue with
    | (none,queue) => pure (queue,s)
    | (some message,queue) => do
      let s ← handle message s
      drainQueue fuel queue s

-- The switch side asks the length field whether a message is left.
def deliverQueue : Nat → MessageQueue Buffer → σ → Exec (MessageQueue Buffer × σ)
  | 0, _, _ => .error .outOfFuel
  | fuel + 1, queue, s =>
    if queue.length = 0 then pure (queue,s)
    else
      match dequeueMessage queue with
      | (none,_) => .error .aborted
      | (some message,queue) => do
        let s ← handle message s
        deliverQueue fuel queue s

def handleAll : List Buffer → σ → Exec σ
  | [], s => pure s
  | message :: messages, s => do
    let s ← handle message s
    handleAll messages s

theorem drainQueue_eq {queue : MessageQueue Buffer} {messages : List Buffer}
    (h : Holds queue messages) {fuel : Nat} (hfuel : messages.length < fuel) :
    ∃ drained, Holds drained [] ∧ ∀ (σ : Type) (handle : Buffer → σ → Exec σ) (s : σ),
      drainQueue handle fuel queue s = (do
        let s ← handleAll handle messages s
        pure (drained,s)) := by
  induction messages generalizing queue fuel with
  | nil =>
    obtain ⟨fuel,rfl⟩ := Nat.exists_eq_add_of_lt hfuel
    exact ⟨queue,h,fun σ handle s => by rw [drainQueue,h.dequeue_nil]; rfl⟩
  | cons message messages ih =>
    obtain ⟨fuel,rfl⟩ : ∃ n, fuel = n + 1 := ⟨fuel - 1,by omega⟩
    obtain ⟨hfirst,hrest⟩ := h.dequeue
    obtain ⟨drained,hdrained,hrun⟩ := ih hrest (Nat.lt_of_succ_lt_succ hfuel)
    refine ⟨drained,hdrained,fun σ handle s => ?_⟩
    have hpair : dequeueMessage queue = (some message,(dequeueMessage queue).2) :=
      Prod.ext hfirst rfl
    rw [drainQueue,hpair,handleAll]
    cases hhandle : handle message s with
    | error e => simp only [hhandle,error_bind]
    | ok t => simpa only [hhandle,ok_bind] using hrun σ handle t

theorem deliverQueue_eq {queue : MessageQueue Buffer} {messages : List Buffer}
    (h : Holds queue messages) (hfew : messages.length < 4294967296) {fuel : Nat}
    (hfuel : messages.length < fuel) :
    ∃ drained, Holds drained [] ∧ ∀ s, deliverQueue handle fuel queue s = (do
      let s ← handleAll handle messages s
      pure (drained,s)) := by
  induction messages generalizing queue fuel with
  | nil =>
    obtain ⟨fuel,rfl⟩ := Nat.exists_eq_add_of_lt hfuel
    have hzero : queue.length = 0 := by simpa using h.counted
    exact ⟨queue,h,fun s => by rw [deliverQueue,if_pos hzero]; rfl⟩
  | cons message messages ih =>
    obtain ⟨fuel,rfl⟩ : ∃ n, fuel = n + 1 := ⟨fuel - 1,by omega⟩
    rw [List.length_cons] at hfew hfuel
    have hlength : queue.length.toNat = messages.length + 1 := by
      rw [h.counted]
      simp
      omega
    have hsome : ¬ queue.length = 0 := fun hz => by
      rw [hz] at hlength
      simp at hlength
    obtain ⟨hfirst,hrest⟩ := h.dequeue
    obtain ⟨drained,hdrained,hrun⟩ := ih hrest (by omega) (Nat.lt_of_succ_lt_succ hfuel)
    refine ⟨drained,hdrained,fun s => ?_⟩
    have hpair : dequeueMessage queue = (some message,(dequeueMessage queue).2) :=
      Prod.ext hfirst rfl
    rw [deliverQueue,if_neg hsome,hpair,handleAll]
    cases hhandle : handle message s with
    | error e => simp only [hhandle,error_bind]
    | ok t => simpa only [hhandle,ok_bind] using hrun t

end Draining

end Trema.SecureChannel
