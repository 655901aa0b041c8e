import Trema.SecureChannel.Sessions
import Trema.SecureChannel.Sender

namespace Trema.SecureChannel

open Library
open OpenFlow (Exec abortIf)

inductive ConnectionState where
  | init
  | connecting
  | connected
  | disconnected
deriving DecidableEq, Repr

inductive Callback where
  | none
  | checkConnected
  | established
deriving DecidableEq, Repr

-- What passed over the latest connection, and the messages that were to pass over it.
structure Link where
  incoming : Bytes
  delivered : List Bytes
  outgoing : Bytes
  offered : List Bytes
deriving DecidableEq, Repr

-- pending holds the queued messages as they were handed over.
structure Channel where
  state : ConnectionState
  fd : Bool
  callback : Callback
  readable : Bool
  writable : Bool
  timers : Nat
  receiver : Receiver
  sendQueue : MessageQueue Buffer
  pending : List Bytes
  link : Link
deriving DecidableEq, Repr

inductive ConnectResult where
  | noSocket
  | retry
  | refused
  | inProgress
deriving DecidableEq, Repr

inductive CheckResult where
  | noAnswer
  | connected
  | retry
  | inProgress
  | refused
deriving DecidableEq, Repr

def transitState (current state : ConnectionState) : ConnectionState :=
  match current with
  | .init => if state = .connecting then state else current
  | .connecting => if state = .connected ∨ state = .connecting then state else current
  | .connected => if state = .disconnected ∨ state = .init then state else current
  | .disconnected => if state = .connected then state else current

namespace Channel

def setWritable (c : Channel) (state : Bool) : Channel :=
  if c.callback = .none then c else { c with writable := state }

def clearConnection (c : Channel) : Channel :=
  let c := if c.fd then { c with callback := .none, readable := false, writable := false } else c
  { c with fd := false, state := .init }

def disconnected (c : Channel) : Channel :=
  { c with state := transitState c.state .disconnected }.clearConnection

def backoff (c : Channel) : Channel := { c with timers := c.timers + 1 }

def connected (c : Channel) : Channel :=
  { c with
    state := transitState c.state .connected
    callback := .established
    readable := true
    writable := false
    link := ⟨[],[],[],c.pending⟩ }

def tryConnect (c : Channel) (connect : ConnectResult) : Exec (Bool × Channel) := do
  abortIf (c.state = .connected)
  let opened := { c with fd := true, state := transitState c.state .connecting }
  match connect with
  | .noSocket => pure (false,c)
  | .retry => pure (true,opened.backoff)
  | .refused => pure (false,opened.clearConnection)
  | .inProgress => pure (true,{ opened with callback := .checkConnected, writable := true })

def reconnect (c : Channel) (connect : ConnectResult) : Exec Channel := do
  let tried ← c.tryConnect connect
  pure (if tried.1 then tried.2 else tried.2.clearConnection)

def checkConnected (c : Channel) (result : CheckResult) : Exec Channel := do
  abortIf (c.fd = false)
  let c := { c with callback := .none, writable := false }
  match result with
  | .noAnswer => pure c
  | .connected => pure c.connected
  | .retry => pure c.backoff
  | .inProgress => pure { c with callback := .checkConnected, writable := true }
  | .refused => pure c.clearConnection

-- What the callbacks send while they run is a send of its own, right behind this step.
def handMessage (message : Buffer) (delivered : List Bytes) : Exec (List Bytes) := do
  abortIf (message.length < 8)
  pure (delivered ++ [message.bytes])

def recvFromSecureChannel (heap : Nat → UInt8) (c : Channel) (read : ReadResult)
    (connect : ConnectResult) : Exec Channel := do
  let received ← SecureChannel.recvFromSecureChannel heap Side.switch.accepts c.receiver read
  let c := { c with receiver := received.2 }
  match received.1 with
  | .failed => pure c
  | .badVersion => pure c
  | .closed => c.disconnected.reconnect connect
  | .done =>
    let queue := c.receiver.recvQueue
    let delivered ← deliverQueue handMessage queue.elements.length queue c.link.delivered
    pure { c with
      receiver := { c.receiver with recvQueue := delivered.1 }
      link := { c.link with
        incoming := c.link.incoming ++ read.chunk
        delivered := delivered.2 } }

structure Flushing where
  queue : MessageQueue Buffer
  outgoing : Bytes
  pending : List Bytes
  writable : Bool
deriving DecidableEq, Repr

def flushMessages : List WriteResult → Flushing → Exec Flushing
  | [], f =>
    match peekMessage f.queue with
    | none => pure f
    | some _ => pure { f with writable := true }
  | write :: writes, f =>
    match peekMessage f.queue with
    | none => pure f
    | some buf =>
      match write with
      | .again => pure { f with writable := true }
      | .failed => pure f
      | .wrote writeLength =>
        let outgoing := f.outgoing ++ buf.bytes.take writeLength
        if writeLength < buf.length then do
          let buf ← removeFrontBuffer buf writeLength
          pure ⟨f.queue.update buf,outgoing,f.pending,true⟩
        else flushMessages writes ⟨(dequeueMessage f.queue).2,outgoing,f.pending.tail,f.writable⟩

def flushSendQueue (c : Channel) (writes : List WriteResult) : Exec Channel := do
  abortIf (c.fd = false)
  let f ← flushMessages writes ⟨c.sendQueue,c.link.outgoing,c.pending,false⟩
  pure { c with
    sendQueue := f.queue
    pending := f.pending
    writable := f.writable
    link := { c.link with outgoing := f.outgoing } }

def sendMessageToSecureChannel (c : Channel) (message : Buffer) : Exec Channel := do
  abortIf (message.length = 0)
  abortIf (c.state ≠ .connected)
  abortIf (c.fd = false)
  let c := if c.sendQueue.length = 0 then c.setWritable true else c
  pure { c with
    sendQueue := enqueueMessage c.sendQueue message
    pending := c.pending ++ [message.bytes]
    link := { c.link with offered := c.link.offered ++ [message.bytes] } }

end Channel

inductive ChannelEvent where
  | readable (read : ReadResult) (connect : ConnectResult)
  | writable (writes : List WriteResult)
  | check (result : CheckResult)
  | timer (connect : ConnectResult)
  | send (message : Buffer)
deriving DecidableEq, Repr

def ChannelEvent.step (heap : Nat → UInt8) (c : Channel) : ChannelEvent → Exec Channel
  | .readable read connect => c.recvFromSecureChannel heap read connect
  | .writable writes => c.flushSendQueue writes
  | .check result => c.checkConnected result
  | .timer connect => { c with timers := c.timers - 1 }.reconnect connect
  | .send message => c.sendMessageToSecureChannel message

def channelRun (heap : Nat → UInt8) : Channel → List ChannelEvent → Exec Channel
  | c, [] => pure c
  | c, event :: events => do
    let c ← event.step heap c
    channelRun heap c events

-- init_secure_channel before its call of try_connect.
def Channel.unconnected : Channel :=
  ⟨.init,false,.none,false,false,0,Receiver.init,createMessageQueue,[],⟨[],[],[],[]⟩⟩

def initSecureChannel (connect : ConnectResult) : Exec (Bool × Channel) := do
  let tried ← Channel.unconnected.tryConnect connect
  pure (tried.1,if tried.1 then tried.2 else tried.2.clearConnection)

end Trema.SecureChannel
