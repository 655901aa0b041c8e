import Trema.Messenger.SendQueue
import Trema.Messenger.Context

namespace Trema.Messenger

open Library
open OpenFlow (subSize subSize_of_le)

inductive MessageType where
  | notify
  | request
  | reply
deriving DecidableEq, Repr

def MessageType.code : MessageType → UInt8
  | .notify => 0
  | .request => 1
  | .reply => 2

structure ReceiveQueueCallback where
  function : Nat
  messageType : MessageType
deriving DecidableEq, Repr

structure ReceiveQueue where
  messageCallbacks : List ReceiveQueueCallback
  buffer : MessageBuffer

def createReceiveQueue (heap : Nat → UInt8) : ReceiveQueue :=
  ⟨[],createMessageBuffer heap messengerRecvQueueLength⟩

def addMessageCallback (rq : ReceiveQueue) (messageType : MessageType) (callback : Nat) : ReceiveQueue :=
  { rq with messageCallbacks := ⟨callback,messageType⟩ :: rq.messageCallbacks }

def registered (heap : Nat → UInt8) (callbacks : List ReceiveQueueCallback) : ReceiveQueue :=
  callbacks.foldr (fun cb rq => addMessageCallback rq cb.messageType cb.function) (createReceiveQueue heap)

structure Pulled where
  messageType : UInt8
  tag : UInt16
  data : Bytes
  len : Nat
deriving DecidableEq, Repr

def pullFromRecvQueue (buf : MessageBuffer) : Except Fault (Option (Pulled × MessageBuffer)) :=
  if buf.dataLength < sizeofMessageHeader then .ok none
  else
    let length := (be32 buf.buffer (buf.headOffset + 4)).toNat
    if length = 0 then .error .assertionFailed
    else if ¬ length < messengerRecvQueueLength then .error .assertionFailed
    else if buf.dataLength < length then .ok none
    else
      let len := subSize length sizeofMessageHeader
      let data := slice buf.buffer (buf.headOffset + 8) (min len messengerRecvBuffer)
      .ok (some (⟨hostByte buf.buffer (buf.headOffset + 1),be16 buf.buffer (buf.headOffset + 2),data,len⟩,
        truncateMessageBuffer buf length))

section Callbacks

variable {υ : Type}

-- A call of a registered function, with the bytes its data pointer and length span.
inductive Call (υ : Type) where
  | received (function : Nat) (tag : UInt16) (data : Bytes) (len : Nat)
  | requested (function : Nat) (transactionId : UInt32) (serviceName : Bytes) (tag : UInt16) (data : Bytes)
      (len : Nat)
  | replied (function : Nat) (tag : UInt16) (data : Bytes) (len : Nat) (userData : υ)
deriving DecidableEq, Repr

def sizeofMessengerContextHandle : Nat := 8

-- The two fields of the handle are converted where they lie.
def handleToHost (data : Bytes) : Bytes :=
  overwrite (overwrite data 0 (toHost32 (be32 data 0))) 4 (toHost16 (be16 data 4))

-- `react` are the user data of the requests that a called function sends before it returns.
def callMessageCallbacks (react : Call υ → List υ) (m : Pulled) :
    List ReceiveQueueCallback → Bytes → Contexts υ → List (Call υ) × Contexts υ
  | [], _, c => ([],c)
  | cb :: callbacks, data, c =>
    if cb.messageType.code ≠ m.messageType then callMessageCallbacks react m callbacks data c
    else
      match cb.messageType with
      | .notify =>
        let call := Call.received cb.function m.tag data m.len
        let rest := callMessageCallbacks react m callbacks data (insertContexts (react call) c).2
        (call :: rest.1,rest.2)
      | .request =>
        let transactionId := be32 data 0
        let serviceNameLen := (be16 data 4).toNat
        let data := handleToHost data
        let headerLen := sizeofMessengerContextHandle + serviceNameLen
        let len := subSize m.len headerLen
        let call := Call.requested cb.function transactionId
          (slice data sizeofMessengerContextHandle serviceNameLen) m.tag (slice data headerLen len) len
        let rest := callMessageCallbacks react m callbacks data (insertContexts (react call) c).2
        (call :: rest.1,rest.2)
      | .reply =>
        let transactionId := be32 data 0
        let data := handleToHost data
        let len := subSize m.len sizeofMessengerContextHandle
        match getContext c transactionId with
        | none => callMessageCallbacks react m callbacks data c
        | some context =>
          let call := Call.replied cb.function m.tag (slice data sizeofMessengerContextHandle len) len
            context.userData
          let rest := callMessageCallbacks react m callbacks data
            (replyContext c transactionId (react call)).2.2
          (call :: rest.1,rest.2)

-- A message that was pulled, with the context table its callbacks found and the calls that were made.
structure Handled (υ : Type) where
  message : Pulled
  contexts : Contexts υ
  calls : List (Call υ)

structure Handling (υ : Type) where
  handled : List (Handled υ)
  buffer : MessageBuffer
  contexts : Contexts υ

def pullLoop (react : Call υ → List υ) (callbacks : List ReceiveQueueCallback) :
    Nat → MessageBuffer → Contexts υ → Except Fault (Handling υ)
  | 0, _, _ => .error .outOfFuel
  | fuel + 1, buf, c =>
    match pullFromRecvQueue buf with
    | .error e => .error e
    | .ok none => .ok ⟨[],buf,c⟩
    | .ok (some (m,buf)) =>
      let called := callMessageCallbacks react m callbacks m.data c
      match pullLoop react callbacks fuel buf called.2 with
      | .error e => .error e
      | .ok r => .ok ⟨⟨m,c,called.1⟩ :: r.handled,r.buffer,r.contexts⟩

structure Received where
  buffer : MessageBuffer
  waiting : List Bytes
  closed : Bool

-- The socket holds the packets; when there are none left, `closes` tells whether recv reports the end of
-- the connection or EAGAIN.
def recvLoop (closes : Bool) : List Bytes → MessageBuffer → Received
  | [], buf => ⟨buf,[],if messageBufferRemainBytes buf > messengerRecvQueueReserved then closes else false⟩
  | packet :: packets, buf =>
    if messageBufferRemainBytes buf > messengerRecvQueueReserved then
      let data := packet.take (min (messageBufferRemainBytes buf) messengerRecvBuffer)
      if data.length = 0 then ⟨buf,packets,true⟩
      else recvLoop closes packets (writeMessageBuffer buf data).2
    else ⟨buf,packet :: packets,false⟩

structure Pass (υ : Type) where
  handled : List (Handled υ)
  rq : ReceiveQueue
  contexts : Contexts υ
  waiting : List Bytes
  closed : Bool

def onRecv (react : Call υ → List υ) (rq : ReceiveQueue) (c : Contexts υ) (packets : List Bytes)
    (closes : Bool) : Except Fault (Pass υ) :=
  let received := recvLoop closes packets rq.buffer
  match pullLoop react rq.messageCallbacks (received.buffer.dataLength + 1) received.buffer c with
  | .error e => .error e
  | .ok r => .ok ⟨r.handled,{ rq with buffer := r.buffer },r.contexts,received.waiting,received.closed⟩

end Callbacks

end Trema.Messenger
