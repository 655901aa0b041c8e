import Trema.EventForward.ServiceList
import Trema.OpenFlow.ApplicationInterface
import Trema.OpenFlow.Create

namespace Trema.OpenFlow

open Library
open PacketinFilter (CString)
open EventForward (cstring)

def messengerOpenflowMessage : UInt16 := 1

-- A context's callback and its user data.
inductive Origin where
  | secureChannel
  | service (name : CString)
deriving DecidableEq

structure OpenflowContext where
  transactionId : UInt32
  message : Bytes
  origin : Origin
  createdAt : Int
deriving DecidableEq

inductive SentMessage where
  | toSecureChannel (message : Bytes)
  | toService (name : CString) (tag : UInt16) (data : Bytes)
deriving DecidableEq

structure SwitchInterface where
  connected : Bool := false
  contexts : List OpenflowContext := []
  sent : List SentMessage := []
  events : List SwitchEvent := []

def contextLifetime : Int := 5

def strndup (m : Bytes) (off n : Nat) : CString := cstring (slice m off n)

section Messages

variable (heap : Nat → UInt8)

-- The datapath id of the header is left as the memory has it.
def serviceEnvelope (name : CString) (message : Bytes) : Exec Bytes := do
  let nameLength := name.bytes.length + 1
  let data := xmalloc heap (10 + nameLength) ++ message
  let data ← store data 8 (toNet16 (UInt16.ofNat nameLength))
  store data 10 (name.bytes ++ [0])

def helloFailedDescription : UInt16 → Option Bytes
  | 0 => some (characters "Incompatible OpenFlow version.".toList ++ [0])
  | 1 => some (characters "Permissions error.".toList ++ [0])
  | _ => none

-- The codes of the error types that quote the original message.
def quotingCodes : UInt16 → List UInt16
  | 1 => [0,1,2,3,4,5,6,7,8]
  | 2 => [0,1,2,3,4,5,6,7,8]
  | 3 => [0,1,2,3,4,5]
  | 4 => [0,1]
  | 5 => [0,1,2]
  | _ => []

end Messages

namespace SwitchInterface

section Table

variable (s : SwitchInterface)

def lookupContext (transactionId : UInt32) : Option OpenflowContext :=
  s.contexts.find? (·.transactionId = transactionId)

def saveContext (transactionId : UInt32) (message : Bytes) (origin : Origin) (now : Int) : SwitchInterface :=
  if s.lookupContext transactionId ≠ none then s
  else { s with contexts := ⟨transactionId,message,origin,now⟩ :: s.contexts }

def deleteContext (transactionId : UInt32) : SwitchInterface :=
  { s with contexts := s.contexts.filter (·.transactionId ≠ transactionId) }

def ageContext (now : Int) (s : SwitchInterface) (c : OpenflowContext) : SwitchInterface :=
  if c.createdAt + contextLifetime ≤ now then s.deleteContext c.transactionId else s

def ageContexts (now : Int) : SwitchInterface := s.contexts.foldl (ageContext now) s

end Table

section Sending

variable (heap : Nat → UInt8) (s : SwitchInterface) (ok : Bool)

def sendMessageToSecureChannel (message : Bytes) : Exec (Bool × SwitchInterface) := do
  abortIf (message.length = 0)
  abortIf (s.connected = false)
  pure (true,{ s with sent := s.sent ++ [.toSecureChannel message] })

-- `ok` is what the messenger answers.
def sendOpenflowMessageToLocal (name : CString) (message : Bytes) : Exec (Bool × SwitchInterface) := do
  let data ← serviceEnvelope heap name message
  pure (ok,{ s with sent := s.sent ++ [.toService name messengerOpenflowMessage data] })

def sendTo (message : Bytes) : Origin → Exec (Bool × SwitchInterface)
  | .secureChannel => s.sendMessageToSecureChannel message
  | .service name => s.sendOpenflowMessageToLocal heap ok name message

def switchSendOpenflowMessage (message : Bytes) : Exec (Bool × SwitchInterface) := do
  abortIf (message.length < 8)
  let transactionId ← net32 message 4
  match s.lookupContext transactionId with
  | some c => s.sendTo heap ok message c.origin
  | none => s.sendTo heap ok message .secureChannel

def getOpenflowMessage (transactionId : UInt32) : Option Bytes :=
  (s.lookupContext transactionId).map OpenflowContext.message

-- The data of an error, `none` where the type or the code is undefined.
def errorData (transactionId : UInt32) (type code : UInt16) : Option (Option Bytes) :=
  if type = 0 then (helloFailedDescription code).map some
  else if code ∈ quotingCodes type then some ((s.getOpenflowMessage transactionId).map (·.take 64))
  else none

def sendErrorMessage (transactionId : UInt32) (type code : UInt16) : Exec (Bool × SwitchInterface) :=
  match s.errorData transactionId type code with
  | none => pure (false,s)
  | some data => do
    let err ← createError transactionId type code data
    s.switchSendOpenflowMessage heap ok err

end Sending

section Receiving

variable (fuel : Nat) (handlers : Handlers) (s : SwitchInterface)

def handle (message : Bytes) : Exec (Bool × SwitchInterface) := do
  let handled ← handleOpenflowMessage fuel handlers message
  pure (handled.ret,{ s with events := s.events ++ handled.events })

def handleSecureChannelMessage (message : Bytes) (now : Int) : Exec (Bool × SwitchInterface) := do
  abortIf (message.length < 8)
  let transactionId ← net32 message 4
  (s.saveContext transactionId message .secureChannel now).handle fuel handlers message

def handleLocalMessage (tag : UInt16) (data : Bytes) (now : Int) : Exec SwitchInterface := do
  abortIf (data.length < 10)
  if tag = messengerOpenflowMessage then
    let serviceNameLength ← net16 data 8
    let ofpOffset := 10 + serviceNameLength.toNat
    let ofpLength := subSize data.length ofpOffset
    abortIf (ofpLength = 0)
    let message ← load data ofpOffset ofpLength
    let serviceName := strndup data 10 serviceNameLength.toNat
    let transactionId ← net32 message 4
    let handled ← (s.saveContext transactionId message (.service serviceName) now).handle fuel handlers message
    pure handled.2
  else pure s

end Receiving

end SwitchInterface

inductive InterfaceEvent where
  | remote (message : Bytes) (now : Int)
  | service (tag : UInt16) (data : Bytes) (now : Int)
  | age (now : Int)
  | connection (up : Bool)
  | send (message : Bytes) (ok : Bool)
  | sendError (transactionId : UInt32) (type code : UInt16) (ok : Bool)

namespace SwitchInterface

variable (heap : Nat → UInt8) (fuel : Nat) (handlers : Handlers)

def step (s : SwitchInterface) : InterfaceEvent → Exec SwitchInterface
  | .remote message now => do
    let handled ← s.handleSecureChannelMessage fuel handlers message now
    pure handled.2
  | .service tag data now => s.handleLocalMessage fuel handlers tag data now
  | .age now => pure (s.ageContexts now)
  | .connection up => pure { s with connected := up }
  | .send message ok => do
    let sent ← s.switchSendOpenflowMessage heap ok message
    pure sent.2
  | .sendError transactionId type code ok => do
    let sent ← s.sendErrorMessage heap ok transactionId type code
    pure sent.2

def run (s : SwitchInterface) : List InterfaceEvent → Exec SwitchInterface
  | [] => pure s
  | e :: events => do
    let s ← s.step heap fuel handlers e
    run s events

end SwitchInterface

end Trema.OpenFlow
