import Trema.OpenFlow.Contexts
import Trema.OpenFlow.Verdict
import Trema.PacketinFilter.Filter
import Trema.SecureChannel.Appending
import Trema.SwitchManager.Switch

namespace Trema.SwitchManager

open Library
open Messenger (messengerServiceNameLength)
open OpenFlow (Exec abortIf validateOpenflowMessage messengerOpenflowMessage)
open SecureChannel
open PacketinFilter (CString)

def messengerOpenflowDisconnectRequest : UInt16 := 5

structure Envelope where
  datapathId : UInt64
  serviceName : Bytes
  message : Bytes
deriving DecidableEq

inductive Received where
  | dropped
  | openflowMessage (e : Envelope)
  | disconnectRequest (datapathId : UInt64)
deriving DecidableEq

section Receiving

variable (heap : Nat → UInt8) (fuel : Nat)

def readServiceName (datapathId : UInt64) (serviceNameLength : UInt16) (buf : Buffer) : Exec (Option Envelope) :=
  if serviceNameLength < 1 then pure none
  else do
    let last ← byteAt buf.bytes (serviceNameLength.toNat - 1)
    if last ≠ 0 then pure none
    else do
      let message ← removeFrontBuffer buf serviceNameLength.toNat
      pure (some ⟨datapathId,buf.bytes.takeWhile (· ≠ 0),message.bytes⟩)

-- What service_recv_from_application does before it looks at the message type.
def readEnvelope (buf : Buffer) : Exec (Option Envelope) :=
  if buf.length < 10 then pure none
  else do
    let datapathId ← net64 buf.bytes 0
    let serviceNameLength ← net16 buf.bytes 8
    let buf ← removeFrontBuffer buf 10
    readServiceName datapathId serviceNameLength buf

def handleOpenflowMessage (e : Envelope) : Exec Received :=
  match validateOpenflowMessage fuel e.message with
  | .ok () => pure (.openflowMessage e)
  | .error (.rejected _) => pure .dropped
  | .error stop => .error stop

def serviceRecvFromApplication (messageType : UInt16) (buf : Buffer) : Exec Received := do
  let envelope ← readEnvelope buf
  match envelope with
  | none => pure .dropped
  | some e =>
    if messageType = messengerOpenflowMessage then handleOpenflowMessage fuel e
    else if messageType = messengerOpenflowDisconnectRequest then pure (.disconnectRequest e.datapathId)
    else pure .dropped

def serviceRecv (messageType : UInt16) (data : Bytes) : Exec Received := do
  let buf ← allocBufferWithLength heap data.length
  let (msg,buf) ← appendBackBuffer heap buf data.length
  let buf ← buf.put msg data
  serviceRecvFromApplication fuel messageType buf

-- What the switch's side of the daemon makes of it.
def Received.deliver (d : Daemon) (now : Int) : Received → Exec Daemon
  | .dropped => pure d
  | .openflowMessage e => do
    let outcome ← d.info.switchEventRecvFromApplication e.datapathId e.serviceName e.message now
    pure { d with info := outcome.info }
  | .disconnectRequest datapathId => pure (d.switchEventDisconnectRequest datapathId)

theorem step_openflowMessage (d : Daemon) (e : Envelope) (now : Int) :
    d.step heap fuel (.openflowMessage e.datapathId e.serviceName e.message now) =
      handleOpenflowMessage fuel e >>= Received.deliver d now := by
  rw [Daemon.step,SwitchInfo.handleOpenflowMessage,handleOpenflowMessage]
  cases validateOpenflowMessage fuel e.message with
  | ok u => exact bind_assoc _ _ _
  | error stop =>
    cases stop with
    | rejected error => rfl
    | outOfFuel => rfl
    | outOfBounds => rfl
    | aborted => rfl

end Receiving

section Sending

-- The static service name holds its terminator too.
structure ServiceName extends CString where
  fits : bytes.length < messengerServiceNameLength

structure Sending where
  service : Bytes
  tag : UInt16
  data : Bytes

def alternateHex (n : UInt64) : List Char := if n = 0 then ['0'] else '0' :: 'x' :: Nat.toDigits 16 n.toNat

def remoteServiceName (datapathId : UInt64) : Bytes :=
  (characters ("switch.".toList ++ alternateHex datapathId)).take (messengerServiceNameLength - 1)

def sendOpenflowMessage (serviceName : ServiceName) (datapathId : UInt64) (message : Bytes) : Exec Sending := do
  abortIf (message.length = 0)
  let nameLength := serviceName.bytes.length
  let headerLength := UInt16.ofNat (10 + nameLength + 1)
  let data := List.replicate headerLength.toNat 0 ++ message
  let data ← store data 0 (toNet64 datapathId ++ toNet16 (UInt16.ofNat (nameLength + 1)))
  let data ← store data 10 serviceName.bytes
  pure ⟨remoteServiceName datapathId,messengerOpenflowMessage,data⟩

end Sending

end Trema.SwitchManager
