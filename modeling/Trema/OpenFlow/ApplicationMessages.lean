import Trema.Management.Stat
import Trema.OpenFlow.ApplicationInterface
import Trema.OpenFlow.Contexts
import Trema.Packet.PacketParser

namespace Trema.OpenFlow.Application

open Library Layout
open PacketinFilter (CString)

def messengerOpenflowConnected : UInt16 := 2
def messengerOpenflowReady : UInt16 := 3
def messengerOpenflowDisconnected : UInt16 := 4
def messengerOpenflowFaildToConnect : UInt16 := 6

-- The calls of the handlers, without the datapath id and the user data.
inductive OpenflowEvent where
  | error (transactionId : UInt32) (type code : UInt16) (body : Bytes)
  | echoReply (transactionId : UInt32) (body : Option Bytes)
  | vendor (transactionId vendor : UInt32) (body : Option Bytes)
  | featuresReply (transactionId nBuffers : UInt32) (nTables : UInt8) (capabilities actions : UInt32)
      (phyPorts : List Bytes)
  | getConfigReply (transactionId : UInt32) (flags missSendLen : UInt16)
  | packetIn (transactionId bufferId : UInt32) (totalLen inPort : UInt16) (reason : UInt8) (data : Option Bytes)
  | flowRemoved (transactionId : UInt32) (mtch : OfpMatch) (cookie : UInt64) (priority : UInt16) (reason : UInt8)
      (durationSec durationNsec : UInt32) (idleTimeout : UInt16) (packetCount byteCount : UInt64)
  | portStatus (transactionId : UInt32) (reason : UInt8) (phyPort : Bytes)
  | statsReply (reply : StatsReply)
  | barrierReply (transactionId : UInt32)
  | queueGetConfigReply (config : QueueConfig)
deriving DecidableEq, Repr

inductive Event where
  | openflow (datapathId : UInt64) (event : OpenflowEvent)
  | switchReady (datapathId : UInt64)
  | switchDisconnected (datapathId : UInt64)
  | deleteOpenflowMessages (datapathId : UInt64)
deriving DecidableEq, Repr

structure Handlers where
  openflow : OfpType → Bool
  switchReady : Bool
  switchDisconnected : Bool

section Code

variable (handlers : Handlers) (message : Bytes)

def call (type : OfpType) (event : OpenflowEvent) : List OpenflowEvent := if handlers.openflow type then [event] else []

-- An empty message stops every handler.
def transactionId : Exec UInt32 := do
  abortIf (message.length = 0)
  net32 message 4

def handleError : Exec (List OpenflowEvent) := do
  let xid ← transactionId message
  let type ← net16 message 8
  let code ← net16 message 10
  let body ← removeFrontBuffer message 12
  pure (call handlers .error (.error xid type code body))

def handleEchoReply : Exec (List OpenflowEvent) := do
  let xid ← transactionId message
  let length ← net16 message 2
  if handlers.openflow .echoReply then do
    let body ← bodyAfter message 8 (sub16 length.toNat 8)
    pure [.echoReply xid body]
  else pure []

def handleVendor : Exec (List OpenflowEvent) := do
  let xid ← transactionId message
  let vendor ← net32 message 8
  let length ← net16 message 2
  if handlers.openflow .vendor then do
    let body ← bodyAfter message 12 (sub16 length.toNat 12)
    pure [.vendor xid vendor body]
  else pure []

def handleFeaturesReply : Exec (List OpenflowEvent) := do
  let xid ← transactionId message
  let nBuffers ← net32 message 16
  let nTables ← byteAt message 20
  let capabilities ← net32 message 24
  let actions ← net32 message 28
  let length ← net16 message 2
  let nPhyPorts := sub16 length.toNat 32 / 48
  let phyPorts ← (List.range nPhyPorts).mapM fun i => ntohPhyPort message (32 + 48 * i)
  pure (call handlers .featuresReply (.featuresReply xid nBuffers nTables capabilities actions phyPorts))

def handleGetConfigReply : Exec (List OpenflowEvent) := do
  let xid ← transactionId message
  let flags ← net16 message 8
  let missSendLen ← net16 message 10
  pure (call handlers .getConfigReply (.getConfigReply xid flags missSendLen))

-- parse_packet answers true or stops.
def packetInData (fuel : Nat) (bodyLength : Nat) : Exec (Option Bytes) :=
  if 0 < bodyLength then do
    let body ← removeFrontBuffer message 18
    let _ ← Packet.parsePacket body fuel
    pure (some body)
  else pure none

def handlePacketIn (fuel : Nat) : Exec (List OpenflowEvent) := do
  let xid ← transactionId message
  let bufferId ← net32 message 8
  let totalLen ← net16 message 12
  let inPort ← net16 message 14
  let reason ← byteAt message 16
  let length ← net16 message 2
  if handlers.openflow .packetIn then do
    let body ← packetInData message fuel (sub16 length.toNat 18)
    pure [.packetIn xid bufferId totalLen inPort reason body]
  else pure []

def handleFlowRemoved : Exec (List OpenflowEvent) := do
  let xid ← transactionId message
  let mtch ← ntohMatch message 8
  let cookie ← net64 message 48
  let priority ← net16 message 56
  let reason ← byteAt message 58
  let durationSec ← net32 message 60
  let durationNsec ← net32 message 64
  let idleTimeout ← net16 message 68
  let packetCount ← net64 message 72
  let byteCount ← net64 message 80
  pure (call handlers .flowRemoved (.flowRemoved xid (OfpMatch.ofHost mtch) cookie priority reason durationSec
    durationNsec idleTimeout packetCount byteCount))

def handlePortStatus : Exec (List OpenflowEvent) := do
  let xid ← transactionId message
  let reason ← byteAt message 8
  let phyPort ← ntohPhyPort message 16
  pure (call handlers .portStatus (.portStatus xid reason phyPort))

def handleBarrierReply : Exec (List OpenflowEvent) := do
  let xid ← transactionId message
  pure (call handlers .barrierReply (.barrierReply xid))

variable (fuel : Nat) (heap : Nat → UInt8)

def handleByType : OfpType → Option (Exec (List OpenflowEvent))
  | .error => some (handleError handlers message)
  | .echoReply => some (handleEchoReply handlers message)
  | .vendor => some (handleVendor handlers message)
  | .featuresReply => some (handleFeaturesReply handlers message)
  | .getConfigReply => some (handleGetConfigReply handlers message)
  | .packetIn => some (handlePacketIn handlers message fuel)
  | .flowRemoved => some (handleFlowRemoved handlers message)
  | .portStatus => some (handlePortStatus handlers message)
  | .statsReply => some do
    let replies ← handleStatsReply fuel heap (handlers.openflow .statsReply) message
    pure (replies.map .statsReply)
  | .barrierReply => some (handleBarrierReply handlers message)
  | .queueGetConfigReply => some do
    let configs ← handleQueueGetConfigReply fuel (handlers.openflow .queueGetConfigReply) message
    pure (configs.map .queueGetConfigReply)
  | _ => none

end Code

section Statistics

def messageName : Option OfpType → String
  | some .hello => "hello"
  | some .error => "error"
  | some .echoRequest => "echo_request"
  | some .echoReply => "echo_reply"
  | some .vendor => "vendor"
  | some .featuresRequest => "features_request"
  | some .featuresReply => "features_reply"
  | some .getConfigRequest => "get_config_request"
  | some .getConfigReply => "get_config_reply"
  | some .setConfig => "set_config"
  | some .packetIn => "packet_in"
  | some .flowRemoved => "flow_removed"
  | some .portStatus => "port_status"
  | some .packetOut => "packet_out"
  | some .flowMod => "flow_mod"
  | some .portMod => "port_mod"
  | some .statsRequest => "stats_request"
  | some .statsReply => "stats_reply"
  | some .barrierRequest => "barrier_request"
  | some .barrierReply => "barrier_reply"
  | some .queueGetConfigRequest => "queue_get_config_request"
  | some .queueGetConfigReply => "queue_get_config_reply"
  | none => "undefined_message_type"

def switchEventName (type : UInt16) : String :=
  if type = messengerOpenflowConnected then "switch_connected"
  else if type = messengerOpenflowReady then "switch_ready"
  else if type = messengerOpenflowDisconnected then "switch_disconnected"
  else if type = messengerOpenflowFaildToConnect then "switch_failed_to_connect"
  else "undefined_switch_event"

def direction (send : Bool) : String := if send then "_send" else "_receive"

def suffix (result : Bool) : String := if result then "_succeeded" else "_failed"

def statKey (name : String) (send result : Bool) : Bytes :=
  characters "openflow_application_interface.".toList ++ characters name.toList ++
    characters (direction send).toList ++ characters (suffix result).toList

theorem messageName_terminated (type : Option OfpType) : 0 ∉ characters (messageName type).toList := by
  cases type with
  | none => decide
  | some type => cases type <;> decide

theorem switchEventName_terminated (type : UInt16) : 0 ∉ characters (switchEventName type).toList := by
  unfold switchEventName
  split_ifs <;> decide

theorem statKey_terminated {name : String} (h : 0 ∉ characters name.toList) (send result : Bool) :
    0 ∉ statKey name send result := by
  have hfront : 0 ∉ characters "openflow_application_interface.".toList := by decide
  have hdirection : 0 ∉ characters (direction send).toList := by cases send <;> decide
  have hsuffix : 0 ∉ characters (suffix result).toList := by cases result <;> decide
  simp only [statKey,List.mem_append,not_or]
  exact ⟨⟨⟨hfront,h⟩,hdirection⟩,hsuffix⟩

-- The key that is given to increment_stat.
def updateOpenflowStats (type : UInt8) (send result : Bool) : CString :=
  ⟨statKey (messageName (OfpType.ofCode type)) send result,statKey_terminated (messageName_terminated _) _ _⟩

def updateSwitchEventStats (type : UInt16) (send result : Bool) : CString :=
  ⟨statKey (switchEventName type) send result,statKey_terminated (switchEventName_terminated _) _ _⟩

end Statistics

section Messages

variable (handlers : Handlers) (fuel : Nat) (heap : Nat → UInt8)

structure Received where
  events : List Event
  counted : Option CString
deriving DecidableEq

-- What follows the validation; a message of another type is only counted.
def handleValid (datapathId : UInt64) (message : Bytes) : Exec Received := do
  let type ← byteAt message 1
  let events ← ((OfpType.ofCode type).bind (handleByType handlers message fuel heap)).getD (pure [])
  pure ⟨events.map (.openflow datapathId),some (updateOpenflowStats type false true)⟩

def handleOpenflowMessage (data : Bytes) : Exec Received := do
  abortIf (data.length < 18)
  let datapathId ← net64 data 0
  let message ← removeFrontBuffer data 10
  match validateOpenflowMessage fuel message with
  | .error (.rejected _) => pure ⟨[],none⟩
  | .error stop => .error stop
  | .ok () => handleValid handlers fuel heap datapathId message

def switchEvents (type : UInt16) (datapathId : UInt64) : List Event :=
  if type = messengerOpenflowReady then if handlers.switchReady then [.switchReady datapathId] else []
  else if type = messengerOpenflowDisconnected then
    (if handlers.switchDisconnected then [.switchDisconnected datapathId] else []) ++ [.deleteOpenflowMessages datapathId]
  else []

def handleSwitchEvents (type : UInt16) (data : Bytes) : Exec Received := do
  abortIf (data.length ≠ 10)
  let datapathId ← net64 data 0
  pure ⟨switchEvents handlers type datapathId,some (updateSwitchEventStats type false true)⟩

def handleMessage (type : UInt16) (data : Bytes) : Exec Received := do
  abortIf (data.length < 10)
  if type = messengerOpenflowMessage then handleOpenflowMessage handlers fuel heap data
  else if type = messengerOpenflowConnected ∨ type = messengerOpenflowFaildToConnect ∨ type = messengerOpenflowReady ∨
      type = messengerOpenflowDisconnected then
    handleSwitchEvents handlers type data
  else pure ⟨[],some (updateSwitchEventStats type false true)⟩

end Messages

-- What service_interface.c sends; without a datapath id the field is ~0U, in the order of the host.
def createOpenflowApplicationMessage (datapathId : Option UInt64) (data : Option Bytes) : Bytes :=
  (match datapathId with
    | none => toHost64 0xffffffff
    | some id => toNet64 id) ++ toNet16 0 ++ data.getD []

end Trema.OpenFlow.Application
