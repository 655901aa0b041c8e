import Trema.OpenFlow.ByteOrder

namespace Trema.OpenFlow

open Library Layout

def onlyIf (c : Prop) [Decidable c] (act : Exec Unit) : Exec Unit := if c then act else .ok ()

def dispatch {τ : Type} (type : Option τ) (unknown : ValidationError) (check : τ → Exec Unit) :
    Exec Unit :=
  match type with
  | none => .error (.rejected unknown)
  | some t => check t

def validMessageVersion (type version : UInt8) : Bool :=
  if type ≠ OfpType.hello.code then version == ofpVersion
  else decide (ofpVersion ≤ version) && decide (version ≤ 0x04)

def validateHeader (message : Bytes) (type : OfpType) (minLength maxLength : Nat) :
    Exec Unit := do
  rejectIf (message.length < 8) .tooShortMessage
  let version ← byteAt message 0
  rejectIf (validMessageVersion type.code version = false) .unsupportedVersion
  let headerType ← byteAt message 1
  rejectIf (OfpType.queueGetConfigReply.code < headerType) .undefinedType
  rejectIf (headerType ≠ type.code) .invalidType
  let length ← net16 message 2
  rejectIf (maxLength < length.toNat) .tooLongMessage
  rejectIf (length.toNat < minLength) .tooShortMessage
  rejectIf (length.toNat < message.length) .tooLongMessage
  rejectIf (message.length < length.toNat) .tooShortMessage
  rejectIf (maxLength < message.length) .tooLongMessage

def validateHello (message : Bytes) : Exec Unit := validateHeader message .hello 8 8

def validateError (message : Bytes) : Exec Unit := validateHeader message .error 12 65535

def validateSized (type : OfpType) (minLength : Nat) (message : Bytes) : Exec Unit := do
  validateHeader message type minLength 65535
  let length ← net16 message 2
  rejectIf (message.length ≠ length.toNat) .invalidLength

def validateEchoRequest : Bytes → Exec Unit := validateSized .echoRequest 8
def validateEchoReply : Bytes → Exec Unit := validateSized .echoReply 8
def validateVendor : Bytes → Exec Unit := validateSized .vendor 12

def validateFeaturesRequest (message : Bytes) : Exec Unit :=
  validateHeader message .featuresRequest 8 8

def validatePhyPortNo (portNo : UInt16) : Exec Unit :=
  rejectIf (portNo = 0 ∨ (ofppMax < portNo ∧ portNo < ofppInPort)) .invalidPortNo

def validatePhyPort (m : Bytes) (p : Nat) : Exec Unit := do
  let port ← ntohPhyPort m p
  validatePhyPortNo (host16 port 0)
  rejectIf (host32 port 24 &&& ~~~portConfig ≠ 0) .invalidPortConfig
  rejectIf (host32 port 28 &&& ~~~portState ≠ 0) .invalidPortState
  rejectIf (host32 port 32 &&& ~~~portFeatures ≠ 0 ∨ host32 port 36 &&& ~~~portFeatures ≠ 0 ∨
    host32 port 40 &&& ~~~portFeatures ≠ 0 ∨ host32 port 44 &&& ~~~portFeatures ≠ 0)
    .invalidPortFeatures

def validateEach (check : Nat → Exec Unit) (size : Nat) : Nat → Nat → Exec Unit
  | _, 0 => .ok ()
  | p, n + 1 => do
    check p
    validateEach check size (p + size) n

def validatePhyPorts (m : Bytes) (p n : Nat) : Exec Unit := validateEach (validatePhyPort m) 48 p n

def validateFeaturesReply (message : Bytes) : Exec Unit := do
  validateHeader message .featuresReply 32 65535
  let nTables ← byteAt message 20
  rejectIf (nTables = 0) .noTableAvailable
  let length ← net16 message 2
  let portLength := sub16 length.toNat 32
  rejectIf (portLength % 48 ≠ 0) .invalidLength
  onlyIf (0 < portLength) (validatePhyPorts message 32 (portLength / 48))

def validateGetConfigRequest (message : Bytes) : Exec Unit :=
  validateHeader message .getConfigRequest 8 8

def validateSwitchConfig (type : OfpType) (message : Bytes) : Exec Unit := do
  validateHeader message type 12 12
  let flags ← net16 message 8
  rejectIf (ofpcFragMask < flags) .invalidSwitchConfig

def validateGetConfigReply : Bytes → Exec Unit := validateSwitchConfig .getConfigReply
def validateSetConfig : Bytes → Exec Unit := validateSwitchConfig .setConfig

def validatePacketIn (message : Bytes) : Exec Unit := do
  validateHeader message .packetIn 18 65535
  let inPort ← net16 message 14
  validatePhyPortNo inPort
  let reason ← byteAt message 16
  rejectIf (ofprAction < reason) .invalidPacketInReason

def validateWildcards (wildcards : UInt32) : Exec Unit :=
  rejectIf (wildcards &&& ~~~ofpfwAll ≠ 0) .invalidWildcards

def validateVlanVid (vid : UInt16) : Exec Unit :=
  rejectIf (vid ≠ uint16Max ∧ vid &&& ~~~vlanVidMask ≠ 0) .invalidVlanVid

def validateVlanPcp (pcp : UInt8) : Exec Unit :=
  rejectIf (pcp &&& ~~~vlanPcpMask ≠ 0) .invalidVlanPcp

def validateNwTos (tos : UInt8) : Exec Unit :=
  rejectIf (tos &&& ~~~nwTosMask ≠ 0) .invalidNwTos

def validateMatch (mtch : OfpMatch) : Exec Unit := do
  validateWildcards mtch.wildcards
  validateVlanVid mtch.dlVlan
  validateVlanPcp mtch.dlVlanPcp
  validateNwTos mtch.nwTos

def exactWildcards (mtch : OfpMatch) : Prop := mtch.wildcards &&& ofpfwAll = 0

instance (mtch : OfpMatch) : Decidable (exactWildcards mtch) :=
  inferInstanceAs (Decidable (_ = _))

def validateExactPriority (m : Bytes) (p : Nat) (mtch : OfpMatch) : Exec Unit :=
  onlyIf (exactWildcards mtch) do
    let priority ← net16 m p
    rejectIf (priority ≠ uint16Max) .invalidFlowPriority

def validateFlowRemoved (message : Bytes) : Exec Unit := do
  validateHeader message .flowRemoved 88 88
  let mtch ← ntohMatch message 8
  validateMatch (OfpMatch.ofHost mtch)
  validateExactPriority message 56 (OfpMatch.ofHost mtch)
  let reason ← byteAt message 58
  rejectIf (ofprrDelete < reason) .invalidFlowRemovedReason

def validatePortStatus (message : Bytes) : Exec Unit := do
  validateHeader message .portStatus 64 64
  let reason ← byteAt message 8
  rejectIf (ofpprModify < reason) .invalidPortStatusReason
  validatePhyPort message 16

def validateActionAs (type : ActionType) (size : Nat) (tooShort tooLong : ValidationError)
    (check : Bytes → Exec Unit) (m : Bytes) (p : Nat) : Exec Unit := do
  let action ← convert (actionFields type) m p
  rejectIf (host16 action 0 ≠ type.code) .invalidActionType
  rejectIf ((host16 action 2).toNat < size) tooShort
  rejectIf (size < (host16 action 2).toNat) tooLong
  check action

def validateActionOutput : Bytes → Nat → Exec Unit :=
  validateActionAs .output 8 .tooShortActionOutput .tooLongActionOutput
    (fun action => validatePhyPortNo (host16 action 4))

def validateActionSetVlanVid : Bytes → Nat → Exec Unit :=
  validateActionAs .setVlanVid 8 .tooShortActionVlanVid .tooLongActionVlanVid
    (fun action => validateVlanVid (host16 action 4))

def validateActionSetVlanPcp : Bytes → Nat → Exec Unit :=
  validateActionAs .setVlanPcp 8 .tooShortActionVlanPcp .tooLongActionVlanPcp
    (fun action => validateVlanPcp (hostByte action 4))

def validateActionStripVlan : Bytes → Nat → Exec Unit :=
  validateActionAs .stripVlan 8 .tooShortActionStripVlan .tooLongActionStripVlan
    (fun _ => .ok ())

def validateActionSetDlSrc : Bytes → Nat → Exec Unit :=
  validateActionAs .setDlSrc 16 .tooShortActionDlSrc .tooLongActionDlSrc (fun _ => .ok ())

def validateActionSetDlDst : Bytes → Nat → Exec Unit :=
  validateActionAs .setDlDst 16 .tooShortActionDlDst .tooLongActionDlDst (fun _ => .ok ())

def validateActionSetNwSrc : Bytes → Nat → Exec Unit :=
  validateActionAs .setNwSrc 8 .tooShortActionNwSrc .tooLongActionNwSrc (fun _ => .ok ())

def validateActionSetNwDst : Bytes → Nat → Exec Unit :=
  validateActionAs .setNwDst 8 .tooShortActionNwDst .tooLongActionNwDst (fun _ => .ok ())

def validateActionSetNwTos : Bytes → Nat → Exec Unit :=
  validateActionAs .setNwTos 8 .tooShortActionNwTos .tooLongActionNwTos
    (fun action => validateNwTos (hostByte action 4))

def validateActionSetTpSrc : Bytes → Nat → Exec Unit :=
  validateActionAs .setTpSrc 8 .tooShortActionTpSrc .tooLongActionTpSrc (fun _ => .ok ())

def validateActionSetTpDst : Bytes → Nat → Exec Unit :=
  validateActionAs .setTpDst 8 .tooShortActionTpDst .tooLongActionTpDst (fun _ => .ok ())

def validateActionEnqueue : Bytes → Nat → Exec Unit :=
  validateActionAs .enqueue 16 .tooShortActionEnqueue .tooLongActionEnqueue
    (fun action => validatePhyPortNo (host16 action 4))

def validateActionVendor (m : Bytes) (p : Nat) : Exec Unit := do
  let type ← net16 m p
  rejectIf (type ≠ ActionType.vendor.code) .invalidActionType
  let len ← net16 m (p + 2)
  rejectIf (len.toNat < 8) .tooShortActionVendor
  rejectIf (len.toNat % 8 ≠ 0) .invalidLengthActionVendor

def validateActionOf : ActionType → Bytes → Nat → Exec Unit
  | .output => validateActionOutput
  | .setVlanVid => validateActionSetVlanVid
  | .setVlanPcp => validateActionSetVlanPcp
  | .stripVlan => validateActionStripVlan
  | .setDlSrc => validateActionSetDlSrc
  | .setDlDst => validateActionSetDlDst
  | .setNwSrc => validateActionSetNwSrc
  | .setNwDst => validateActionSetNwDst
  | .setNwTos => validateActionSetNwTos
  | .setTpSrc => validateActionSetTpSrc
  | .setTpDst => validateActionSetTpDst
  | .enqueue => validateActionEnqueue
  | .vendor => validateActionVendor

def validateAction (m : Bytes) (p : Nat) : Exec Unit := do
  let len ← net16 m (p + 2)
  rejectIf (len.toNat < 8) .tooShortAction
  let type ← net16 m p
  dispatch (ActionType.ofCode type) .undefinedActionType (fun t => validateActionOf t m p)

def elementStep (check : Bytes → Nat → Exec Unit) (m : Bytes) (head offset : Nat) : Exec Nat := do
  check m (head + offset)
  let len ← net16 m (head + offset + 2)
  pure ((offset + len.toNat) % 65536)

def validateElements (check : Bytes → Nat → Exec Unit) (fuel : Nat) (m : Bytes)
    (head length : Nat) : Exec Unit := do
  let _ ← whileLoop (fun offset => decide (offset < length)) (elementStep check m head) fuel 0
  pure ()

def validateActions : Nat → Bytes → Nat → Nat → Exec Unit := validateElements validateAction

def packetOutFields (message : Bytes) : Exec Nat := do
  validateHeader message .packetOut 16 65535
  let inPort ← net16 message 12
  validatePhyPortNo inPort
  let actionsLen ← net16 message 14
  pure actionsLen.toNat

def validatePacketOut (fuel : Nat) (message : Bytes) : Exec Unit := do
  let actionsLen ← packetOutFields message
  onlyIf (0 < actionsLen) (validateActions fuel message 16 actionsLen)

def flowModOptions (message : Bytes) (mtch : OfpMatch) (command : UInt16) : Exec Nat := do
  validateExactPriority message 62 mtch
  onlyIf (command = ofpfcDelete ∨ command = ofpfcDeleteStrict) do
    let outPort ← net16 message 68
    onlyIf (outPort ≠ ofppNone) (validatePhyPortNo outPort)
  let flags ← net16 message 70
  rejectIf (flags &&& ~~~flowModFlags ≠ 0) .invalidFlowModFlags
  let length ← net16 message 2
  pure (sub16 length.toNat 72)

-- The bytes of actions that are left to check: none where the command is undefined, since
-- ERROR_UNDEFINED_FLOW_MOD_COMMAND is 0 and what the validator returns with it means success.
def flowModFields (message : Bytes) : Exec Nat := do
  validateHeader message .flowMod 72 65535
  let mtch ← ntohMatch message 8
  validateMatch (OfpMatch.ofHost mtch)
  let command ← net16 message 56
  if ofpfcDeleteStrict < command then pure 0
  else flowModOptions message (OfpMatch.ofHost mtch) command

def validateFlowMod (fuel : Nat) (message : Bytes) : Exec Unit := do
  let actionsLength ← flowModFields message
  onlyIf (0 < actionsLength) (validateActions fuel message 72 actionsLength)

def validatePortMod (message : Bytes) : Exec Unit := do
  validateHeader message .portMod 32 32
  let portNo ← net16 message 8
  validatePhyPortNo portNo
  rejectIf (ofppMax < portNo ∧ portNo ≠ ofppLocal) .invalidPortNo
  let config ← net32 message 16
  rejectIf (config &&& ~~~portConfig ≠ 0) .invalidPortConfig
  let mask ← net32 message 20
  rejectIf (mask &&& ~~~portConfig ≠ 0) .invalidPortMask
  let advertise ← net32 message 24
  rejectIf (advertise &&& ~~~portFeatures ≠ 0) .invalidPortFeatures

def validateStatsRequestOf (type : StatsType) (minLength maxLength : Nat) (message : Bytes) :
    Exec Unit := do
  validateHeader message .statsRequest minLength maxLength
  let statsType ← net16 message 8
  rejectIf (statsType ≠ type.code) .invalidStatsType
  let flags ← net16 message 10
  rejectIf (flags ≠ 0) .invalidStatsRequestFlags

def validateDescStatsRequest : Bytes → Exec Unit := validateStatsRequestOf .desc 12 12

def validateFlowStatsRequestOf (type : StatsType) (message : Bytes) : Exec Unit := do
  validateStatsRequestOf type 56 56 message
  let mtch ← ntohMatch message 12
  validateMatch (OfpMatch.ofHost mtch)
  let outPort ← net16 message 54
  validatePhyPortNo outPort

def validateFlowStatsRequest : Bytes → Exec Unit := validateFlowStatsRequestOf .flow
def validateAggregateStatsRequest : Bytes → Exec Unit := validateFlowStatsRequestOf .aggregate

def validateTableStatsRequest : Bytes → Exec Unit := validateStatsRequestOf .table 12 12

def validatePortStatsRequest (message : Bytes) : Exec Unit := do
  validateStatsRequestOf .port 20 20 message
  let portNo ← net16 message 12
  validatePhyPortNo portNo
  rejectIf (ofppMax < portNo ∧ portNo ≠ ofppNone ∧ portNo ≠ ofppLocal) .invalidPortNo

def validateQueueStatsRequest (message : Bytes) : Exec Unit := do
  validateStatsRequestOf .queue 20 20 message
  let portNo ← net16 message 12
  validatePhyPortNo portNo

def validateVendorStatsRequest : Bytes → Exec Unit := validateStatsRequestOf .vendor 16 65535

def validateStatsRequestByType (message : Bytes) : StatsType → Exec Unit
  | .desc => validateDescStatsRequest message
  | .flow => validateFlowStatsRequest message
  | .aggregate => validateAggregateStatsRequest message
  | .table => validateTableStatsRequest message
  | .port => validatePortStatsRequest message
  | .queue => validateQueueStatsRequest message
  | .vendor => validateVendorStatsRequest message

def validateStatsRequest (message : Bytes) : Exec Unit := do
  let type ← net16 message 8
  dispatch (StatsType.ofCode type) .unsupportedStatsType (validateStatsRequestByType message)

def validateSingleStatsReply (maxLength : Nat) (message : Bytes) : Exec Unit := do
  validateHeader message .statsReply 12 maxLength
  let flags ← net16 message 10
  rejectIf (flags ≠ 0) .invalidStatsReplyFlags

def validateDescStatsReply : Bytes → Exec Unit := validateSingleStatsReply (12 + 1056)
def validateAggregateStatsReply : Bytes → Exec Unit := validateSingleStatsReply (12 + 24)

def statsReplyBody (message : Bytes) : Exec Nat := do
  validateHeader message .statsReply 12 65535
  let flags ← net16 message 10
  rejectIf (flags &&& ~~~ofpsfReplyMore ≠ 0) .invalidStatsReplyFlags
  let length ← net16 message 2
  pure (sub16 length.toNat 12)

def flowStatsHead (m : Bytes) (p : Nat) : Exec Nat := do
  let mtch ← ntohMatch m (p + 4)
  validateMatch (OfpMatch.ofHost mtch)
  onlyIf (exactWildcards (OfpMatch.ofHost mtch)) do
    let priority ← net16 m (p + 52)
    rejectIf (priority < uint16Max) .invalidFlowPriority
  let length ← net16 m p
  pure length.toNat

def flowStatsStep (fuel : Nat) (m : Bytes) (s : Nat × Nat) : Exec (Nat × Nat) := do
  let length ← flowStatsHead m s.2
  let actionsLength := sub16 length 88
  onlyIf (0 < actionsLength) (validateActions fuel m (s.2 + 88) actionsLength)
  pure (sub16 s.1 length,s.2 + length)

def validateFlowStatsReply (fuel : Nat) (message : Bytes) : Exec Unit := do
  let flowLength ← statsReplyBody message
  let _ ← whileLoop (fun s => decide (0 < s.1)) (flowStatsStep fuel message) fuel (flowLength,12)
  pure ()

def validateStatsEntries (size : Nat) (check : Bytes → Nat → Exec Unit) (message : Bytes) :
    Exec Unit := do
  let length ← statsReplyBody message
  rejectIf (length % size ≠ 0) .invalidLength
  validateEach (check message) size 12 (length / size)

def validateTableStatsReply : Bytes → Exec Unit :=
  validateStatsEntries 64 fun m p => do
    let wildcards ← net32 m (p + 36)
    validateWildcards wildcards

def validatePortStatsReply : Bytes → Exec Unit :=
  validateStatsEntries 104 fun m p => do
    let portNo ← net16 m p
    validatePhyPortNo portNo

def validateQueueStatsReply : Bytes → Exec Unit :=
  validateStatsEntries 32 fun m p => do
    let portNo ← net16 m p
    validatePhyPortNo portNo

def validateVendorStatsReply (message : Bytes) : Exec Unit := do
  let _ ← statsReplyBody message
  pure ()

def validateStatsReplyByType (fuel : Nat) (message : Bytes) : StatsType → Exec Unit
  | .desc => validateDescStatsReply message
  | .flow => validateFlowStatsReply fuel message
  | .aggregate => validateAggregateStatsReply message
  | .table => validateTableStatsReply message
  | .port => validatePortStatsReply message
  | .queue => validateQueueStatsReply message
  | .vendor => validateVendorStatsReply message

def validateStatsReply (fuel : Nat) (message : Bytes) : Exec Unit := do
  let type ← net16 message 8
  dispatch (StatsType.ofCode type) .unsupportedStatsType (validateStatsReplyByType fuel message)

def validateBarrierRequest (message : Bytes) : Exec Unit :=
  validateHeader message .barrierRequest 8 8

def validateBarrierReply (message : Bytes) : Exec Unit :=
  validateHeader message .barrierReply 8 8

def validateQueueGetConfigRequest (message : Bytes) : Exec Unit := do
  validateHeader message .queueGetConfigRequest 12 12
  let port ← net16 message 8
  validatePhyPortNo port

def validatePropertySize (size : Nat) (len : UInt16) : Exec Unit := do
  rejectIf (len.toNat < size) .tooShortQueueProperty
  rejectIf (size < len.toNat) .tooLongQueueProperty

def validateQueueProperty (m : Bytes) (p : Nat) : Exec Unit := do
  let len ← net16 m (p + 2)
  rejectIf (len.toNat < 8) .tooShortQueueProperty
  let property ← net16 m p
  if property = ofpqtNone then validatePropertySize 8 len
  else if property = ofpqtMinRate then validatePropertySize 16 len
  else .error (.rejected .undefinedQueueProperty)

def validateQueueProperties : Nat → Bytes → Nat → Nat → Exec Unit :=
  validateElements validateQueueProperty

def validatePacketQueue (fuel : Nat) (m : Bytes) (p : Nat) : Exec Unit := do
  let len ← net16 m (p + 4)
  rejectIf (len.toNat < 16) .tooShortQueueDescription
  validateQueueProperties fuel m (p + 8) (sub16 len.toNat 8)

def validatePacketQueues (fuel : Nat) (m : Bytes) : Nat → Nat → Exec Unit
  | _, 0 => .ok ()
  | p, n + 1 => do
    validatePacketQueue fuel m p
    let len ← net16 m (p + 4)
    validatePacketQueues fuel m (p + len.toNat) n

structure QueueCount where
  remaining : Nat
  queue : Nat
  queues : Nat
deriving DecidableEq, Repr

def countQueue (m : Bytes) (s : QueueCount) : Exec QueueCount := do
  let len ← net16 m (s.queue + 4)
  pure ⟨sub16 s.remaining len.toNat,s.queue + len.toNat,s.queues + 1⟩

def queueConfigFields (message : Bytes) : Exec Nat := do
  validateHeader message .queueGetConfigReply 24 65535
  let port ← net16 message 8
  validatePhyPortNo port
  let length ← net16 message 2
  pure (sub16 length.toNat 16)

def validateQueueGetConfigReply (fuel : Nat) (message : Bytes) : Exec Unit := do
  let queuesLength ← queueConfigFields message
  let counted ← whileLoop (fun s => decide (8 < s.remaining)) (countQueue message) fuel
    ⟨queuesLength,16,0⟩
  rejectIf (counted.remaining ≠ 0) .invalidLength
  onlyIf (0 < counted.queues) (validatePacketQueues fuel message 16 counted.queues)

def validateByType (fuel : Nat) (message : Bytes) : OfpType → Exec Unit
  | .hello => validateHello message
  | .error => validateError message
  | .echoRequest => validateEchoRequest message
  | .echoReply => validateEchoReply message
  | .vendor => validateVendor message
  | .featuresRequest => validateFeaturesRequest message
  | .featuresReply => validateFeaturesReply message
  | .getConfigRequest => validateGetConfigRequest message
  | .getConfigReply => validateGetConfigReply message
  | .setConfig => validateSetConfig message
  | .packetIn => validatePacketIn message
  | .flowRemoved => validateFlowRemoved message
  | .portStatus => validatePortStatus message
  | .packetOut => validatePacketOut fuel message
  | .flowMod => validateFlowMod fuel message
  | .portMod => validatePortMod message
  | .statsRequest => validateStatsRequest message
  | .statsReply => validateStatsReply fuel message
  | .barrierRequest => validateBarrierRequest message
  | .barrierReply => validateBarrierReply message
  | .queueGetConfigRequest => validateQueueGetConfigRequest message
  | .queueGetConfigReply => validateQueueGetConfigReply fuel message

def validateOpenflowMessage (fuel : Nat) (message : Bytes) : Exec Unit := do
  let _ ← load message 0 8
  let type ← byteAt message 1
  dispatch (OfpType.ofCode type) .undefinedType (validateByType fuel message)

end Trema.OpenFlow
