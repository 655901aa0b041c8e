import Trema.Library.Layout

namespace Trema.OpenFlow

open Library

inductive ValidationError where
  | unsupportedVersion | invalidLength | tooShortMessage | tooLongMessage | invalidType
  | undefinedType | unsupportedType | noTableAvailable | invalidPortNo | invalidPortConfig
  | invalidPortState | invalidPortFeatures | invalidSwitchConfig | invalidPacketInReason
  | invalidFlowRemovedReason | invalidWildcards | invalidVlanVid | invalidVlanPcp | invalidNwTos
  | invalidPortStatusReason | tooShortQueueDescription | tooShortQueueProperty
  | tooLongQueueProperty | undefinedQueueProperty | tooShortAction | undefinedActionType
  | invalidActionType | tooShortActionOutput | tooLongActionOutput | tooShortActionVlanVid
  | tooLongActionVlanVid | tooShortActionVlanPcp | tooLongActionVlanPcp
  | tooShortActionStripVlan | tooLongActionStripVlan | tooShortActionDlSrc | tooLongActionDlSrc
  | tooShortActionDlDst | tooLongActionDlDst | tooShortActionNwSrc | tooLongActionNwSrc
  | tooShortActionNwDst | tooLongActionNwDst | tooShortActionNwTos | tooLongActionNwTos
  | tooShortActionTpSrc | tooLongActionTpSrc | tooShortActionTpDst | tooLongActionTpDst
  | tooShortActionEnqueue | tooLongActionEnqueue | tooShortActionVendor
  | invalidLengthActionVendor | unsupportedStatsType | invalidStatsReplyFlags
  | invalidFlowPriority | invalidFlowModFlags | invalidPortMask | invalidStatsType
  | invalidStatsRequestFlags | undefinedFlowModCommand
deriving DecidableEq, Repr

-- The enumeration starts at -60 and has 61 names: the last one is 0, which is SUCCESS.
def ValidationError.errorNo (error : ValidationError) : Int := error.ctorIdx - 60

abbrev Exec (α : Type) := Run ValidationError α

def rejectIf (bad : Prop) [Decidable bad] (error : ValidationError) : Exec Unit :=
  if bad then .error (.rejected error) else .ok ()

inductive OfpType where
  | hello | error | echoRequest | echoReply | vendor | featuresRequest | featuresReply
  | getConfigRequest | getConfigReply | setConfig | packetIn | flowRemoved | portStatus
  | packetOut | flowMod | portMod | statsRequest | statsReply | barrierRequest | barrierReply
  | queueGetConfigRequest | queueGetConfigReply
deriving DecidableEq, Repr

def OfpType.code : OfpType → UInt8
  | .hello => 0 | .error => 1 | .echoRequest => 2 | .echoReply => 3 | .vendor => 4
  | .featuresRequest => 5 | .featuresReply => 6 | .getConfigRequest => 7
  | .getConfigReply => 8 | .setConfig => 9 | .packetIn => 10 | .flowRemoved => 11
  | .portStatus => 12 | .packetOut => 13 | .flowMod => 14 | .portMod => 15
  | .statsRequest => 16 | .statsReply => 17 | .barrierRequest => 18 | .barrierReply => 19
  | .queueGetConfigRequest => 20 | .queueGetConfigReply => 21

def OfpType.ofCode (code : UInt8) : Option OfpType :=
  match code.toNat with
  | 0 => some .hello | 1 => some .error | 2 => some .echoRequest | 3 => some .echoReply
  | 4 => some .vendor | 5 => some .featuresRequest | 6 => some .featuresReply
  | 7 => some .getConfigRequest | 8 => some .getConfigReply | 9 => some .setConfig
  | 10 => some .packetIn | 11 => some .flowRemoved | 12 => some .portStatus
  | 13 => some .packetOut | 14 => some .flowMod | 15 => some .portMod
  | 16 => some .statsRequest | 17 => some .statsReply | 18 => some .barrierRequest
  | 19 => some .barrierReply | 20 => some .queueGetConfigRequest
  | 21 => some .queueGetConfigReply | _ => none

@[simp] theorem OfpType.ofCode_code (t : OfpType) : OfpType.ofCode t.code = some t := by
  cases t <;> rfl

inductive StatsType where
  | desc | flow | aggregate | table | port | queue | vendor
deriving DecidableEq, Repr

def StatsType.code : StatsType → UInt16
  | .desc => 0 | .flow => 1 | .aggregate => 2 | .table => 3 | .port => 4 | .queue => 5
  | .vendor => 0xffff

def StatsType.ofCode (code : UInt16) : Option StatsType :=
  match code.toNat with
  | 0 => some .desc | 1 => some .flow | 2 => some .aggregate | 3 => some .table
  | 4 => some .port | 5 => some .queue | 0xffff => some .vendor | _ => none

@[simp] theorem StatsType.ofCode_code (t : StatsType) : StatsType.ofCode t.code = some t := by
  cases t <;> rfl

theorem StatsType.code_of_ofCode {code : UInt16} {t : StatsType}
    (h : StatsType.ofCode code = some t) : code = t.code := by
  unfold StatsType.ofCode at h
  split at h <;> first
    | (injection h with h; subst h; apply UInt16.toNat_inj.mp; assumption)
    | simp at h

inductive ActionType where
  | output | setVlanVid | setVlanPcp | stripVlan | setDlSrc | setDlDst | setNwSrc | setNwDst
  | setNwTos | setTpSrc | setTpDst | enqueue | vendor
deriving DecidableEq, Repr

def ActionType.code : ActionType → UInt16
  | .output => 0 | .setVlanVid => 1 | .setVlanPcp => 2 | .stripVlan => 3 | .setDlSrc => 4
  | .setDlDst => 5 | .setNwSrc => 6 | .setNwDst => 7 | .setNwTos => 8 | .setTpSrc => 9
  | .setTpDst => 10 | .enqueue => 11 | .vendor => 0xffff

def ActionType.ofCode (code : UInt16) : Option ActionType :=
  match code.toNat with
  | 0 => some .output | 1 => some .setVlanVid | 2 => some .setVlanPcp | 3 => some .stripVlan
  | 4 => some .setDlSrc | 5 => some .setDlDst | 6 => some .setNwSrc | 7 => some .setNwDst
  | 8 => some .setNwTos | 9 => some .setTpSrc | 10 => some .setTpDst | 11 => some .enqueue
  | 0xffff => some .vendor | _ => none

@[simp] theorem ActionType.ofCode_code (t : ActionType) : ActionType.ofCode t.code = some t := by
  cases t <;> rfl

theorem ActionType.code_of_ofCode {code : UInt16} {t : ActionType}
    (h : ActionType.ofCode code = some t) : code = t.code := by
  unfold ActionType.ofCode at h
  split at h <;> first
    | (injection h with h; subst h; apply UInt16.toNat_inj.mp; assumption)
    | simp at h

def ofpVersion : UInt8 := 0x01
def uint16Max : UInt16 := 0xffff
def uint32Max : UInt32 := 0xffffffff

def ofppMax : UInt16 := 0xff00
def ofppInPort : UInt16 := 0xfff8
def ofppLocal : UInt16 := 0xfffe
def ofppNone : UInt16 := 0xffff

def vlanVidMask : UInt16 := 0x0fff
def vlanPcpMask : UInt8 := 0x07
def nwTosMask : UInt8 := 0xfc
def portConfig : UInt32 := 0x7f
def portState : UInt32 := 0x301
def portFeatures : UInt32 := 0xfff
def flowModFlags : UInt16 := 0x7
def ofpfwAll : UInt32 := 0x3fffff
def ofpcFragMask : UInt16 := 3
def ofpsfReplyMore : UInt16 := 1
def ofprAction : UInt8 := 1
def ofprrDelete : UInt8 := 2
def ofpprModify : UInt8 := 2
def ofpfcDelete : UInt16 := 3
def ofpfcDeleteStrict : UInt16 := 4
def ofpqtNone : UInt16 := 0
def ofpqtMinRate : UInt16 := 1

structure Mac where
  (b0 b1 b2 b3 b4 b5 : UInt8)
deriving DecidableEq, Repr

def Mac.toBytes (a : Mac) : Bytes := [a.b0,a.b1,a.b2,a.b3,a.b4,a.b5]

def Mac.ofBytes (b : Bytes) (off : Nat) : Mac :=
  ⟨hostByte b off,hostByte b (off + 1),hostByte b (off + 2),hostByte b (off + 3),
    hostByte b (off + 4),hostByte b (off + 5)⟩

structure OfpMatch where
  wildcards : UInt32
  inPort : UInt16
  dlSrc : Mac
  dlDst : Mac
  dlVlan : UInt16
  dlVlanPcp : UInt8
  pad1 : UInt8
  dlType : UInt16
  nwTos : UInt8
  nwProto : UInt8
  pad2 : UInt16
  nwSrc : UInt32
  nwDst : UInt32
  tpSrc : UInt16
  tpDst : UInt16
deriving DecidableEq, Repr

def anyMatch : OfpMatch := ⟨ofpfwAll,0,⟨0,0,0,0,0,0⟩,⟨0,0,0,0,0,0⟩,0,0,0,0,0,0,0,0,0,0,0⟩

def OfpMatch.toHost (m : OfpMatch) : Bytes :=
  toHost32 m.wildcards ++ toHost16 m.inPort ++ m.dlSrc.toBytes ++ m.dlDst.toBytes ++
    toHost16 m.dlVlan ++ [m.dlVlanPcp] ++ [m.pad1] ++ toHost16 m.dlType ++ [m.nwTos] ++
    [m.nwProto] ++ toHost16 m.pad2 ++ toHost32 m.nwSrc ++ toHost32 m.nwDst ++
    toHost16 m.tpSrc ++ toHost16 m.tpDst

def OfpMatch.ofHost (b : Bytes) : OfpMatch where
  wildcards := host32 b 0
  inPort := host16 b 4
  dlSrc := Mac.ofBytes b 6
  dlDst := Mac.ofBytes b 12
  dlVlan := host16 b 18
  dlVlanPcp := hostByte b 20
  pad1 := hostByte b 21
  dlType := host16 b 22
  nwTos := hostByte b 24
  nwProto := hostByte b 25
  pad2 := host16 b 26
  nwSrc := host32 b 28
  nwDst := host32 b 32
  tpSrc := host16 b 36
  tpDst := host16 b 38

def OfpMatch.unpadded (m : OfpMatch) : OfpMatch := { m with pad1 := 0, pad2 := 0 }

end Trema.OpenFlow
