import Trema.OpenFlow.Encode
import Trema.OpenFlow.Checks

namespace Trema.OpenFlow

open Library Layout

def ActionCall.type : ActionCall → ActionType
  | .output .. => .output
  | .setVlanVid .. => .setVlanVid
  | .setVlanPcp .. => .setVlanPcp
  | .stripVlan => .stripVlan
  | .setDlSrc .. => .setDlSrc
  | .setDlDst .. => .setDlDst
  | .setNwSrc .. => .setNwSrc
  | .setNwDst .. => .setNwDst
  | .setNwTos .. => .setNwTos
  | .setTpSrc .. => .setTpSrc
  | .setTpDst .. => .setTpDst
  | .enqueue .. => .enqueue
  | .vendor .. => .vendor

def ActionCall.payload : ActionCall → Bytes
  | .output port maxLen => toHost16 port ++ toHost16 maxLen
  | .setVlanVid vlanVid => toHost16 vlanVid ++ [0,0]
  | .setVlanPcp vlanPcp => [vlanPcp,0,0,0]
  | .stripVlan => [0,0,0,0]
  | .setDlSrc hwAddr | .setDlDst hwAddr => hwAddr.toBytes ++ [0,0,0,0,0,0]
  | .setNwSrc nwAddr | .setNwDst nwAddr => toHost32 nwAddr
  | .setNwTos nwTos => [nwTos,0,0,0]
  | .setTpSrc tpPort | .setTpDst tpPort => toHost16 tpPort ++ [0,0]
  | .enqueue port queueId => toHost16 port ++ [0,0,0,0,0,0] ++ toHost32 queueId
  | .vendor vendorId body => toHost32 vendorId ++ (body.getD []).take (dataLength body)

def ActionCall.block (call : ActionCall) : Bytes :=
  actionHeader call.type (cast16 (4 + call.payload.length)) ++ call.payload

def ActionCall.Allowed : ActionCall → Prop
  | .output port _ => validatePhyPortNo port = .ok ()
  | .setVlanVid vlanVid => validateVlanVid vlanVid = .ok ()
  | .setVlanPcp vlanPcp => validateVlanPcp vlanPcp = .ok ()
  | .setNwTos nwTos => validateNwTos nwTos = .ok ()
  | .enqueue port _ => validatePhyPortNo port = .ok ()
  | .vendor _ body => (body.getD []).length % 8 = 0
  | _ => True

section Calls

theorem length_taken (body : Option Bytes) :
    ((body.getD []).take (dataLength body)).length = dataLength body := by
  cases body with
  | none => rfl
  | some b =>
    rw [List.length_take]
    exact Nat.min_eq_left (Nat.mod_le _ _)

theorem appendAction_eq_ok {actions actions' : OpenflowActions} {call : ActionCall}
    (h : appendAction actions call = .ok actions') : actions' = appendToTail actions call.block := by
  have hmac : ∀ a : Mac, a.toBytes.length = 6 := fun _ => rfl
  have hguard : ∀ {bad : Prop} [Decidable bad] {r : Exec OpenflowActions},
      (abortIf bad >>= fun _ => r) = .ok actions' → r = .ok actions' := by
    intro bad _ r hr
    obtain ⟨_,_,hr⟩ := bind_eq_ok.mp hr
    exact hr
  cases call with
  | setVlanVid v =>
    have := hguard h
    injection this with this
    rw [← this]
    simp [ActionCall.block,ActionCall.type,ActionCall.payload,cast16]
  | setVlanPcp v =>
    have := hguard h
    injection this with this
    exact this.symm
  | setNwTos v =>
    have := hguard h
    injection this with this
    exact this.symm
  | vendor v body =>
    have := hguard h
    injection this with this
    rw [← this,ActionCall.block,ActionCall.type,ActionCall.payload,List.length_append,
      length_toHost32,length_taken,← Nat.add_assoc,List.append_assoc]
  | _ =>
    injection h with h
    rw [← h]
    simp [ActionCall.block,ActionCall.type,ActionCall.payload,cast16,hmac]

theorem buildActions_eq_ok {calls : List ActionCall} {actions : OpenflowActions}
    (h : buildActions calls = .ok actions) :
    actions = ⟨calls.length,calls.map ActionCall.block⟩ := by
  have hfold : ∀ (cs : List ActionCall) (start : OpenflowActions),
      cs.foldlM appendAction start = (.ok actions : Exec OpenflowActions) →
      actions = ⟨start.nActions + cs.length,start.list ++ cs.map ActionCall.block⟩ := by
    intro cs
    induction cs with
    | nil =>
      intro start hs
      injection hs with hs
      simp [← hs]
    | cons c cs ih =>
      intro start hs
      rw [List.foldlM_cons] at hs
      obtain ⟨next,hnext,hs⟩ := bind_eq_ok.mp hs
      rw [appendAction_eq_ok hnext] at hs
      have := ih _ hs
      simp only [appendToTail] at this
      rw [this,List.length_cons,List.map_cons,List.append_assoc]
      simp only [List.cons_append,List.nil_append]
      congr 1
      omega
  have := hfold calls createActions h
  simpa [createActions] using this

theorem host16_actionHeader (type : ActionType) (len : Nat) (rest : Bytes) :
    host16 (actionHeader type len ++ rest) 0 = type.code ∧
      host16 (actionHeader type len ++ rest) 2 = UInt16.ofNat len := by
  constructor
  · rw [actionHeader,List.append_assoc,host16,slice_append_left (by simp),slice_whole (by simp),
      ofNat_leNat_toHost16]
  · rw [actionHeader,List.append_assoc,host16,slice_append_right _ (by simp),
      slice_append_left (by simp),length_toHost16,slice_whole (by simp),ofNat_leNat_toHost16]

theorem length_block (call : ActionCall) : call.block.length = 4 + call.payload.length := by
  simp only [ActionCall.block,actionHeader,List.length_append,length_toHost16]

theorem length_payload (call : ActionCall) : size (actionFields call.type) ≤ 4 + call.payload.length ∧
    (call.type ≠ .vendor → 4 + call.payload.length = size (actionFields call.type)) := by
  cases call with
  | vendor v body =>
    rw [ActionCall.payload,List.length_append,length_toHost32]
    rw [← Nat.add_assoc]
    exact ⟨Nat.le_add_right 8 _,fun h => absurd rfl h⟩
  | _ => exact ⟨le_rfl,fun _ => rfl⟩

theorem actionBlock_block {call : ActionCall} (h : call.block.length < 65536) :
    ActionBlock .host call.type call.block := by
  rw [length_block] at h
  obtain ⟨htype,hlen⟩ := host16_actionHeader call.type (cast16 (4 + call.payload.length)) call.payload
  refine ⟨?_,?_,?_,?_⟩
  · show ActionType.ofCode (host16 call.block 0) = _
    rw [ActionCall.block,htype,ActionType.ofCode_code]
  · show (host16 call.block 2).toNat = _
    rw [ActionCall.block,hlen,cast16_of_lt h,UInt16.toNat_ofNat_of_lt' h]
    exact (length_block call).symm
  · rw [length_block]
    exact (length_payload call).1
  · rw [length_block]
    exact (length_payload call).2

theorem actionCheck_block {call : ActionCall} (h : call.Allowed) :
    actionCheck call.type call.block = .ok () ∧
      (call.type = .vendor → call.block.length % 8 = 0) := by
  have hfield : ∀ (type : ActionType) (len : Nat) (v : UInt16) (rest : Bytes),
      host16 (actionHeader type len ++ (toHost16 v ++ rest)) 4 = v := by
    intro type len v rest
    rw [host16,slice_append_right _ (by simp [actionHeader]),slice_append_left (by simp [actionHeader])]
    simp [actionHeader,slice_whole]
  have hbyte : ∀ (type : ActionType) (len : Nat) (v : UInt8) (rest : Bytes),
      hostByte (actionHeader type len ++ (v :: rest)) 4 = v := by
    intro type len v rest
    rw [hostByte,slice_append_right _ (by simp [actionHeader])]
    simp [actionHeader,slice,leNat]
  cases call with
  | vendor v body =>
    refine ⟨rfl,fun _ => ?_⟩
    simp only [ActionCall.Allowed] at h
    rw [length_block,ActionCall.payload,List.length_append,length_taken,length_toHost32]
    cases body with
    | none => rfl
    | some b =>
      simp only [Option.getD_some] at h
      simp only [dataLength,cast16]
      omega
  | setVlanPcp v => exact ⟨(congrArg validateVlanPcp (hbyte _ _ _ _)).trans h,by simp [ActionCall.type]⟩
  | setNwTos v => exact ⟨(congrArg validateNwTos (hbyte _ _ _ _)).trans h,by simp [ActionCall.type]⟩
  | output port _ => exact ⟨(congrArg validatePhyPortNo (hfield _ _ _ _)).trans h,by simp [ActionCall.type]⟩
  | setVlanVid v => exact ⟨(congrArg validateVlanVid (hfield _ _ _ _)).trans h,by simp [ActionCall.type]⟩
  | enqueue port id =>
    refine ⟨(congrArg validatePhyPortNo ?_).trans h,by simp [ActionCall.type]⟩
    rw [ActionCall.block,ActionCall.payload,List.append_assoc]
    exact hfield _ _ _ _
  | _ => exact ⟨rfl,by simp [ActionCall.type]⟩

theorem blank_block (call : ActionCall) :
    blank (actionFields call.type) call.block = call.block.take (size (actionFields call.type)) := by
  cases call <;> rfl

end Calls

inductive Construction where
  | error (type code : UInt16) (data : Option Bytes)
  | hello
  | echoRequest (body : Option Bytes)
  | echoReply (body : Option Bytes)
  | vendor (vendorId : UInt32) (data : Option Bytes)
  | featuresRequest
  | featuresReply (datapathId : UInt64) (nBuffers : UInt32) (nTables : UInt8)
      (capabilities actions : UInt32) (ports : List PhyPort)
  | getConfigRequest
  | getConfigReply (flags missSendLen : UInt16)
  | setConfig (flags missSendLen : UInt16)
  | packetIn (bufferId : UInt32) (totalLen inPort : UInt16) (reason : UInt8) (data : Option Bytes)
  | flowRemoved (mtch : OfpMatch) (cookie : UInt64) (priority : UInt16) (reason : UInt8)
      (durationSec durationNsec : UInt32) (idleTimeout : UInt16) (packetCount byteCount : UInt64)
  | portStatus (reason : UInt8) (desc : PhyPort)
  | packetOut (bufferId : UInt32) (inPort : UInt16) (actions : Option OpenflowActions)
      (data : Option Bytes)
  | flowMod (mtch : OfpMatch) (cookie : UInt64)
      (command idleTimeout hardTimeout priority : UInt16) (bufferId : UInt32)
      (outPort flags : UInt16) (actions : Option OpenflowActions)
  | portMod (portNo : UInt16) (hwAddr : Mac) (config mask advertise : UInt32)
  | descStatsRequest (flags : UInt16)
  | flowStatsRequest (flags : UInt16) (mtch : OfpMatch) (tableId : UInt8) (outPort : UInt16)
  | aggregateStatsRequest (flags : UInt16) (mtch : OfpMatch) (tableId : UInt8) (outPort : UInt16)
  | tableStatsRequest (flags : UInt16)
  | portStatsRequest (flags portNo : UInt16)
  | queueStatsRequest (flags portNo : UInt16) (queueId : UInt32)
  | vendorStatsRequest (flags : UInt16) (vendorId : UInt32) (body : Option Bytes)
  | descStatsReply (flags : UInt16) (mfrDesc hwDesc swDesc serialNum dpDesc : Bytes)
  | flowStatsReply (flags : UInt16) (flows : List FlowStats)
  | aggregateStatsReply (flags : UInt16) (packetCount byteCount : UInt64) (flowCount : UInt32)
  | tableStatsReply (flags : UInt16) (tables : List TableStats)
  | portStatsReply (flags : UInt16) (ports : List PortStats)
  | queueStatsReply (flags : UInt16) (queues : List QueueStats)
  | vendorStatsReply (flags : UInt16) (vendorId : UInt32) (body : Option Bytes)
  | barrierRequest
  | barrierReply
  | queueGetConfigRequest (port : UInt16)
  | queueGetConfigReply (port : UInt16) (queues : List PacketQueue)

def create (fuel : Nat) (xid : UInt32) : Construction → Exec Bytes
  | .error type code data => createError xid type code data
  | .hello => createHello xid
  | .echoRequest body => createEchoRequest xid body
  | .echoReply body => createEchoReply xid body
  | .vendor vendorId data => createVendor xid vendorId data
  | .featuresRequest => createFeaturesRequest xid
  | .featuresReply datapathId nBuffers nTables capabilities actions ports =>
    createFeaturesReply xid datapathId nBuffers nTables capabilities actions ports
  | .getConfigRequest => createGetConfigRequest xid
  | .getConfigReply flags missSendLen => createGetConfigReply xid flags missSendLen
  | .setConfig flags missSendLen => createSetConfig xid flags missSendLen
  | .packetIn bufferId totalLen inPort reason data =>
    createPacketIn xid bufferId totalLen inPort reason data
  | .flowRemoved mtch cookie priority reason durationSec durationNsec idleTimeout packetCount
      byteCount =>
    createFlowRemoved xid mtch cookie priority reason durationSec durationNsec idleTimeout
      packetCount byteCount
  | .portStatus reason desc => createPortStatus xid reason desc
  | .packetOut bufferId inPort actions data => createPacketOut xid bufferId inPort actions data
  | .flowMod mtch cookie command idleTimeout hardTimeout priority bufferId outPort flags actions =>
    createFlowMod xid mtch cookie command idleTimeout hardTimeout priority bufferId outPort flags
      actions
  | .portMod portNo hwAddr config mask advertise =>
    createPortMod xid portNo hwAddr config mask advertise
  | .descStatsRequest flags => createDescStatsRequest xid flags
  | .flowStatsRequest flags mtch tableId outPort =>
    createFlowStatsRequest xid flags mtch tableId outPort
  | .aggregateStatsRequest flags mtch tableId outPort =>
    createAggregateStatsRequest xid flags mtch tableId outPort
  | .tableStatsRequest flags => createTableStatsRequest xid flags
  | .portStatsRequest flags portNo => createPortStatsRequest xid flags portNo
  | .queueStatsRequest flags portNo queueId => createQueueStatsRequest xid flags portNo queueId
  | .vendorStatsRequest flags vendorId body => createVendorStatsRequest xid flags vendorId body
  | .descStatsReply flags mfrDesc hwDesc swDesc serialNum dpDesc =>
    createDescStatsReply xid flags mfrDesc hwDesc swDesc serialNum dpDesc
  | .flowStatsReply flags flows => createFlowStatsReply xid fuel flags flows
  | .aggregateStatsReply flags packetCount byteCount flowCount =>
    createAggregateStatsReply xid flags packetCount byteCount flowCount
  | .tableStatsReply flags tables => createTableStatsReply xid flags tables
  | .portStatsReply flags ports => createPortStatsReply xid flags ports
  | .queueStatsReply flags queues => createQueueStatsReply xid flags queues
  | .vendorStatsReply flags vendorId body => createVendorStatsReply xid flags vendorId body
  | .barrierRequest => createBarrierRequest xid
  | .barrierReply => createBarrierReply xid
  | .queueGetConfigRequest port => createQueueGetConfigRequest xid port
  | .queueGetConfigReply port queues => createQueueGetConfigReply xid fuel port queues

def Construction.type : Construction → OfpType
  | .error .. => .error
  | .hello => .hello
  | .echoRequest .. => .echoRequest
  | .echoReply .. => .echoReply
  | .vendor .. => .vendor
  | .featuresRequest => .featuresRequest
  | .featuresReply .. => .featuresReply
  | .getConfigRequest => .getConfigRequest
  | .getConfigReply .. => .getConfigReply
  | .setConfig .. => .setConfig
  | .packetIn .. => .packetIn
  | .flowRemoved .. => .flowRemoved
  | .portStatus .. => .portStatus
  | .packetOut .. => .packetOut
  | .flowMod .. => .flowMod
  | .portMod .. => .portMod
  | .descStatsRequest .. | .flowStatsRequest .. | .aggregateStatsRequest ..
  | .tableStatsRequest .. | .portStatsRequest .. | .queueStatsRequest ..
  | .vendorStatsRequest .. => .statsRequest
  | .descStatsReply .. | .flowStatsReply .. | .aggregateStatsReply ..
  | .tableStatsReply .. | .portStatsReply .. | .queueStatsReply ..
  | .vendorStatsReply .. => .statsReply
  | .barrierRequest => .barrierRequest
  | .barrierReply => .barrierReply
  | .queueGetConfigRequest .. => .queueGetConfigRequest
  | .queueGetConfigReply .. => .queueGetConfigReply

def netMatch (mtch : OfpMatch) : Bytes := cells matchFields mtch.toHost

def netActions (actions : Option OpenflowActions) : Bytes :=
  concat (convertBlock .host) (actionList actions)

def netStructs {fs : List Field} (structs : List (Struct fs)) : Bytes :=
  concat (fun s => cells fs s.bytes) structs

def statsHead (type : StatsType) (flags : UInt16) : Bytes := toNet16 type.code ++ toNet16 flags

def Construction.body : Construction → Bytes
  | .error type code data => toNet16 type ++ toNet16 code ++ data.getD []
  | .echoRequest data | .echoReply data => data.getD []
  | .vendor vendorId data => toNet32 vendorId ++ data.getD []
  | .featuresReply datapathId nBuffers nTables capabilities actions ports =>
    toNet64 datapathId ++ toNet32 nBuffers ++ [nTables,0,0,0] ++ toNet32 capabilities ++
      toNet32 actions ++ netStructs ports
  | .getConfigReply flags missSendLen | .setConfig flags missSendLen =>
    toNet16 flags ++ toNet16 missSendLen
  | .packetIn bufferId totalLen inPort reason data =>
    toNet32 bufferId ++ toNet16 totalLen ++ toNet16 inPort ++ [reason,0] ++ data.getD []
  | .flowRemoved mtch cookie priority reason durationSec durationNsec idleTimeout packetCount
      byteCount =>
    netMatch mtch ++ toNet64 cookie ++ toNet16 priority ++ [reason,0] ++ toNet32 durationSec ++
      toNet32 durationNsec ++ toNet16 idleTimeout ++ [0,0] ++ toNet64 packetCount ++
      toNet64 byteCount
  | .portStatus reason desc => [reason,0,0,0,0,0,0,0] ++ cells phyPortFields desc.bytes
  | .packetOut bufferId inPort actions data =>
    toNet32 bufferId ++ toNet16 inPort ++
      toNet16 (UInt16.ofNat (actionList actions).flatten.length) ++ netActions actions ++
      data.getD []
  | .flowMod mtch cookie command idleTimeout hardTimeout priority bufferId outPort flags actions =>
    netMatch mtch ++ toNet64 cookie ++ toNet16 command ++ toNet16 idleTimeout ++
      toNet16 hardTimeout ++ toNet16 priority ++ toNet32 bufferId ++ toNet16 outPort ++
      toNet16 flags ++ netActions actions
  | .portMod portNo hwAddr config mask advertise =>
    toNet16 portNo ++ hwAddr.toBytes ++ toNet32 config ++ toNet32 mask ++ toNet32 advertise ++
      [0,0,0,0]
  | .descStatsRequest flags => statsHead .desc flags
  | .flowStatsRequest flags mtch tableId outPort =>
    statsHead .flow flags ++ (netMatch mtch ++ [tableId,0] ++ toNet16 outPort)
  | .aggregateStatsRequest flags mtch tableId outPort =>
    statsHead .aggregate flags ++ (netMatch mtch ++ [tableId,0] ++ toNet16 outPort)
  | .tableStatsRequest flags => statsHead .table flags
  | .portStatsRequest flags portNo => statsHead .port flags ++ (toNet16 portNo ++ [0,0,0,0,0,0])
  | .queueStatsRequest flags portNo queueId =>
    statsHead .queue flags ++ (toNet16 portNo ++ [0,0] ++ toNet32 queueId)
  | .vendorStatsRequest flags vendorId data | .vendorStatsReply flags vendorId data =>
    statsHead .vendor flags ++ toNet32 vendorId ++ data.getD []
  | .descStatsReply flags mfrDesc hwDesc swDesc serialNum dpDesc =>
    statsHead .desc flags ++ mfrDesc ++ hwDesc ++ swDesc ++ serialNum.take 32 ++ dpDesc
  | .flowStatsReply flags flows => statsHead .flow flags ++ concat netFlow flows
  | .aggregateStatsReply flags packetCount byteCount flowCount =>
    statsHead .aggregate flags ++
      (toNet64 packetCount ++ toNet64 byteCount ++ toNet32 flowCount ++ [0,0,0,0])
  | .tableStatsReply flags tables => statsHead .table flags ++ netStructs tables
  | .portStatsReply flags ports => statsHead .port flags ++ netStructs ports
  | .queueStatsReply flags queues => statsHead .queue flags ++ netStructs queues
  | .queueGetConfigRequest port => toNet16 port ++ [0,0]
  | .queueGetConfigReply port queues => toNet16 port ++ [0,0,0,0,0,0] ++ concat netQueue queues
  | _ => []

def encode (xid : UInt32) (c : Construction) : Bytes := framed xid c.type c.body

def Construction.size (c : Construction) : Nat := 8 + c.body.length

def AllowedAction (b : Bytes) : Prop :=
  ∃ t, ActionBlock .host t b ∧ actionCheck t b = .ok () ∧ (t = .vendor → b.length % 8 = 0)

def Built (actions : Option OpenflowActions) : Prop :=
  ∀ a, actions = some a → ∃ calls, buildActions calls = .ok a ∧ ∀ c ∈ calls, c.Allowed

structure PhyPort.Allowed (port : PhyPort) : Prop where
  portNo : validatePhyPortNo (host16 port.bytes 0) = .ok ()
  config : host32 port.bytes 24 &&& ~~~portConfig = 0
  state : host32 port.bytes 28 &&& ~~~portState = 0
  curr : host32 port.bytes 32 &&& ~~~portFeatures = 0
  advertised : host32 port.bytes 36 &&& ~~~portFeatures = 0
  supported : host32 port.bytes 40 &&& ~~~portFeatures = 0
  peer : host32 port.bytes 44 &&& ~~~portFeatures = 0

structure FlowStats.Allowed (flow : FlowStats) : Prop where
  mtch : validateMatch (OfpMatch.ofHost (flow.bytes.drop 4)) = .ok ()
  priority : exactWildcards (OfpMatch.ofHost (flow.bytes.drop 4)) →
    host16 flow.bytes 52 = uint16Max
  actions : ∀ b ∈ flow.actions, AllowedAction b

def Construction.Allowed : Construction → Prop
  | .featuresReply _ _ nTables _ _ ports => nTables ≠ 0 ∧ ∀ p ∈ ports, PhyPort.Allowed p
  | .getConfigReply flags _ | .setConfig flags _ => flags ≤ ofpcFragMask
  | .packetIn _ _ inPort reason _ => validatePhyPortNo inPort = .ok () ∧ reason ≤ ofprAction
  | .flowRemoved mtch _ priority reason _ _ _ _ _ => validateMatch mtch = .ok () ∧
      (exactWildcards mtch → priority = uint16Max) ∧ reason ≤ ofprrDelete
  | .portStatus reason desc => reason ≤ ofpprModify ∧ PhyPort.Allowed desc
  | .packetOut _ inPort actions _ => validatePhyPortNo inPort = .ok () ∧ Built actions
  | .flowMod mtch _ command _ _ priority _ outPort flags actions => validateMatch mtch = .ok () ∧
      command ≤ ofpfcDeleteStrict ∧ (exactWildcards mtch → priority = uint16Max) ∧
      (command = ofpfcDelete ∨ command = ofpfcDeleteStrict → outPort ≠ ofppNone →
        validatePhyPortNo outPort = .ok ()) ∧ flags &&& ~~~flowModFlags = 0 ∧ Built actions
  | .portMod portNo _ config mask advertise => validatePhyPortNo portNo = .ok () ∧
      (portNo ≤ ofppMax ∨ portNo = ofppLocal) ∧ config &&& ~~~portConfig = 0 ∧
      mask &&& ~~~portConfig = 0 ∧ advertise &&& ~~~portFeatures = 0
  | .descStatsRequest flags | .tableStatsRequest flags | .vendorStatsRequest flags _ _ => flags = 0
  | .flowStatsRequest flags mtch _ outPort | .aggregateStatsRequest flags mtch _ outPort =>
      flags = 0 ∧ validateMatch mtch = .ok () ∧ validatePhyPortNo outPort = .ok ()
  | .portStatsRequest flags portNo => flags = 0 ∧ validatePhyPortNo portNo = .ok () ∧
      (portNo ≤ ofppMax ∨ portNo = ofppNone ∨ portNo = ofppLocal)
  | .queueStatsRequest flags portNo _ => flags = 0 ∧ validatePhyPortNo portNo = .ok ()
  | .descStatsReply flags mfrDesc hwDesc swDesc serialNum dpDesc => flags = 0 ∧
      mfrDesc.length = 256 ∧ hwDesc.length = 256 ∧ swDesc.length = 256 ∧ 32 ≤ serialNum.length ∧
      dpDesc.length = 256
  | .flowStatsReply flags flows => flags &&& ~~~ofpsfReplyMore = 0 ∧
      ∀ flow ∈ flows, FlowStats.Allowed flow
  | .aggregateStatsReply flags _ _ _ => flags = 0
  | .tableStatsReply flags tables => flags &&& ~~~ofpsfReplyMore = 0 ∧
      ∀ table ∈ tables, validateWildcards (host32 table.bytes 36) = .ok ()
  | .portStatsReply flags ports => flags &&& ~~~ofpsfReplyMore = 0 ∧
      ∀ port ∈ ports, validatePhyPortNo (host16 port.bytes 0) = .ok ()
  | .queueStatsReply flags queues => flags &&& ~~~ofpsfReplyMore = 0 ∧
      ∀ queue ∈ queues, validatePhyPortNo (host16 queue.bytes 0) = .ok ()
  | .vendorStatsReply flags _ _ => flags &&& ~~~ofpsfReplyMore = 0
  | .queueGetConfigRequest port => validatePhyPortNo port = .ok ()
  | .queueGetConfigReply port queues => validatePhyPortNo port = .ok () ∧
      ∀ queue ∈ queues, queue.properties ≠ []
  | _ => True

def Construction.Guarded : Construction → Prop
  | .packetOut bufferId _ _ data => bufferId = uint32Max → ∃ frame, data = some frame ∧
      60 ≤ frame.length
  | .descStatsReply _ _ _ _ serialNum _ => 256 ≤ serialNum.length
  | .queueGetConfigReply _ queues => queues ≠ []
  | _ => True

end Trema.OpenFlow
