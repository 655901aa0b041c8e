import Trema.OpenFlow.SwitchInterface
import Trema.OpenFlow.Blocks

namespace Trema.OpenFlow

open Library Layout

def cast16 (n : Nat) : Nat := n % 65536

theorem cast16_of_lt {n : Nat} (h : n < 65536) : cast16 n = n := Nat.mod_eq_of_lt h

structure Struct (fs : List Field) where
  bytes : Bytes
  sized : bytes.length = size fs

abbrev PhyPort := Struct phyPortFields
abbrev TableStats := Struct tableStatsFields
abbrev PortStats := Struct portStatsFields
abbrev QueueStats := Struct queueStatsFields

structure FlowStats where
  bytes : Bytes
  actions : List Bytes
  block : FlowBlock .host bytes actions

structure PacketQueue where
  bytes : Bytes
  properties : List Bytes
  block : QueueBlock .host bytes properties

section Actions

def createActions : OpenflowActions := ⟨0,[]⟩

def appendToTail (actions : OpenflowActions) (action : Bytes) : OpenflowActions :=
  ⟨actions.nActions + 1,actions.list ++ [action]⟩

def actionHeader (type : ActionType) (len : Nat) : Bytes :=
  toHost16 type.code ++ toHost16 (UInt16.ofNat len)

variable (actions : OpenflowActions)

def appendActionOutput (port maxLen : UInt16) : Exec OpenflowActions :=
  pure (appendToTail actions (actionHeader .output 8 ++ toHost16 port ++ toHost16 maxLen))

def appendActionSetVlanVid (vlanVid : UInt16) : Exec OpenflowActions := do
  abortIf (vlanVid &&& ~~~vlanVidMask ≠ 0)
  pure (appendToTail actions (actionHeader .setVlanVid 8 ++ toHost16 vlanVid ++ [0,0]))

def appendActionSetVlanPcp (vlanPcp : UInt8) : Exec OpenflowActions := do
  abortIf (vlanPcp &&& ~~~vlanPcpMask ≠ 0)
  pure (appendToTail actions (actionHeader .setVlanPcp 8 ++ [vlanPcp,0,0,0]))

def appendActionStripVlan : Exec OpenflowActions :=
  pure (appendToTail actions (actionHeader .stripVlan 8 ++ [0,0,0,0]))

def appendActionSetDlAddr (type : ActionType) (hwAddr : Mac) : Exec OpenflowActions :=
  pure (appendToTail actions (actionHeader type 16 ++ hwAddr.toBytes ++ [0,0,0,0,0,0]))

def appendActionSetDlSrc : Mac → Exec OpenflowActions := appendActionSetDlAddr actions .setDlSrc
def appendActionSetDlDst : Mac → Exec OpenflowActions := appendActionSetDlAddr actions .setDlDst

def appendActionSetNwAddr (type : ActionType) (nwAddr : UInt32) : Exec OpenflowActions :=
  pure (appendToTail actions (actionHeader type 8 ++ toHost32 nwAddr))

def appendActionSetNwSrc : UInt32 → Exec OpenflowActions := appendActionSetNwAddr actions .setNwSrc
def appendActionSetNwDst : UInt32 → Exec OpenflowActions := appendActionSetNwAddr actions .setNwDst

def appendActionSetNwTos (nwTos : UInt8) : Exec OpenflowActions := do
  abortIf (nwTos &&& ~~~nwTosMask ≠ 0)
  pure (appendToTail actions (actionHeader .setNwTos 8 ++ [nwTos,0,0,0]))

def appendActionSetTpPort (type : ActionType) (tpPort : UInt16) : Exec OpenflowActions :=
  pure (appendToTail actions (actionHeader type 8 ++ toHost16 tpPort ++ [0,0]))

def appendActionSetTpSrc : UInt16 → Exec OpenflowActions := appendActionSetTpPort actions .setTpSrc
def appendActionSetTpDst : UInt16 → Exec OpenflowActions := appendActionSetTpPort actions .setTpDst

def appendActionEnqueue (port : UInt16) (queueId : UInt32) : Exec OpenflowActions :=
  pure (appendToTail actions (actionHeader .enqueue 16 ++ toHost16 port ++ [0,0,0,0,0,0] ++
    toHost32 queueId))

def dataLength : Option Bytes → Nat
  | some data => cast16 data.length
  | none => 0

def appendActionVendor (vendor : UInt32) (body : Option Bytes) : Exec OpenflowActions := do
  abortIf (dataLength body % 8 ≠ 0)
  pure (appendToTail actions (actionHeader .vendor (cast16 (8 + dataLength body)) ++
    toHost32 vendor ++ (body.getD []).take (dataLength body)))

end Actions

inductive ActionCall where
  | output (port maxLen : UInt16)
  | setVlanVid (vlanVid : UInt16)
  | setVlanPcp (vlanPcp : UInt8)
  | stripVlan
  | setDlSrc (hwAddr : Mac)
  | setDlDst (hwAddr : Mac)
  | setNwSrc (nwAddr : UInt32)
  | setNwDst (nwAddr : UInt32)
  | setNwTos (nwTos : UInt8)
  | setTpSrc (tpPort : UInt16)
  | setTpDst (tpPort : UInt16)
  | enqueue (port : UInt16) (queueId : UInt32)
  | vendor (vendor : UInt32) (body : Option Bytes)
deriving DecidableEq, Repr

def appendAction (actions : OpenflowActions) : ActionCall → Exec OpenflowActions
  | .output port maxLen => appendActionOutput actions port maxLen
  | .setVlanVid vlanVid => appendActionSetVlanVid actions vlanVid
  | .setVlanPcp vlanPcp => appendActionSetVlanPcp actions vlanPcp
  | .stripVlan => appendActionStripVlan actions
  | .setDlSrc hwAddr => appendActionSetDlSrc actions hwAddr
  | .setDlDst hwAddr => appendActionSetDlDst actions hwAddr
  | .setNwSrc nwAddr => appendActionSetNwSrc actions nwAddr
  | .setNwDst nwAddr => appendActionSetNwDst actions nwAddr
  | .setNwTos nwTos => appendActionSetNwTos actions nwTos
  | .setTpSrc tpPort => appendActionSetTpSrc actions tpPort
  | .setTpDst tpPort => appendActionSetTpDst actions tpPort
  | .enqueue port queueId => appendActionEnqueue actions port queueId
  | .vendor vendor body => appendActionVendor actions vendor body

def buildActions (calls : List ActionCall) : Exec OpenflowActions :=
  calls.foldlM appendAction createActions

section Writing

def createHeader (transactionId : UInt32) (type : OfpType) (length : Nat) : Exec Bytes := do
  abortIf (length < 8)
  pure ([ofpVersion,type.code] ++ toNet16 (UInt16.ofNat length) ++ toNet32 transactionId ++
    List.replicate (length - 8) 0)

def createFields (transactionId : UInt32) (type : OfpType) (length : Nat) (fields : Bytes) :
    Exec Bytes := do
  let buffer ← createHeader transactionId type length
  store buffer 8 fields

def copyData (buffer : Bytes) (p : Nat) (data : Option Bytes) : Exec Bytes :=
  if 0 < dataLength data then do
    let bytes ← load (data.getD []) 0 (dataLength data)
    store buffer p bytes
  else
    pure buffer

def htonMatch (mtch : OfpMatch) : Exec Bytes := convert matchFields mtch.toHost 0

def addActionLength (total : Nat) (action : Bytes) : Exec Nat := do
  let type ← Order.host.read16 action 0
  abortIf (¬ (type ≤ ActionType.enqueue.code ∨ type = ActionType.vendor.code))
  let len ← Order.host.read16 action 2
  pure (total + len.toNat)

def getActionsLength (actions : OpenflowActions) : Exec Nat := do
  let actionsLength ← actions.list.foldlM addActionLength 0
  abortIf (65535 < actionsLength)
  pure actionsLength

def optionalActionsLength : Option OpenflowActions → Exec Nat
  | some actions => getActionsLength actions
  | none => pure 0

def htonActions (buffer : Bytes) (a : Nat) : List Bytes → Exec Bytes
  | [] => pure buffer
  | action :: rest => do
    let len ← Order.host.read16 action 2
    let cells ← htonAction action 0
    let buffer ← store buffer a cells
    htonActions buffer (a + len.toNat) rest

def copyActions (buffer : Bytes) (a : Nat) (actionsLength : Nat)
    (actions : Option OpenflowActions) : Exec Bytes :=
  if 0 < actionsLength then htonActions buffer a ((actions.map OpenflowActions.list).getD [])
  else pure buffer

def htonStructs {fs : List Field} (buffer : Bytes) (p : Nat) : List (Struct fs) → Exec Bytes
  | [] => pure buffer
  | s :: rest => do
    let cells ← convert fs s.bytes 0
    let buffer ← store buffer p cells
    htonStructs buffer (p + size fs) rest

def htonFlows (fuel : Nat) (buffer : Bytes) (p : Nat) : List FlowStats → Exec Bytes
  | [] => pure buffer
  | flow :: rest => do
    let buffer ← htonFlowStats fuel flow.bytes 0 buffer p
    let length ← Order.host.read16 flow.bytes 0
    htonFlows fuel buffer (p + length.toNat) rest

def htonQueues (fuel : Nat) (buffer : Bytes) (p : Nat) : List PacketQueue → Exec Bytes
  | [] => pure buffer
  | queue :: rest => do
    let buffer ← htonPacketQueue fuel queue.bytes 0 buffer p
    let len ← Order.host.read16 queue.bytes 4
    htonQueues fuel buffer (p + len.toNat) rest

def addLength (off : Nat) (total : Nat) (entry : Bytes) : Exec Nat := do
  let length ← Order.host.read16 entry off
  pure (cast16 (total + length.toNat))

end Writing

section Constructors

variable (transactionId : UInt32)

def createError (type code : UInt16) (data : Option Bytes) : Exec Bytes := do
  let buffer ← createFields transactionId .error (cast16 (12 + dataLength data))
    (toNet16 type ++ toNet16 code)
  if 0 < dataLength data then store buffer 12 (data.getD []) else pure buffer

def createHello : Exec Bytes := createHeader transactionId .hello 8

def createEcho (type : OfpType) (body : Option Bytes) : Exec Bytes := do
  let buffer ← createHeader transactionId type (cast16 (8 + dataLength body))
  copyData buffer 8 body

def createEchoRequest : Option Bytes → Exec Bytes := createEcho transactionId .echoRequest
def createEchoReply : Option Bytes → Exec Bytes := createEcho transactionId .echoReply

def createVendor (vendor : UInt32) (data : Option Bytes) : Exec Bytes := do
  let buffer ← createFields transactionId .vendor (cast16 (12 + dataLength data)) (toNet32 vendor)
  copyData buffer 12 data

def createFeaturesRequest : Exec Bytes := createHeader transactionId .featuresRequest 8

def createFeaturesReply (datapathId : UInt64) (nBuffers : UInt32) (nTables : UInt8)
    (capabilities actions : UInt32) (ports : List PhyPort) : Exec Bytes := do
  let nPorts := cast16 ports.length
  let buffer ← createFields transactionId .featuresReply (cast16 (32 + 48 * nPorts))
    (toNet64 datapathId ++ toNet32 nBuffers ++ [nTables,0,0,0] ++ toNet32 capabilities ++
      toNet32 actions)
  if 0 < nPorts then htonStructs buffer 32 ports else pure buffer

def createGetConfigRequest : Exec Bytes := createHeader transactionId .getConfigRequest 8

def createSwitchConfig (type : OfpType) (flags missSendLen : UInt16) : Exec Bytes :=
  createFields transactionId type 12 (toNet16 flags ++ toNet16 missSendLen)

def createGetConfigReply : UInt16 → UInt16 → Exec Bytes :=
  createSwitchConfig transactionId .getConfigReply

def createSetConfig : UInt16 → UInt16 → Exec Bytes := createSwitchConfig transactionId .setConfig

def createPacketIn (bufferId : UInt32) (totalLen inPort : UInt16) (reason : UInt8)
    (data : Option Bytes) : Exec Bytes := do
  let buffer ← createFields transactionId .packetIn (cast16 (18 + dataLength data))
    (toNet32 bufferId ++ toNet16 totalLen ++ toNet16 inPort ++ [reason,0])
  copyData buffer 18 data

def createFlowRemoved (mtch : OfpMatch) (cookie : UInt64) (priority : UInt16) (reason : UInt8)
    (durationSec durationNsec : UInt32) (idleTimeout : UInt16) (packetCount byteCount : UInt64) :
    Exec Bytes := do
  let buffer ← createHeader transactionId .flowRemoved 88
  let mtch ← htonMatch mtch
  store buffer 8 (mtch ++ toNet64 cookie ++ toNet16 priority ++ [reason,0] ++
    toNet32 durationSec ++ toNet32 durationNsec ++ toNet16 idleTimeout ++ [0,0] ++
    toNet64 packetCount ++ toNet64 byteCount)

def createPortStatus (reason : UInt8) (desc : PhyPort) : Exec Bytes := do
  let buffer ← createHeader transactionId .portStatus 64
  let desc ← convert phyPortFields desc.bytes 0
  store buffer 8 ([reason,0,0,0,0,0,0,0] ++ desc)

def ethMinimumFrame (bufferId : UInt32) (data : Option Bytes) : Exec Unit :=
  onlyIf (bufferId = uint32Max) do
    abortIf (data = none)
    abortIf ((data.getD []).length + 4 < 64)

def createPacketOut (bufferId : UInt32) (inPort : UInt16) (actions : Option OpenflowActions)
    (data : Option Bytes) : Exec Bytes := do
  ethMinimumFrame bufferId data
  let actionsLength ← optionalActionsLength actions
  let buffer ← createFields transactionId .packetOut
    (cast16 (16 + actionsLength + dataLength data))
    (toNet32 bufferId ++ toNet16 inPort ++ toNet16 (UInt16.ofNat actionsLength))
  let buffer ← copyActions buffer 16 actionsLength actions
  copyData buffer (16 + actionsLength) data

def createFlowMod (mtch : OfpMatch) (cookie : UInt64)
    (command idleTimeout hardTimeout priority : UInt16) (bufferId : UInt32)
    (outPort flags : UInt16) (actions : Option OpenflowActions) : Exec Bytes := do
  let actionsLength ← optionalActionsLength actions
  let buffer ← createHeader transactionId .flowMod (cast16 (72 + actionsLength))
  let mtch ← htonMatch mtch
  let buffer ← store buffer 8 (mtch ++ toNet64 cookie ++ toNet16 command ++ toNet16 idleTimeout ++
    toNet16 hardTimeout ++ toNet16 priority ++ toNet32 bufferId ++ toNet16 outPort ++
    toNet16 flags)
  copyActions buffer 72 actionsLength actions

def createPortMod (portNo : UInt16) (hwAddr : Mac) (config mask advertise : UInt32) : Exec Bytes :=
  createFields transactionId .portMod 32 (toNet16 portNo ++ hwAddr.toBytes ++ toNet32 config ++
    toNet32 mask ++ toNet32 advertise ++ [0,0,0,0])

def createStats (type : OfpType) (statsType : StatsType) (length : Nat) (flags : UInt16) :
    Exec Bytes :=
  createFields transactionId type length (toNet16 statsType.code ++ toNet16 flags)

def createStatsRequest : StatsType → Nat → UInt16 → Exec Bytes :=
  createStats transactionId .statsRequest

def createStatsReply : StatsType → Nat → UInt16 → Exec Bytes := createStats transactionId .statsReply

def createDescStatsRequest (flags : UInt16) : Exec Bytes :=
  createStatsRequest transactionId .desc 12 flags

def createFlowStatsRequestOf (type : StatsType) (flags : UInt16) (mtch : OfpMatch)
    (tableId : UInt8) (outPort : UInt16) : Exec Bytes := do
  let buffer ← createStatsRequest transactionId type (cast16 (12 + 44)) flags
  let mtch ← htonMatch mtch
  store buffer 12 (mtch ++ [tableId,0] ++ toNet16 outPort)

def createFlowStatsRequest : UInt16 → OfpMatch → UInt8 → UInt16 → Exec Bytes :=
  createFlowStatsRequestOf transactionId .flow

def createAggregateStatsRequest : UInt16 → OfpMatch → UInt8 → UInt16 → Exec Bytes :=
  createFlowStatsRequestOf transactionId .aggregate

def createTableStatsRequest (flags : UInt16) : Exec Bytes :=
  createStatsRequest transactionId .table 12 flags

def createPortStatsRequest (flags portNo : UInt16) : Exec Bytes := do
  let buffer ← createStatsRequest transactionId .port (cast16 (12 + 8)) flags
  store buffer 12 (toNet16 portNo ++ [0,0,0,0,0,0])

def createQueueStatsRequest (flags portNo : UInt16) (queueId : UInt32) : Exec Bytes := do
  let buffer ← createStatsRequest transactionId .queue (cast16 (12 + 8)) flags
  store buffer 12 (toNet16 portNo ++ [0,0] ++ toNet32 queueId)

def createVendorStats (create : StatsType → Nat → UInt16 → Exec Bytes) (flags : UInt16)
    (vendor : UInt32) (body : Option Bytes) : Exec Bytes := do
  let buffer ← create .vendor (cast16 (12 + 4 + dataLength body)) flags
  let buffer ← store buffer 12 (toNet32 vendor)
  copyData buffer 16 body

def createVendorStatsRequest : UInt16 → UInt32 → Option Bytes → Exec Bytes :=
  createVendorStats (createStatsRequest transactionId)

-- The copy of serial_num takes DESC_STR_LEN bytes of it, as the four other copies do.
def createDescStatsReply (flags : UInt16) (mfrDesc hwDesc swDesc serialNum dpDesc : Bytes) :
    Exec Bytes := do
  let buffer ← createStatsReply transactionId .desc (cast16 (12 + 1056)) flags
  let mfrDesc ← load mfrDesc 0 256
  let buffer ← store buffer 12 mfrDesc
  let hwDesc ← load hwDesc 0 256
  let buffer ← store buffer 268 hwDesc
  let swDesc ← load swDesc 0 256
  let buffer ← store buffer 524 swDesc
  let serialNum ← load serialNum 0 256
  let buffer ← store buffer 780 serialNum
  let dpDesc ← load dpDesc 0 256
  store buffer 812 dpDesc

def createFlowStatsReply (fuel : Nat) (flags : UInt16) (flows : List FlowStats) : Exec Bytes := do
  let length ← (flows.map FlowStats.bytes).foldlM (addLength 0) 0
  let buffer ← createStatsReply transactionId .flow (cast16 (12 + length)) flags
  htonFlows fuel buffer 12 flows

def createAggregateStatsReply (flags : UInt16) (packetCount byteCount : UInt64)
    (flowCount : UInt32) : Exec Bytes := do
  let buffer ← createStatsReply transactionId .aggregate (cast16 (12 + 24)) flags
  store buffer 12 (toNet64 packetCount ++ toNet64 byteCount ++ toNet32 flowCount ++ [0,0,0,0])

def createStatsEntries {fs : List Field} (type : StatsType) (flags : UInt16)
    (entries : List (Struct fs)) : Exec Bytes := do
  let buffer ← createStatsReply transactionId type
    (cast16 (12 + size fs * cast16 entries.length)) flags
  htonStructs buffer 12 entries

def createTableStatsReply (flags : UInt16) (tables : List TableStats) : Exec Bytes :=
  createStatsEntries transactionId .table flags tables

def createPortStatsReply (flags : UInt16) (ports : List PortStats) : Exec Bytes :=
  createStatsEntries transactionId .port flags ports

def createQueueStatsReply (flags : UInt16) (queues : List QueueStats) : Exec Bytes :=
  createStatsEntries transactionId .queue flags queues

def createVendorStatsReply : UInt16 → UInt32 → Option Bytes → Exec Bytes :=
  createVendorStats (createStatsReply transactionId)

def createBarrierRequest : Exec Bytes := createHeader transactionId .barrierRequest 8
def createBarrierReply : Exec Bytes := createHeader transactionId .barrierReply 8

def createQueueGetConfigRequest (port : UInt16) : Exec Bytes :=
  createFields transactionId .queueGetConfigRequest 12 (toNet16 port ++ [0,0])

def createQueueGetConfigReply (fuel : Nat) (port : UInt16) (queues : List PacketQueue) :
    Exec Bytes := do
  abortIf (queues.length = 0)
  let queuesLength ← (queues.map PacketQueue.bytes).foldlM (addLength 4) 0
  let buffer ← createFields transactionId .queueGetConfigReply (cast16 (16 + queuesLength))
    (toNet16 port ++ [0,0,0,0,0,0])
  if 0 < cast16 queues.length then htonQueues fuel buffer 16 queues else pure buffer

end Constructors

end Trema.OpenFlow
