import Trema.OpenFlow.Construction

namespace Trema.OpenFlow

open Library Layout

def Construction.Encodable : Construction → Prop
  | .packetOut _ _ actions _ => ∀ b ∈ actionList actions, IsAction .host b
  | .flowMod _ _ _ _ _ _ _ _ _ actions => ∀ b ∈ actionList actions, IsAction .host b
  | .descStatsReply _ mfrDesc hwDesc swDesc serialNum dpDesc =>
      mfrDesc.length = 256 ∧ hwDesc.length = 256 ∧ swDesc.length = 256 ∧ 32 ≤ serialNum.length ∧
      dpDesc.length = 256
  | _ => True

section Lengths

@[simp] theorem length_toHost (mtch : OfpMatch) : mtch.toHost.length = 40 := by
  simp [OfpMatch.toHost,Mac.toBytes]

theorem htonMatch_eq (mtch : OfpMatch) : htonMatch mtch = .ok (netMatch mtch) :=
  convert_inside (by rw [length_toHost]; decide)

@[simp] theorem length_netMatch (mtch : OfpMatch) : (netMatch mtch).length = 40 := by
  rw [netMatch,length_cells (by rw [length_toHost]; decide)]
  decide

@[simp] theorem length_statsHead (type : StatsType) (flags : UInt16) :
    (statsHead type flags).length = 4 := by simp [statsHead]

theorem length_struct {fs : List Field} (s : Struct fs) : (cells fs s.bytes).length = size fs :=
  length_cells (by rw [s.sized]; exact readEnd_le_size fs)

theorem length_netStructs {fs : List Field} (structs : List (Struct fs)) :
    (netStructs structs).length = size fs * structs.length := by
  induction structs with
  | nil => rfl
  | cons s structs ih =>
    rw [netStructs,concat_cons,List.length_append,length_struct,List.length_cons,Nat.mul_succ]
    rw [netStructs] at ih
    omega

theorem length_netActions {actions : Option OpenflowActions}
    (h : ∀ b ∈ actionList actions, IsAction .host b) :
    (netActions actions).length = (actionList actions).flatten.length := length_convertBlocks h

theorem length_netFlows (flows : List FlowStats) :
    (concat netFlow flows).length = (concat FlowStats.bytes flows).length :=
  length_concat fun flow _ => length_flowImage flow.block

theorem length_netQueues (queues : List PacketQueue) :
    (concat netQueue queues).length = (concat PacketQueue.bytes queues).length :=
  length_concat fun queue _ => length_queueImage queue.block (cleared_properties queue.properties)

end Lengths

section Constructors

variable {xid : UInt32}

theorem createHeader_framed {type : OfpType} : createHeader xid type 8 = .ok (framed xid type []) := by
  rw [createHeader_eq le_rfl,draft_complete (by simp)]

theorem createFields_framed {type : OfpType} {length : Nat} {fields : Bytes}
    (h : length = 8 + fields.length) :
    createFields xid type length fields = .ok (framed xid type fields) := by
  rw [createFields_eq (by omega),draft_complete h]

theorem createStats_eq {type : OfpType} {statsType : StatsType} {length : Nat} {flags : UInt16}
    (h : 12 ≤ length) : createStats xid type statsType length flags =
      .ok (draft xid type length (statsHead statsType flags)) := by
  rw [createStats,createFields_eq (by simp; omega)]
  rfl

theorem createError_eq {type code : UInt16} {data : Option Bytes}
    (hs : 12 + (data.getD []).length ≤ 65535) : createError xid type code data =
      .ok (framed xid .error (toNet16 type ++ toNet16 code ++ data.getD [])) := by
  have hd := dataLength_eq data (by omega)
  rw [createError,hd,cast16_of_lt (by omega),createFields_eq (by simp),ok_bind]
  split
  · rw [store_draft (by simp) (by simp),draft_complete (by simp; omega)]
  · have hnil : data.getD [] = [] := List.length_eq_zero_iff.mp (by omega)
    rw [hnil,List.append_nil,draft_complete (by simp)]
    rfl

theorem createEcho_eq {type : OfpType} {body : Option Bytes}
    (hs : 8 + (body.getD []).length ≤ 65535) :
    createEcho xid type body = .ok (framed xid type (body.getD [])) := by
  rw [createEcho,dataLength_eq _ (by omega),cast16_of_lt (by omega),createHeader_eq (by omega),ok_bind,
    copyData_draft (by simp) (by simp) (by omega),List.nil_append]

theorem createVendor_eq {vendorId : UInt32} {data : Option Bytes}
    (hs : 12 + (data.getD []).length ≤ 65535) :
    createVendor xid vendorId data = .ok (framed xid .vendor (toNet32 vendorId ++ data.getD [])) := by
  rw [createVendor,dataLength_eq _ (by omega),cast16_of_lt (by omega),createFields_eq (by simp),
    ok_bind,copyData_draft (by simp) (by simp) (by omega)]

theorem createFeaturesReply_eq {datapathId : UInt64} {nBuffers : UInt32} {nTables : UInt8}
    {capabilities actions : UInt32} {ports : List PhyPort} (hs : 32 + 48 * ports.length ≤ 65535) :
    createFeaturesReply xid datapathId nBuffers nTables capabilities actions ports =
      .ok (framed xid .featuresReply (toNet64 datapathId ++ toNet32 nBuffers ++ [nTables,0,0,0] ++
        toNet32 capabilities ++ toNet32 actions ++ netStructs ports)) := by
  have hsize : size phyPortFields = 48 := by decide
  have hnet := length_netStructs ports
  rw [hsize] at hnet
  simp only [createFeaturesReply]
  rw [cast16_of_lt (n := ports.length) (by omega),cast16_of_lt (by omega),
    createFields_eq (by simp),ok_bind]
  split
  · rw [htonStructs_draft (by simp) (by rw [hsize])]
    change Except.ok (draft _ _ _ (_ ++ netStructs ports)) = _
    rw [draft_complete (by simp; omega)]
  · have hnil : ports = [] := List.length_eq_zero_iff.mp (by omega)
    subst hnil
    rw [draft_complete (by simp)]
    simp [netStructs,pure,Except.pure]

theorem createPacketIn_eq {bufferId : UInt32} {totalLen inPort : UInt16} {reason : UInt8}
    {data : Option Bytes} (hs : 18 + (data.getD []).length ≤ 65535) :
    createPacketIn xid bufferId totalLen inPort reason data =
      .ok (framed xid .packetIn (toNet32 bufferId ++ toNet16 totalLen ++ toNet16 inPort ++
        [reason,0] ++ data.getD [])) := by
  rw [createPacketIn,dataLength_eq _ (by omega),cast16_of_lt (by omega),createFields_eq (by simp),
    ok_bind,copyData_draft (by simp) (by simp) (by omega)]

theorem createFlowRemoved_eq {mtch : OfpMatch} {cookie : UInt64} {priority : UInt16}
    {reason : UInt8} {durationSec durationNsec : UInt32} {idleTimeout : UInt16}
    {packetCount byteCount : UInt64} :
    createFlowRemoved xid mtch cookie priority reason durationSec durationNsec idleTimeout
      packetCount byteCount = .ok (framed xid .flowRemoved (netMatch mtch ++ toNet64 cookie ++
        toNet16 priority ++ [reason,0] ++ toNet32 durationSec ++ toNet32 durationNsec ++
        toNet16 idleTimeout ++ [0,0] ++ toNet64 packetCount ++ toNet64 byteCount)) := by
  rw [createFlowRemoved,createHeader_eq (by omega),ok_bind,htonMatch_eq,ok_bind,
    store_draft (by simp) (by simp),draft_complete (by simp),List.nil_append]

theorem createPortStatus_eq {reason : UInt8} {desc : PhyPort} :
    createPortStatus xid reason desc = .ok (framed xid .portStatus
      ([reason,0,0,0,0,0,0,0] ++ cells phyPortFields desc.bytes)) := by
  have hlen : (cells phyPortFields desc.bytes).length = 48 := length_struct desc
  rw [createPortStatus,createHeader_eq (by omega),ok_bind,
    convert_inside (by rw [desc.sized]; decide),ok_bind,List.drop_zero,
    store_draft (by simp) (by simp [hlen]),draft_complete (by simp [hlen]),List.nil_append]

theorem ethMinimumFrame_eq {bufferId : UInt32} {data : Option Bytes}
    (h : bufferId = uint32Max → ∃ frame, data = some frame ∧ 60 ≤ frame.length) :
    ethMinimumFrame bufferId data = .ok () := by
  refine onlyIf_eq_ok.mpr fun hid => ?_
  obtain ⟨frame,rfl,hlen⟩ := h hid
  rw [abortIf,if_neg (by simp),ok_bind,abortIf,if_neg]
  simp only [Option.getD_some]
  omega

theorem createPacketOut_eq {bufferId : UInt32} {inPort : UInt16}
    {actions : Option OpenflowActions} {data : Option Bytes}
    (hframe : bufferId = uint32Max → ∃ frame, data = some frame ∧ 60 ≤ frame.length)
    (hacts : ∀ b ∈ actionList actions, IsAction .host b)
    (hs : 16 + (actionList actions).flatten.length + (data.getD []).length ≤ 65535) :
    createPacketOut xid bufferId inPort actions data =
      .ok (framed xid .packetOut (toNet32 bufferId ++ toNet16 inPort ++
        toNet16 (UInt16.ofNat (actionList actions).flatten.length) ++ netActions actions ++
        data.getD [])) := by
  have hnet := length_netActions hacts
  rw [createPacketOut,ethMinimumFrame_eq hframe,ok_bind,
    optionalActionsLength_eq hacts (by omega),ok_bind,dataLength_eq _ (by omega),
    cast16_of_lt (by omega),createFields_eq (by simp; omega),ok_bind,
    copyActions_draft hacts (by simp) (by omega),ok_bind]
  change copyData (draft _ _ _ (_ ++ netActions actions)) _ _ = _
  rw [copyData_draft (by simp [hnet]; omega) (by simp [hnet]; omega) (by omega)]

theorem createFlowMod_eq {mtch : OfpMatch} {cookie : UInt64}
    {command idleTimeout hardTimeout priority : UInt16} {bufferId : UInt32}
    {outPort flags : UInt16} {actions : Option OpenflowActions}
    (hacts : ∀ b ∈ actionList actions, IsAction .host b)
    (hs : 72 + (actionList actions).flatten.length ≤ 65535) :
    createFlowMod xid mtch cookie command idleTimeout hardTimeout priority bufferId outPort flags
      actions = .ok (framed xid .flowMod (netMatch mtch ++ toNet64 cookie ++ toNet16 command ++
        toNet16 idleTimeout ++ toNet16 hardTimeout ++ toNet16 priority ++ toNet32 bufferId ++
        toNet16 outPort ++ toNet16 flags ++ netActions actions)) := by
  have hnet := length_netActions hacts
  rw [createFlowMod,optionalActionsLength_eq hacts (by omega),ok_bind,
    cast16_of_lt (by omega),createHeader_eq (by omega),ok_bind,htonMatch_eq,ok_bind,
    store_draft (by simp) (by simp),ok_bind,List.nil_append,
    copyActions_draft hacts (by simp) (by omega)]
  change Except.ok (draft _ _ _ (_ ++ netActions actions)) = _
  rw [draft_complete (by simp [hnet]; omega)]

theorem createFlowStatsRequestOf_eq {type : StatsType} {flags : UInt16} {mtch : OfpMatch}
    {tableId : UInt8} {outPort : UInt16} :
    createFlowStatsRequestOf xid type flags mtch tableId outPort = .ok (framed xid .statsRequest
      (statsHead type flags ++ (netMatch mtch ++ [tableId,0] ++ toNet16 outPort))) := by
  rw [createFlowStatsRequestOf,createStatsRequest,cast16_of_lt (by omega),createStats_eq (by omega),
    ok_bind,htonMatch_eq,ok_bind,store_draft (by simp) (by simp),draft_complete (by simp)]

theorem createPortStatsRequest_eq {flags portNo : UInt16} :
    createPortStatsRequest xid flags portNo = .ok (framed xid .statsRequest
      (statsHead .port flags ++ (toNet16 portNo ++ [0,0,0,0,0,0]))) := by
  rw [createPortStatsRequest,createStatsRequest,cast16_of_lt (by omega),createStats_eq (by omega),
    ok_bind,store_draft (by simp) (by simp),draft_complete (by simp)]

theorem createQueueStatsRequest_eq {flags portNo : UInt16} {queueId : UInt32} :
    createQueueStatsRequest xid flags portNo queueId = .ok (framed xid .statsRequest
      (statsHead .queue flags ++ (toNet16 portNo ++ [0,0] ++ toNet32 queueId))) := by
  rw [createQueueStatsRequest,createStatsRequest,cast16_of_lt (by omega),createStats_eq (by omega),
    ok_bind,store_draft (by simp) (by simp),draft_complete (by simp)]

theorem createVendorStats_eq {type : OfpType} {flags : UInt16} {vendorId : UInt32}
    {body : Option Bytes} (hs : 16 + (body.getD []).length ≤ 65535) :
    createVendorStats (createStats xid type) flags vendorId body = .ok (framed xid type
      (statsHead .vendor flags ++ toNet32 vendorId ++ body.getD [])) := by
  rw [createVendorStats,dataLength_eq _ (by omega),cast16_of_lt (by omega),createStats_eq (by omega),
    ok_bind,store_draft (by simp) (by simp),ok_bind,
    copyData_draft (by simp) (by simp) (by omega)]

theorem createAggregateStatsReply_eq {flags : UInt16} {packetCount byteCount : UInt64}
    {flowCount : UInt32} :
    createAggregateStatsReply xid flags packetCount byteCount flowCount =
      .ok (framed xid .statsReply (statsHead .aggregate flags ++
        (toNet64 packetCount ++ toNet64 byteCount ++ toNet32 flowCount ++ [0,0,0,0]))) := by
  rw [createAggregateStatsReply,createStatsReply,cast16_of_lt (by omega),createStats_eq (by omega),
    ok_bind,store_draft (by simp) (by simp),draft_complete (by simp)]

theorem createStatsEntries_eq {fs : List Field} {type : StatsType} {flags : UInt16}
    {entries : List (Struct fs)} (hpos : 0 < size fs) (hs : 12 + size fs * entries.length ≤ 65535) :
    createStatsEntries xid type flags entries =
      .ok (framed xid .statsReply (statsHead type flags ++ netStructs entries)) := by
  have hnet := length_netStructs entries
  have hcount : entries.length ≤ size fs * entries.length := Nat.le_mul_of_pos_left _ hpos
  rw [createStatsEntries,createStatsReply,cast16_of_lt (n := entries.length) (by omega),
    cast16_of_lt (by omega),createStats_eq (by omega),ok_bind,
    htonStructs_draft (by simp) (by omega)]
  change Except.ok (draft _ _ _ (_ ++ netStructs entries)) = _
  rw [draft_complete (by simp [hnet]; omega)]

theorem createDescStatsReply_eq {flags : UInt16} {mfrDesc hwDesc swDesc serialNum dpDesc : Bytes}
    (hmfr : mfrDesc.length = 256) (hhw : hwDesc.length = 256) (hsw : swDesc.length = 256)
    (hserial : 256 ≤ serialNum.length) (hdp : dpDesc.length = 256) :
    createDescStatsReply xid flags mfrDesc hwDesc swDesc serialNum dpDesc =
      .ok (framed xid .statsReply (statsHead .desc flags ++ mfrDesc ++ hwDesc ++ swDesc ++
        serialNum.take 32 ++ dpDesc)) := by
  have hcopied : (slice serialNum 0 256).length = 256 := length_slice (by omega)
  have hkept : (slice serialNum 0 256).take 32 = serialNum.take 32 := by
    rw [slice,List.drop_zero,List.take_take]
    rfl
  have hlen : (draft xid .statsReply 1068 (statsHead .desc flags ++ mfrDesc ++ hwDesc ++ swDesc ++
      slice serialNum 0 256)).length = 1068 := length_draft (by simp [hmfr,hhw,hsw,hcopied])
  have hpre : (header xid .statsReply 1068 ++ (statsHead .desc flags ++ mfrDesc ++ hwDesc ++
      swDesc)).length = 780 := by simp [hmfr,hhw,hsw]
  rw [createDescStatsReply,createStatsReply,cast16_of_lt (by omega),
    show 12 + 1056 = 1068 from rfl,createStats_eq (by omega),ok_bind,
    load_ok (by omega),ok_bind,slice_whole hmfr,store_draft (by simp) (by simp [hmfr]),ok_bind,
    load_ok (by omega),ok_bind,slice_whole hhw,store_draft (by simp [hmfr]) (by simp [hmfr,hhw]),
    ok_bind,load_ok (by omega),ok_bind,slice_whole hsw,
    store_draft (by simp [hmfr,hhw]) (by simp [hmfr,hhw,hsw]),ok_bind,
    load_ok (by omega),ok_bind,store_draft (by simp [hmfr,hhw,hsw]) (by simp [hmfr,hhw,hsw,hcopied]),
    ok_bind,load_ok (by omega),ok_bind,slice_whole hdp,store_ok (by omega),hdp,
    List.drop_eq_nil_of_le (by omega),List.append_nil]
  -- The last 224 bytes copied from serial_num are overwritten by dp_desc.
  have htake : (draft xid .statsReply 1068 (statsHead .desc flags ++ mfrDesc ++ hwDesc ++ swDesc ++
      slice serialNum 0 256)).take 812 = header xid .statsReply 1068 ++ (statsHead .desc flags ++
        mfrDesc ++ hwDesc ++ swDesc ++ serialNum.take 32) := by
    rw [draft,← List.append_assoc (header _ _ _),List.append_assoc (header _ _ _ ++ _),
      show 812 = 780 + 32 by rfl,List.take_append,hpre,List.take_of_length_le (by omega),
      List.take_append_of_le_length (by omega),hkept]
    simp only [List.append_assoc]
  rw [htake,framed]
  have hbody : 8 + (statsHead .desc flags ++ mfrDesc ++ hwDesc ++ swDesc ++ serialNum.take 32 ++
      dpDesc).length = 1068 := by
    simp [hmfr,hhw,hsw,hdp]
    omega
  rw [hbody,List.append_assoc]

theorem createFlowStatsReply_yields {flags : UInt16} {flows : List FlowStats}
    (hs : 12 + (concat FlowStats.bytes flows).length ≤ 65535) :
    Yields (fun n => createFlowStatsReply xid n flags flows)
      (.ok (framed xid .statsReply (statsHead .flow flags ++ concat netFlow flows))) := by
  have hnet := length_netFlows flows
  have hall : ∀ e ∈ flows.map FlowStats.bytes,
      0 + 2 ≤ e.length ∧ (Order.host.u16 e 0).toNat = e.length := by
    intro e he
    obtain ⟨flow,_,rfl⟩ := List.mem_map.mp he
    have := flow.block.fits
    exact ⟨by omega,flow.block.length⟩
  have hsum := addLengths_eq 0 hall (show 0 + (concat FlowStats.bytes flows).length < 65536 by omega)
  rw [Nat.zero_add] at hsum
  obtain ⟨_,n,hn⟩ : Yields (fun n => htonFlows n (draft xid .statsReply
      (12 + (concat FlowStats.bytes flows).length) (statsHead .flow flags)) 12 flows) _ :=
    htonFlows_draft (by simp) le_rfl
  refine ⟨by simp,n,?_⟩
  simp only at hn ⊢
  rw [createFlowStatsReply,hsum,ok_bind]
  change createStatsReply xid .flow (cast16 (12 + (concat FlowStats.bytes flows).length)) flags >>=
    _ = _
  rw [cast16_of_lt (by omega),createStatsReply,createStats_eq (by omega),ok_bind,hn,
    draft_complete (by simp [hnet]; omega)]

theorem createQueueGetConfigReply_yields {port : UInt16} {queues : List PacketQueue}
    (hne : queues ≠ []) (hs : 16 + (concat PacketQueue.bytes queues).length ≤ 65535) :
    Yields (fun n => createQueueGetConfigReply xid n port queues)
      (.ok (framed xid .queueGetConfigReply
        (toNet16 port ++ [0,0,0,0,0,0] ++ concat netQueue queues))) := by
  have hnet := length_netQueues queues
  have hall : ∀ e ∈ queues.map PacketQueue.bytes,
      4 + 2 ≤ e.length ∧ (Order.host.u16 e 4).toNat = e.length := by
    intro e he
    obtain ⟨queue,_,rfl⟩ := List.mem_map.mp he
    have := queue.block.fits
    exact ⟨by omega,queue.block.length⟩
  have hsum := addLengths_eq 0 hall (show 0 + (concat PacketQueue.bytes queues).length < 65536 by omega)
  rw [Nat.zero_add] at hsum
  have hcount : queues.length ≤ (concat PacketQueue.bytes queues).length := by
    clear hne hs hnet hall hsum
    induction queues with
    | nil => simp
    | cons queue queues ih =>
      have := queue.block.fits
      rw [concat_cons,List.length_cons,List.length_append]
      omega
  have hpos : 0 < queues.length := List.length_pos_iff.mpr hne
  obtain ⟨_,n,hn⟩ : Yields (fun n => htonQueues n (draft xid .queueGetConfigReply
      (16 + (concat PacketQueue.bytes queues).length) (toNet16 port ++ [0,0,0,0,0,0])) 16 queues) _ :=
    htonQueues_draft (by simp) le_rfl
  refine ⟨by simp,n,?_⟩
  simp only at hn ⊢
  rw [createQueueGetConfigReply,abortIf,if_neg (by omega),ok_bind,hsum,ok_bind]
  change createFields xid .queueGetConfigReply
    (cast16 (16 + (concat PacketQueue.bytes queues).length)) _ >>= _ = _
  rw [cast16_of_lt (by omega),createFields_eq (by simp),ok_bind,
    cast16_of_lt (by omega),if_pos hpos,hn,draft_complete (by simp [hnet]; omega)]

theorem create_yields {c : Construction} (hg : c.Guarded) (he : c.Encodable)
    (hs : c.size ≤ 65535) : Yields (fun n => create n xid c) (.ok (encode xid c)) := by
  rw [encode]
  cases c with
  | error type code data =>
    simp only [create,Construction.type,Construction.body]
    refine yields_ok (createError_eq ?_)
    simp [Construction.size,Construction.body] at hs
    omega
  | echoRequest body =>
    simp only [create,Construction.type,Construction.body]
    exact yields_ok (createEcho_eq hs)
  | echoReply body =>
    simp only [create,Construction.type,Construction.body]
    exact yields_ok (createEcho_eq hs)
  | vendor vendorId data =>
    simp only [create,Construction.type,Construction.body]
    refine yields_ok (createVendor_eq ?_)
    simp [Construction.size,Construction.body] at hs
    omega
  | featuresReply datapathId nBuffers nTables capabilities actions ports =>
    simp only [create,Construction.type,Construction.body]
    refine yields_ok (createFeaturesReply_eq ?_)
    have hsize : size phyPortFields = 48 := by decide
    simp [Construction.size,Construction.body,length_netStructs,hsize] at hs
    omega
  | getConfigReply flags missSendLen =>
    simp only [create,Construction.type,Construction.body]
    exact yields_ok (createFields_framed (by simp))
  | setConfig flags missSendLen =>
    simp only [create,Construction.type,Construction.body]
    exact yields_ok (createFields_framed (by simp))
  | packetIn bufferId totalLen inPort reason data =>
    simp only [create,Construction.type,Construction.body]
    refine yields_ok (createPacketIn_eq ?_)
    simp [Construction.size,Construction.body] at hs
    omega
  | flowRemoved =>
    simp only [create,Construction.type,Construction.body]
    exact yields_ok createFlowRemoved_eq
  | portStatus reason desc =>
    simp only [create,Construction.type,Construction.body]
    exact yields_ok createPortStatus_eq
  | packetOut bufferId inPort actions data =>
    simp only [create,Construction.type,Construction.body]
    refine yields_ok (createPacketOut_eq hg he ?_)
    simp only [Construction.size,Construction.body,List.length_append,length_toNet32,length_toNet16,
      length_netActions he] at hs
    omega
  | flowMod mtch cookie command idleTimeout hardTimeout priority bufferId outPort flags actions =>
    simp only [create,Construction.type,Construction.body]
    refine yields_ok (createFlowMod_eq he ?_)
    simp only [Construction.size,Construction.body,List.length_append,length_toNet32,length_toNet16,
      length_toNet64,length_netMatch,length_netActions he] at hs
    omega
  | portMod portNo hwAddr config mask advertise =>
    simp only [create,Construction.type,Construction.body]
    exact yields_ok (createFields_framed (by simp [Mac.toBytes]))
  | descStatsRequest flags =>
    simp only [create,Construction.type,Construction.body]
    exact yields_ok (createFields_framed (by simp))
  | flowStatsRequest =>
    simp only [create,Construction.type,Construction.body]
    exact yields_ok createFlowStatsRequestOf_eq
  | aggregateStatsRequest =>
    simp only [create,Construction.type,Construction.body]
    exact yields_ok createFlowStatsRequestOf_eq
  | tableStatsRequest flags =>
    simp only [create,Construction.type,Construction.body]
    exact yields_ok (createFields_framed (by simp))
  | portStatsRequest =>
    simp only [create,Construction.type,Construction.body]
    exact yields_ok createPortStatsRequest_eq
  | queueStatsRequest =>
    simp only [create,Construction.type,Construction.body]
    exact yields_ok createQueueStatsRequest_eq
  | vendorStatsRequest flags vendorId body =>
    simp only [create,Construction.type,Construction.body]
    refine yields_ok (createVendorStats_eq ?_)
    simp [Construction.size,Construction.body] at hs
    omega
  | descStatsReply flags mfrDesc hwDesc swDesc serialNum dpDesc =>
    obtain ⟨hmfr,hhw,hsw,_,hdp⟩ := he
    simp only [create,Construction.type,Construction.body]
    exact yields_ok (createDescStatsReply_eq hmfr hhw hsw hg hdp)
  | flowStatsReply flags flows =>
    simp only [create,Construction.type,Construction.body]
    refine createFlowStatsReply_yields ?_
    simp [Construction.size,Construction.body,length_netFlows] at hs
    omega
  | aggregateStatsReply =>
    simp only [create,Construction.type,Construction.body]
    exact yields_ok createAggregateStatsReply_eq
  | tableStatsReply flags tables =>
    simp only [create,Construction.type,Construction.body]
    refine yields_ok (createStatsEntries_eq (by decide) ?_)
    simp [Construction.size,Construction.body,length_netStructs] at hs
    omega
  | portStatsReply flags ports =>
    simp only [create,Construction.type,Construction.body]
    refine yields_ok (createStatsEntries_eq (by decide) ?_)
    simp [Construction.size,Construction.body,length_netStructs] at hs
    omega
  | queueStatsReply flags queues =>
    simp only [create,Construction.type,Construction.body]
    refine yields_ok (createStatsEntries_eq (by decide) ?_)
    simp [Construction.size,Construction.body,length_netStructs] at hs
    omega
  | vendorStatsReply flags vendorId body =>
    simp only [create,Construction.type,Construction.body]
    refine yields_ok (createVendorStats_eq ?_)
    simp [Construction.size,Construction.body] at hs
    omega
  | queueGetConfigRequest port =>
    simp only [create,Construction.type,Construction.body]
    exact yields_ok (createFields_framed (by simp))
  | queueGetConfigReply port queues =>
    simp only [create,Construction.type,Construction.body]
    refine createQueueGetConfigReply_yields hg ?_
    simp [Construction.size,Construction.body,length_netQueues] at hs
    omega
  | _ =>
    simp only [create,Construction.type,Construction.body]
    exact yields_ok createHeader_framed

end Constructors

end Trema.OpenFlow
