import Trema.OpenFlow.ApplicationMessages
import Trema.OpenFlow.ReplyDelivery
import Trema.Packet.Parsing

namespace Trema.OpenFlow.Application

open Library Layout
open PacketinFilter (CString)

-- What the controller is told about a message of a switch.
def told (xid : UInt32) : Construction → Option OpenflowEvent
  | .error type code data => some (.error xid type code (data.getD []))
  | .echoReply body => some (.echoReply xid (handedData body))
  | .vendor vendorId data => some (.vendor xid vendorId (handedData data))
  | .featuresReply _ nBuffers nTables capabilities actions ports =>
    some (.featuresReply xid nBuffers nTables capabilities actions (ports.map fun port => port.unpadded.bytes))
  | .getConfigReply flags missSendLen => some (.getConfigReply xid flags missSendLen)
  | .packetIn bufferId totalLen inPort reason data =>
    some (.packetIn xid bufferId totalLen inPort reason (handedData data))
  | .flowRemoved mtch cookie priority reason durationSec durationNsec idleTimeout packetCount byteCount =>
    some (.flowRemoved xid mtch.unpadded cookie priority reason durationSec durationNsec idleTimeout packetCount
      byteCount)
  | .portStatus reason desc => some (.portStatus xid reason desc.unpadded.bytes)
  | .descStatsReply flags mfrDesc hwDesc swDesc serialNum dpDesc => some (.statsReply ⟨xid,StatsType.desc.code,flags,
      some (mfrDesc ++ hwDesc ++ swDesc ++ serialNum.take 32 ++ dpDesc)⟩)
  | .vendorStatsReply flags vendorId body => some (.statsReply ⟨xid,StatsType.vendor.code,flags,
      some (toHost32 vendorId ++ body.getD [])⟩)
  | .barrierReply => some (.barrierReply xid)
  | .queueGetConfigReply port queues => (configured xid (.queueGetConfigReply port queues)).map .queueGetConfigReply
  | c => (replied xid c).map .statsReply

-- The frame ends where the packet parser expects the header of the next layer.
def CutShort (data : Option Bytes) : Prop :=
  ∃ frame, data = some frame ∧ (Packet.EndsAtNetwork frame ∨ Packet.EndsAtTransport frame)

-- The packet parser runs only for a controller that takes packets.
def Stops (handlers : Handlers) : Construction → Prop
  | .packetIn _ _ _ _ data => handlers.openflow .packetIn = true ∧ CutShort data
  | _ => False

structure Announced where
  datapathId : UInt64
  xid : UInt32
  message : Construction

structure Announced.Sendable (a : Announced) : Prop where
  allowed : a.message.Allowed
  guarded : a.message.Guarded
  size : a.message.size ≤ 65535

-- Built by the switch, sent on by its daemon and handled by the controller.
def announce (handlers : Handlers) (heap : Nat → UInt8) (fuel : Nat) (a : Announced) : Exec Received := do
  let buffer ← create fuel a.xid a.message
  handleMessage handlers fuel heap messengerOpenflowMessage
    (createOpenflowApplicationMessage (some a.datapathId) (some buffer))

def calls (handlers : Handlers) (a : Announced) : List Event :=
  if handlers.openflow a.message.type then (told a.xid a.message).toList.map (.openflow a.datapathId) else []

def announced (handlers : Handlers) (a : Announced) : Received :=
  ⟨calls handlers a,some (updateOpenflowStats a.message.type.code false true)⟩

section Framed

variable {xid : UInt32} {type : OfpType}

theorem transactionId_framed (body : Bytes) : transactionId (framed xid type body) = .ok xid := by
  rw [transactionId,abortIf,if_neg (by rw [length_framed]; omega),ok_bind,
    net32_inside (by rw [length_framed]; omega),be32_xid]

theorem removeFront_framed (pre post : Bytes) :
    removeFrontBuffer (framed xid type (pre ++ post)) (8 + pre.length) = .ok post := by
  rw [removeFrontBuffer,abortIf,if_neg (by rw [length_framed,List.length_append]; omega),ok_bind,drop_framed,
    List.drop_left' rfl]
  rfl

theorem handedData_ne {data : Option Bytes} (h : data.getD [] ≠ []) : handedData data = some (data.getD []) := by
  rw [handedData,if_neg h]
  cases data with
  | none => exact absurd rfl h
  | some d => rfl

theorem bodyLength_framed (xid : UInt32) (type : OfpType) (pre : Bytes) {post : Bytes} (hs : 8 + (pre ++ post).length ≤ 65535) :
    sub16 (be16 (framed xid type (pre ++ post)) 2).toNat (8 + pre.length) = post.length := by
  have hh : Headed (framed xid type (pre ++ post)) type 0 65535 := headed_framed hs (Nat.zero_le _) hs
  rw [List.length_append] at hs
  rw [hh.length,length_framed,List.length_append,sub16_of_le (by omega) (by omega)]
  omega

theorem bodyAfter_framed (pre : Bytes) (data : Option Bytes) :
    bodyAfter (framed xid type (pre ++ data.getD [])) (8 + pre.length) (data.getD []).length = .ok (handedData data) := by
  rw [bodyAfter]
  split
  · rename_i hpos
    rw [removeFront_framed,ok_bind,handedData_ne (List.length_pos_iff.mp hpos)]
    rfl
  · rename_i hzero
    rw [handedData,if_pos (List.eq_nil_of_length_eq_zero (Nat.eq_zero_of_not_pos hzero))]
    rfl

theorem structs_read {fs : List Field} {m : Bytes} {p : Nat} {structs : List (Struct fs)} (hpos : 0 < size fs)
    (hm : Holds m p (netStructs structs)) :
    (List.range structs.length).mapM (fun i => convert fs m (p + size fs * i)) =
      (.ok (structs.map fun s => s.unpadded.bytes) : Exec (List Bytes)) := by
  refine mapM_range structs _ _ fun i hi => ?_
  have hsplit : structs = structs.take i ++ structs[i] :: structs.drop (i + 1) := by
    rw [List.getElem_cons_drop,List.take_append_drop]
  have hlen : (concat (fun s => cells fs s.bytes) (structs.take i)).length = size fs * i := by
    have htake := length_netStructs (structs.take i)
    rw [List.length_take,Nat.min_eq_left hi.le] at htake
    exact htake
  rw [netStructs,hsplit,concat,List.map_append,List.flatten_append,List.map_cons,List.flatten_cons] at hm
  obtain ⟨_,hrest⟩ := Holds.append.mp hm
  obtain ⟨hone,_⟩ := Holds.append.mp hrest
  rw [← concat,hlen] at hone
  have hsize : (cells fs structs[i].bytes).length = size fs := length_struct _
  rw [hone.convert (by rw [hsize]; exact readEnd_le_size fs) (by omega),
    cells_cells (le_of_eq structs[i].sized.symm)]
  rfl

end Framed

section Handlers

variable {xid : UInt32} {handlers : Handlers} {heap : Nat → UInt8}

attribute [local simp] slice_append_right slice_append_left slice_whole slice_cons slice_head

theorem settled_packetInData (m : Bytes) (length : Nat) : Settled (fun n => packetInData m n length) :=
  settled_ite (settled_bind (settled_const _) fun body => settled_bind (Packet.settled_parsePacket body) fun _ =>
    settled_const _) (settled_const _)

theorem settled_handlePacketIn (m : Bytes) : Settled (fun n => handlePacketIn handlers m n) := by
  refine settled_bind (settled_const _) fun _ => settled_bind (settled_const _) fun _ => ?_
  refine settled_bind (settled_const _) fun _ => settled_bind (settled_const _) fun _ => ?_
  refine settled_bind (settled_const _) fun _ => settled_bind (settled_const _) fun _ => ?_
  exact settled_ite (settled_bind (settled_packetInData _ _) fun _ => settled_const _) (settled_const _)

theorem settled_handleByType (m : Bytes) (type : OfpType) :
    Settled (fun n => (handleByType handlers m n heap type).getD (pure [])) := by
  cases type with
  | packetIn => exact settled_handlePacketIn m
  | statsReply => exact settled_bind (settled_handleStatsReply m heap _) fun _ => settled_const _
  | queueGetConfigReply => exact settled_bind (settled_handleQueueGetConfigReply m _) fun _ => settled_const _
  | _ => exact settled_const _

theorem handleError_framed {type code : UInt16} {data : Option Bytes} :
    handleError handlers (encode xid (.error type code data)) =
      .ok (call handlers .error (.error xid type code (data.getD []))) := by
  have hlen : 12 ≤ (encode xid (.error type code data)).length := by
    rw [encode,length_framed]
    simp [Construction.body]
    omega
  have htype : be16 (encode xid (.error type code data)) 8 = type := by
    simp [be16,encode,framed,Construction.body]
  have hcode : be16 (encode xid (.error type code data)) 10 = code := by
    simp [be16,encode,framed,Construction.body]
  have hbody : removeFrontBuffer (encode xid (.error type code data)) 12 = .ok (data.getD []) :=
    removeFront_framed (toNet16 type ++ toNet16 code) (data.getD [])
  rw [handleError,encode,transactionId_framed,ok_bind,← encode,net16_inside (by omega),ok_bind,
    net16_inside (by omega),ok_bind,hbody,ok_bind,htype,hcode]
  rfl

theorem handleEchoReply_framed {body : Option Bytes} (hs : (Construction.echoReply body).size ≤ 65535) :
    handleEchoReply handlers (encode xid (.echoReply body)) =
      .ok (call handlers .echoReply (.echoReply xid (handedData body))) := by
  have hlen : sub16 (be16 (encode xid (.echoReply body)) 2).toNat 8 = (body.getD []).length :=
    bodyLength_framed xid _ [] hs
  have hbody : bodyAfter (encode xid (.echoReply body)) 8 (body.getD []).length = .ok (handedData body) :=
    bodyAfter_framed [] body
  have hin : 4 ≤ (encode xid (.echoReply body)).length := by
    rw [encode,length_framed]
    omega
  rw [handleEchoReply,encode,transactionId_framed,ok_bind,← encode,net16_inside (by omega),ok_bind,hlen,hbody,call]
  split <;> rfl

theorem handleVendor_framed {vendorId : UInt32} {data : Option Bytes}
    (hs : (Construction.vendor vendorId data).size ≤ 65535) :
    handleVendor handlers (encode xid (.vendor vendorId data)) =
      .ok (call handlers .vendor (.vendor xid vendorId (handedData data))) := by
  have hlen : sub16 (be16 (encode xid (.vendor vendorId data)) 2).toNat 12 = (data.getD []).length :=
    bodyLength_framed xid _ (toNet32 vendorId) hs
  have hbody : bodyAfter (encode xid (.vendor vendorId data)) 12 (data.getD []).length = .ok (handedData data) :=
    bodyAfter_framed (toNet32 vendorId) data
  have hid : be32 (encode xid (.vendor vendorId data)) 8 = vendorId := by
    simp [be32,encode,framed,Construction.body]
  have hin : 12 ≤ (encode xid (.vendor vendorId data)).length := by
    rw [encode,length_framed]
    simp [Construction.body]
    omega
  rw [handleVendor,encode,transactionId_framed,ok_bind,← encode,net32_inside (by omega),ok_bind,
    net16_inside (by omega),ok_bind,hlen,hbody,hid,call]
  split <;> rfl

theorem handleFeaturesReply_framed {datapathId : UInt64} {nBuffers : UInt32} {nTables : UInt8}
    {capabilities actions : UInt32} {ports : List PhyPort}
    (hs : (Construction.featuresReply datapathId nBuffers nTables capabilities actions ports).size ≤ 65535) :
    handleFeaturesReply handlers (encode xid (.featuresReply datapathId nBuffers nTables capabilities actions ports)) =
      .ok (call handlers .featuresReply (.featuresReply xid nBuffers nTables capabilities actions
        (ports.map fun port => port.unpadded.bytes))) := by
  obtain ⟨m,hm⟩ : ∃ m, m = encode xid (.featuresReply datapathId nBuffers nTables capabilities actions ports) := ⟨_,rfl⟩
  have hframed : m = framed xid .featuresReply (toNet64 datapathId ++ toNet32 nBuffers ++ [nTables,0,0,0] ++
      toNet32 capabilities ++ toNet32 actions ++ netStructs ports) := hm
  have hin : 32 ≤ m.length := by
    rw [hframed,length_framed]
    simp
    omega
  have hbuffers : be32 m 16 = nBuffers := by simp [hframed,be32,framed]
  have htables : hostByte m 20 = nTables := by simp [hframed,hostByte,framed]
  have hcapabilities : be32 m 24 = capabilities := by simp [hframed,be32,framed]
  have hactions : be32 m 28 = actions := by simp [hframed,be32,framed]
  have hsize : size phyPortFields = 48 := by decide
  have hlen : sub16 (be16 m 2).toNat 32 = 48 * ports.length := by
    rw [hframed,show 32 = 8 + (toNet64 datapathId ++ toNet32 nBuffers ++ [nTables,0,0,0] ++
      toNet32 capabilities ++ toNet32 actions).length by simp,bodyLength_framed xid _ _ hs,length_netStructs,hsize]
  have hports : (List.range ports.length).mapM (fun i => ntohPhyPort m (32 + 48 * i)) =
      .ok (ports.map fun port => port.unpadded.bytes) :=
    structs_read (show 0 < size phyPortFields by decide) (by rw [hframed]; exact holds_framed_tail (by simp))
  have hxid : transactionId m = .ok xid := by
    rw [hframed]
    exact transactionId_framed _
  rw [← hm,handleFeaturesReply,hxid,ok_bind,net32_inside (by omega),ok_bind,byteAt_inside (by omega),ok_bind,
    net32_inside (by omega),ok_bind,net32_inside (by omega),ok_bind,net16_inside (by omega),ok_bind,
    hbuffers,htables,hcapabilities,hactions,hlen]
  simp only [Nat.mul_div_cancel_left ports.length (show 0 < 48 by omega),hports]
  rfl

theorem handleGetConfigReply_framed {flags missSendLen : UInt16} :
    handleGetConfigReply handlers (encode xid (.getConfigReply flags missSendLen)) =
      .ok (call handlers .getConfigReply (.getConfigReply xid flags missSendLen)) := by
  have hflags : be16 (encode xid (.getConfigReply flags missSendLen)) 8 = flags := by
    simp [be16,encode,framed,Construction.body]
  have hmiss : be16 (encode xid (.getConfigReply flags missSendLen)) 10 = missSendLen := by
    simp [be16,encode,framed,Construction.body]
  have hin : (encode xid (.getConfigReply flags missSendLen)).length = 12 := by
    rw [encode,length_framed]
    simp [Construction.body]
  rw [handleGetConfigReply,encode,transactionId_framed,ok_bind,← encode,net16_inside (by omega),ok_bind,
    net16_inside (by omega),ok_bind,hflags,hmiss]
  rfl

theorem handleFlowRemoved_framed {mtch : OfpMatch} {cookie : UInt64} {priority : UInt16} {reason : UInt8}
    {durationSec durationNsec : UInt32} {idleTimeout : UInt16} {packetCount byteCount : UInt64} {m : Bytes}
    (hm : m = encode xid (.flowRemoved mtch cookie priority reason durationSec durationNsec idleTimeout packetCount
      byteCount)) : handleFlowRemoved handlers m =
      .ok (call handlers .flowRemoved (.flowRemoved xid mtch.unpadded cookie priority reason durationSec durationNsec
        idleTimeout packetCount byteCount)) := by
  have hframed : m = framed xid .flowRemoved (netMatch mtch ++ toNet64 cookie ++ toNet16 priority ++ [reason,0] ++
      toNet32 durationSec ++ toNet32 durationNsec ++ toNet16 idleTimeout ++ [0,0] ++ toNet64 packetCount ++
      toNet64 byteCount) := hm
  have hin : m.length = 88 := by
    rw [hframed,length_framed]
    simp
  have hmatch : OfpMatch.ofHost (cells matchFields (m.drop 8)) = mtch.unpadded := by
    rw [hframed,show 8 = 8 + 0 from rfl,drop_framed,List.drop_zero]
    simp only [List.append_assoc]
    exact ofHost_netMatch mtch _
  have hconvert : ntohMatch m 8 = .ok (cells matchFields (m.drop 8)) :=
    convert_inside (show 8 + 40 ≤ m.length by omega)
  have hcookie : be64 m 48 = cookie := by simp [hframed,be64,framed]
  have hpriority : be16 m 56 = priority := by simp [hframed,be16,framed]
  have hreason : hostByte m 58 = reason := by simp [hframed,hostByte,framed]
  have hsec : be32 m 60 = durationSec := by simp [hframed,be32,framed]
  have hnsec : be32 m 64 = durationNsec := by simp [hframed,be32,framed]
  have hidle : be16 m 68 = idleTimeout := by simp [hframed,be16,framed]
  have hpackets : be64 m 72 = packetCount := by simp [hframed,be64,framed]
  have hbytes : be64 m 80 = byteCount := by simp [hframed,be64,framed]
  have hxid : transactionId m = .ok xid := by
    rw [hframed]
    exact transactionId_framed _
  rw [handleFlowRemoved,hxid,ok_bind,hconvert,ok_bind,net64_inside (by omega),ok_bind,net16_inside (by omega),ok_bind,
    byteAt_inside (by omega),ok_bind,net32_inside (by omega),ok_bind,net32_inside (by omega),ok_bind,
    net16_inside (by omega),ok_bind,net64_inside (by omega),ok_bind,net64_inside (by omega),ok_bind,
    hmatch,hcookie,hpriority,hreason,hsec,hnsec,hidle,hpackets,hbytes]
  rfl

theorem handlePortStatus_framed {reason : UInt8} {desc : PhyPort} :
    handlePortStatus handlers (encode xid (.portStatus reason desc)) =
      .ok (call handlers .portStatus (.portStatus xid reason desc.unpadded.bytes)) := by
  have hport : (cells phyPortFields desc.bytes).length = 48 := length_struct desc
  have hin : (encode xid (.portStatus reason desc)).length = 64 := by
    rw [encode,length_framed]
    simp [Construction.body,hport]
  have hreason : hostByte (encode xid (.portStatus reason desc)) 8 = reason := by
    simp [hostByte,encode,framed,Construction.body]
  have hdesc : Holds (encode xid (.portStatus reason desc)) 16 (cells phyPortFields desc.bytes) :=
    holds_framed_tail (by simp)
  have hread : ntohPhyPort (encode xid (.portStatus reason desc)) 16 = .ok desc.unpadded.bytes := by
    rw [ntohPhyPort,hdesc.convert (by rw [hport]; decide) (by omega),cells_cells (le_of_eq desc.sized.symm)]
    rfl
  rw [handlePortStatus,encode,transactionId_framed,ok_bind,← encode,byteAt_inside (by omega),ok_bind,hread,ok_bind,
    hreason]
  rfl

theorem handleBarrierReply_framed :
    handleBarrierReply handlers (encode xid .barrierReply) = .ok (call handlers .barrierReply (.barrierReply xid)) := by
  rw [handleBarrierReply,encode,transactionId_framed]
  rfl

theorem packetInData_framed (xid : UInt32) (pre : Bytes) (hpre : pre.length = 10) (data : Option Bytes) :
    (¬ CutShort data →
      Yields (fun n => packetInData (framed xid .packetIn (pre ++ data.getD [])) n (data.getD []).length)
        (.ok (handedData data))) ∧
    (CutShort data →
      Yields (fun n => packetInData (framed xid .packetIn (pre ++ data.getD [])) n (data.getD []).length)
        (.error .aborted)) := by
  have hfront : removeFrontBuffer (framed xid .packetIn (pre ++ data.getD [])) 18 = .ok (data.getD []) := by
    rw [show 18 = 8 + pre.length by rw [hpre]]
    exact removeFront_framed pre (data.getD [])
  have hrest : ∀ body : Bytes, Settled fun n => Packet.parsePacket body n >>= fun _ => (pure (some body) : Exec _) :=
    fun body => settled_bind (Packet.settled_parsePacket body) fun _ => settled_const _
  by_cases hempty : data.getD [] = []
  · have hnone : ¬ CutShort data := by
      rintro ⟨frame,rfl,hends⟩
      obtain rfl : frame = [] := hempty
      rcases Packet.parsePacket_yields [] with ⟨_,habort⟩ | ⟨hnot,_⟩
      · have hparsed : Yields (fun n => Packet.parsePacket [] n) (Packet.parsePacket [] 1) := ⟨by decide,1,rfl⟩
        exact absurd ((Packet.settled_parsePacket []).yields_unique hparsed habort) (by decide)
      · exact hnot hends
    refine ⟨fun _ => ?_,fun h => absurd h hnone⟩
    rw [handedData,if_pos hempty,hempty]
    exact yields_ok rfl
  · have hpos := List.length_pos_iff.mpr hempty
    obtain ⟨frame,rfl⟩ : ∃ frame, data = some frame := by
      cases data with
      | none => exact absurd rfl hempty
      | some frame => exact ⟨frame,rfl⟩
    simp only [packetInData,if_pos hpos,hfront,ok_bind,handedData_ne hempty]
    simp only [Option.getD_some,CutShort,Option.some.injEq,exists_eq_left']
    rcases Packet.parsePacket_yields frame with ⟨hends,habort⟩ | ⟨hends,p,hparse,_⟩
    · refine ⟨fun hnot => absurd hends hnot,fun _ => ?_⟩
      exact (yields_bind (Packet.settled_parsePacket frame) (fun _ => settled_const (pure (some frame))) _).mpr
        (.inr ⟨_,habort,rfl⟩)
    · refine ⟨fun _ => ?_,fun h => absurd h hends⟩
      exact (yields_bind (Packet.settled_parsePacket frame) (fun _ => settled_const (pure (some frame))) _).mpr
        (.inl ⟨p,hparse,yields_ok rfl⟩)

theorem handlePacketIn_framed {bufferId : UInt32} {totalLen inPort : UInt16} {reason : UInt8} {data : Option Bytes}
    (hs : (Construction.packetIn bufferId totalLen inPort reason data).size ≤ 65535) :
    (¬ Stops handlers (.packetIn bufferId totalLen inPort reason data) →
      Yields (fun n => handlePacketIn handlers (encode xid (.packetIn bufferId totalLen inPort reason data)) n)
        (.ok (call handlers .packetIn (.packetIn xid bufferId totalLen inPort reason (handedData data))))) ∧
    (Stops handlers (.packetIn bufferId totalLen inPort reason data) →
      Yields (fun n => handlePacketIn handlers (encode xid (.packetIn bufferId totalLen inPort reason data)) n)
        (.error .aborted)) := by
  obtain ⟨m,hm⟩ : ∃ m, m = encode xid (.packetIn bufferId totalLen inPort reason data) := ⟨_,rfl⟩
  have hframed : m = framed xid .packetIn (toNet32 bufferId ++ toNet16 totalLen ++ toNet16 inPort ++ [reason,0] ++
      data.getD []) := hm
  have hin : 18 ≤ m.length := by
    rw [hframed,length_framed]
    simp
    omega
  have hbuffer : be32 m 8 = bufferId := by simp [hframed,be32,framed]
  have htotal : be16 m 12 = totalLen := by simp [hframed,be16,framed]
  have hport : be16 m 14 = inPort := by simp [hframed,be16,framed]
  have hreason : hostByte m 16 = reason := by simp [hframed,hostByte,framed]
  have hpre : (toNet32 bufferId ++ toNet16 totalLen ++ toNet16 inPort ++ [reason,0]).length = 10 := by simp
  have hlen : sub16 (be16 m 2).toNat 18 = (data.getD []).length := by
    have h := bodyLength_framed xid .packetIn _ hs
    rwa [hpre,← hframed] at h
  have hxid : transactionId m = .ok xid := by
    rw [hframed]
    exact transactionId_framed _
  obtain ⟨hgood,hbad⟩ := packetInData_framed xid _ hpre data
  rw [← hframed] at hgood hbad
  rw [← hm]
  simp (disch := omega) only [handlePacketIn,hxid,ok_bind,net32_inside,net16_inside,byteAt_inside,hbuffer,htotal,hport,
    hreason,hlen]
  have hcall : ∀ body : Option Bytes, Settled fun _ : Nat =>
      (pure [OpenflowEvent.packetIn xid bufferId totalLen inPort reason body] : Exec _) := fun _ => settled_const _
  cases hreg : handlers.openflow .packetIn with
  | false =>
    simp only [call,hreg,Bool.false_eq_true,if_false]
    exact ⟨fun _ => yields_ok rfl,fun h => absurd h.1 (by rw [hreg]; simp)⟩
  | true =>
    simp only [call,hreg,if_true]
    constructor
    · intro hstops
      exact (yields_bind (settled_packetInData m _) hcall _).mpr
        (.inl ⟨_,hgood fun hcut => hstops ⟨hreg,hcut⟩,yields_ok rfl⟩)
    · intro hstops
      exact (yields_bind (settled_packetInData m _) hcall _).mpr (.inr ⟨_,hbad hstops.2,rfl⟩)

theorem desc_told {flags : UInt16} {rest : Bytes} (hs : 12 + rest.length ≤ 65535) (hpos : 0 < rest.length) :
    Yields (fun n => handleStatsReply n heap true (framed xid .statsReply (statsHead .desc flags ++ rest)))
      (.ok [⟨xid,StatsType.desc.code,flags,some rest⟩]) :=
  handleStatsReply_framed hs hpos (yields_ok rfl)

theorem vendor_told {flags : UInt16} {vendorId : UInt32} {data : Bytes} (hs : 16 + data.length ≤ 65535) :
    Yields (fun n => handleStatsReply n heap true (framed xid .statsReply (statsHead .vendor flags ++
      (toNet32 vendorId ++ data)))) (.ok [⟨xid,StatsType.vendor.code,flags,some (toHost32 vendorId ++ data)⟩]) := by
  refine handleStatsReply_framed (by simp; omega) (by simp) ?_
  have hlen : (toNet32 vendorId ++ data).length = 4 + data.length := by simp
  have hload : (load (toNet32 vendorId ++ data) 0 (toNet32 vendorId ++ data).length : Exec Bytes) =
      .ok (toNet32 vendorId ++ data) := by
    rw [load_ok (by omega),slice_whole rfl]
  have hcopy : (store (xmalloc heap (toNet32 vendorId ++ data).length) 0 (toNet32 vendorId ++ data) : Exec Bytes) =
      .ok (toNet32 vendorId ++ data) := by
    rw [store_ok (by rw [length_xmalloc]; omega),List.take_zero,List.nil_append,
      List.drop_eq_nil_of_le (by rw [length_xmalloc]; omega),List.append_nil]
  have hid : (convert [.swap 4] (toNet32 vendorId ++ data) 0 : Exec Bytes) = .ok (toHost32 vendorId) := by
    have hread : readEnd [.swap 4] = 4 := rfl
    rw [convert_inside (by rw [hread]; omega),List.drop_zero,cells_append _ (by rw [hread]; simp)]
    rw [cells,cells,List.append_nil,List.take_of_length_le (by simp),reverse_toNet32]
  have hstore : (store (toNet32 vendorId ++ data) 0 (toHost32 vendorId) : Exec Bytes) = .ok (toHost32 vendorId ++ data) :=
    store_append [] (toNet32 vendorId) data _ (by simp)
  have hbody : ∀ n, ntohStatsBody n heap StatsType.vendor.code (toNet32 vendorId ++ data)
      (toNet32 vendorId ++ data).length = .ok (toHost32 vendorId ++ data) := by
    intro n
    rw [ntohStatsBody,StatsType.ofCode_code]
    simp only [hload,ok_bind,hcopy,hid,hstore]
  simp only [hbody]
  exact yields_ok rfl

theorem statsReply_told (heap : Nat → UInt8) {c : Construction} (hc : c.type = .statsReply) (ha : c.Allowed) (hs : c.size ≤ 65535)
    {event : OpenflowEvent} (hevent : told xid c = some event) :
    ∃ reply, event = .statsReply reply ∧
      Yields (fun n => handleStatsReply n heap true (encode xid c)) (.ok [reply]) := by
  cases c with
  | descStatsReply flags mfrDesc hwDesc swDesc serialNum dpDesc =>
    injection hevent with hevent
    obtain ⟨_,hmfr,_⟩ := ha
    refine ⟨_,hevent.symm,?_⟩
    have hbody : encode xid (.descStatsReply flags mfrDesc hwDesc swDesc serialNum dpDesc) = framed xid .statsReply
        (statsHead .desc flags ++ (mfrDesc ++ hwDesc ++ swDesc ++ serialNum.take 32 ++ dpDesc)) := by
      simp only [encode,Construction.type,Construction.body,List.append_assoc]
    rw [hbody]
    refine desc_told ?_ (by simp only [List.length_append]; omega)
    simp only [Construction.size,Construction.body,List.length_append,length_statsHead] at hs ⊢
    omega
  | flowStatsReply flags flows =>
    injection hevent with hevent
    refine ⟨_,hevent.symm,flows_delivered flows ?_⟩
    simp [Construction.size,Construction.body] at hs
    omega
  | aggregateStatsReply flags packetCount byteCount flowCount =>
    injection hevent with hevent
    exact ⟨_,hevent.symm,aggregate_delivered⟩
  | tableStatsReply flags tables =>
    injection hevent with hevent
    refine ⟨_,hevent.symm,structs_delivered (by decide) tables ?_ fun _ _ _ => rfl⟩
    simp [Construction.size,Construction.body] at hs
    omega
  | portStatsReply flags ports =>
    injection hevent with hevent
    refine ⟨_,hevent.symm,structs_delivered (by decide) ports ?_ fun _ _ _ => rfl⟩
    simp [Construction.size,Construction.body] at hs
    omega
  | queueStatsReply flags queues =>
    injection hevent with hevent
    refine ⟨_,hevent.symm,structs_delivered (by decide) queues ?_ fun _ _ _ => rfl⟩
    simp [Construction.size,Construction.body] at hs
    omega
  | vendorStatsReply flags vendorId body =>
    injection hevent with hevent
    refine ⟨_,hevent.symm,?_⟩
    have hbody : encode xid (.vendorStatsReply flags vendorId body) = framed xid .statsReply
        (statsHead .vendor flags ++ (toNet32 vendorId ++ body.getD [])) := by
      simp only [encode,Construction.type,Construction.body,List.append_assoc]
    rw [hbody]
    refine vendor_told ?_
    simp [Construction.size,Construction.body] at hs
    omega
  | _ => exact absurd hc (by simp [Construction.type])

theorem unregistered_statsReply {m : Bytes} (h : 12 ≤ m.length) (n : Nat) : handleStatsReply n heap false m = .ok [] := by
  simp (disch := omega) only [handleStatsReply,net32_inside,net16_inside,ok_bind]
  rw [abortIf,if_neg (by omega)]
  rfl

theorem unregistered_queueConfig {m : Bytes} (h : 12 ≤ m.length) (n : Nat) :
    handleQueueGetConfigReply n false m = .ok [] := by
  simp (disch := omega) only [handleQueueGetConfigReply,net32_inside,net16_inside,ok_bind]
  rw [abortIf,if_neg (by omega)]
  rfl

theorem plain_told {m : Bytes} {type : OfpType} {event : OpenflowEvent} {r : Exec (List OpenflowEvent)}
    (hby : ∀ n, handleByType handlers m n heap type = some r) (hr : r = .ok (call handlers type event)) :
    Yields (fun n => (handleByType handlers m n heap type).getD (pure []))
      (.ok (if handlers.openflow type then (some event).toList else [])) := by
  simp only [hby,Option.getD_some]
  exact yields_ok hr

theorem statsHandler_told {c : Construction} (hc : c.type = .statsReply) (ha : c.Allowed) (hs : c.size ≤ 65535)
    {event : OpenflowEvent} (hevent : told xid c = some event) (registered : Bool) :
    Yields (fun n => handleStatsReply n heap registered (encode xid c) >>= fun replies =>
      (pure (replies.map .statsReply) : Exec (List OpenflowEvent)))
      (.ok (if registered then [event] else [])) := by
  have hpush : ∀ replies : List StatsReply, Settled fun _ : Nat =>
      (pure (replies.map .statsReply) : Exec (List OpenflowEvent)) := fun _ => settled_const _
  refine (yields_bind (settled_handleStatsReply _ heap _) hpush _).mpr (.inl ?_)
  cases registered with
  | false =>
    have hlen : 12 ≤ (encode xid c).length := by
      rw [encode,length_framed]
      cases c with
      | descStatsReply | flowStatsReply | aggregateStatsReply | tableStatsReply | portStatsReply | queueStatsReply |
          vendorStatsReply =>
        simp only [Construction.body,List.length_append,length_statsHead]
        omega
      | _ => exact absurd hc (by simp [Construction.type])
    simp only [unregistered_statsReply hlen]
    exact ⟨_,yields_ok rfl,yields_ok rfl⟩
  | true =>
    obtain ⟨reply,rfl,hreply⟩ := statsReply_told heap hc ha hs hevent
    exact ⟨_,hreply,yields_ok rfl⟩

theorem queueHandler_told {port : UInt16} {queues : List PacketQueue} (hne : queues ≠ [])
    (hs : (Construction.queueGetConfigReply port queues).size ≤ 65535) (registered : Bool) :
    Yields (fun n => handleQueueGetConfigReply n registered (encode xid (.queueGetConfigReply port queues)) >>=
      fun configs => (pure (configs.map .queueGetConfigReply) : Exec (List OpenflowEvent)))
      (.ok (if registered then
        [.queueGetConfigReply ⟨xid,port,queues.map fun queue => queue.unpadded.bytes⟩] else [])) := by
  have hpush : ∀ configs : List QueueConfig, Settled fun _ : Nat =>
      (pure (configs.map .queueGetConfigReply) : Exec (List OpenflowEvent)) := fun _ => settled_const _
  refine (yields_bind (settled_handleQueueGetConfigReply _ _) hpush _).mpr (.inl ?_)
  cases registered with
  | false =>
    have hlen : 12 ≤ (encode xid (.queueGetConfigReply port queues)).length := by
      rw [encode,length_framed]
      simp only [Construction.body,List.length_append,length_toNet16,List.length_cons]
      omega
    simp only [unregistered_queueConfig hlen]
    exact ⟨_,yields_ok rfl,yields_ok rfl⟩
  | true =>
    refine ⟨_,queues_delivered queues hne ?_,yields_ok rfl⟩
    simp [Construction.size,Construction.body] at hs
    omega

theorem handleByType_packetIn (m : Bytes) (n : Nat) :
    (handleByType handlers m n heap .packetIn).getD (pure []) = handlePacketIn handlers m n := by
  have hby : handleByType handlers m n heap .packetIn = some (handlePacketIn handlers m n) := rfl
  rw [hby,Option.getD_some]

-- What the handler of a message's type does with it.
theorem handler_told (xid : UInt32) (handlers : Handlers) (heap : Nat → UInt8) {c : Construction} (ha : c.Allowed) (hg : c.Guarded) (hs : c.size ≤ 65535) :
    (¬ Stops handlers c → Yields (fun n => (handleByType handlers (encode xid c) n heap c.type).getD (pure []))
      (.ok (if handlers.openflow c.type then (told xid c).toList else []))) ∧
    (Stops handlers c → Yields (fun n => (handleByType handlers (encode xid c) n heap c.type).getD (pure []))
      (.error .aborted)) := by
  cases c with
  | packetIn bufferId totalLen inPort reason data =>
    simp only [Construction.type,handleByType_packetIn]
    exact handlePacketIn_framed hs
  | error type code data => exact ⟨fun _ => plain_told (fun _ => rfl) handleError_framed,False.elim⟩
  | echoReply body => exact ⟨fun _ => plain_told (fun _ => rfl) (handleEchoReply_framed hs),False.elim⟩
  | vendor vendorId data => exact ⟨fun _ => plain_told (fun _ => rfl) (handleVendor_framed hs),False.elim⟩
  | featuresReply => exact ⟨fun _ => plain_told (fun _ => rfl) (handleFeaturesReply_framed hs),False.elim⟩
  | getConfigReply => exact ⟨fun _ => plain_told (fun _ => rfl) handleGetConfigReply_framed,False.elim⟩
  | flowRemoved => exact ⟨fun _ => plain_told (fun _ => rfl) (handleFlowRemoved_framed rfl),False.elim⟩
  | portStatus => exact ⟨fun _ => plain_told (fun _ => rfl) handlePortStatus_framed,False.elim⟩
  | barrierReply => exact ⟨fun _ => plain_told (fun _ => rfl) handleBarrierReply_framed,False.elim⟩
  | queueGetConfigReply port queues => exact ⟨fun _ => queueHandler_told hg hs _,False.elim⟩
  | descStatsReply | flowStatsReply | aggregateStatsReply | tableStatsReply | portStatsReply | queueStatsReply |
      vendorStatsReply =>
    exact ⟨fun _ => statsHandler_told rfl ha hs rfl _,False.elim⟩
  | _ =>
    refine ⟨fun _ => yields_ok ?_,False.elim⟩
    split <;> rfl

end Handlers

section Delivery

variable {handlers : Handlers} {heap : Nat → UInt8}

theorem handleMessage_told {a : Announced} (h : a.Sendable) {r : Exec (List OpenflowEvent)}
    (hr : Yields (fun n => (handleByType handlers (encode a.xid a.message) n heap a.message.type).getD (pure [])) r) :
    Yields (fun n => handleMessage handlers n heap messengerOpenflowMessage
      (createOpenflowApplicationMessage (some a.datapathId) (some (encode a.xid a.message))))
      (r.map fun events => ⟨events.map (.openflow a.datapathId),
        some (updateOpenflowStats a.message.type.code false true)⟩) := by
  have hh : Headed (encode a.xid a.message) a.message.type 0 65535 := headed_framed h.size (Nat.zero_le _) h.size
  have hfits := hh.fits
  have haccepted : Yields (fun n => validateOpenflowMessage n (encode a.xid a.message)) (.ok ()) :=
    encode_accepted h.allowed h.guarded h.size
  obtain ⟨j,hj⟩ := (settled_validateOpenflowMessage _).eventually haccepted
  obtain ⟨k,hk⟩ := (settled_handleByType _ _).eventually hr
  have hvalid := hj (max j k) (Nat.le_max_left j k)
  have hevents := hk (max j k) (Nat.le_max_right j k)
  have hdata : createOpenflowApplicationMessage (some a.datapathId) (some (encode a.xid a.message)) =
      toNet64 a.datapathId ++ toNet16 0 ++ encode a.xid a.message := rfl
  have hlen : (createOpenflowApplicationMessage (some a.datapathId) (some (encode a.xid a.message))).length =
      10 + (encode a.xid a.message).length := by
    rw [hdata]
    simp
    omega
  have hid : be64 (createOpenflowApplicationMessage (some a.datapathId) (some (encode a.xid a.message))) 0 =
      a.datapathId := by
    rw [hdata,be64,List.append_assoc,slice_append_left (by simp),slice_whole (by simp),ofNat_beNat_toNet64]
  have hfront : removeFrontBuffer (createOpenflowApplicationMessage (some a.datapathId)
      (some (encode a.xid a.message))) 10 = .ok (encode a.xid a.message) := by
    rw [removeFrontBuffer,abortIf,if_neg (by omega),ok_bind,hdata,List.drop_left' (by simp)]
    rfl
  refine ⟨?_,max j k,?_⟩
  · cases r with
    | ok events => simp [Except.map]
    | error e => exact fun he => hr.1 (by simpa [Except.map] using he)
  · have hvalidated : handleValid handlers (max j k) heap a.datapathId (encode a.xid a.message) =
        r.map fun events => ⟨events.map (.openflow a.datapathId),
          some (updateOpenflowStats a.message.type.code false true)⟩ := by
      rw [handleValid,byteAt_inside (by omega),ok_bind,hh.type,OfpType.ofCode_code,Option.bind_some,hevents]
      cases r <;> rfl
    simp only [handleMessage,handleOpenflowMessage,hfront,ok_bind,hvalid]
    rw [abortIf,if_neg (by omega),ok_bind,if_pos trivial,abortIf,if_neg (by omega),ok_bind,net64_inside (by omega),
      ok_bind,hid]
    exact hvalidated

theorem settled_create (xid : UInt32) (c : Construction) : Settled (fun n => create n xid c) := by
  cases c with
  | flowStatsReply flags flows =>
    simp only [create,createFlowStatsReply]
    exact settled_bind (settled_const _) fun _ => settled_bind (settled_const _) fun buffer => settled_htonFlows _ _ _
  | queueGetConfigReply port queues =>
    simp only [create,createQueueGetConfigReply]
    refine settled_bind (settled_const _) fun _ => settled_bind (settled_const _) fun length => ?_
    refine settled_bind (settled_const _) fun buffer => ?_
    exact settled_ite (settled_htonQueues buffer 16 queues) (settled_const (pure buffer))
  | _ =>
    simp only [create]
    exact settled_const _

-- What handle_openflow_message does with the verdict on the message.
def afterVerdict (handlers : Handlers) (heap : Nat → UInt8) (datapathId : UInt64) (message : Bytes) (fuel : Nat) :
    Exec Unit → Exec Received
  | .error (.rejected _) => pure ⟨[],none⟩
  | .error stop => .error stop
  | .ok () => handleValid handlers fuel heap datapathId message

theorem settled_handleOpenflowMessage (data : Bytes) : Settled (fun n => handleOpenflowMessage handlers n heap data) := by
  refine settled_bind (settled_const _) fun _ => settled_bind (settled_const _) fun datapathId => ?_
  refine settled_bind (settled_const _) fun message => ?_
  refine settled_inspect (g := afterVerdict handlers heap datapathId message)
    (settled_validateOpenflowMessage message) ?_ fun _ => rfl
  intro r
  unfold afterVerdict
  split
  · exact settled_const _
  · exact settled_const _
  · refine settled_bind (settled_const _) fun type => settled_bind ?_ fun _ => settled_const _
    cases OfpType.ofCode type with
    | none => exact settled_const _
    | some type => exact settled_handleByType message type

theorem settled_handleMessage (type : UInt16) (data : Bytes) :
    Settled (fun n => handleMessage handlers n heap type data) := by
  refine settled_bind (settled_const _) fun _ => settled_ite (settled_handleOpenflowMessage data) ?_
  exact settled_ite (settled_const _) (settled_const _)

theorem settled_announce (a : Announced) : Settled (fun n => announce handlers heap n a) :=
  settled_bind (settled_create a.xid a.message) fun _ => settled_handleMessage _ _

theorem announce_told {a : Announced} (h : a.Sendable) :
    (¬ Stops handlers a.message → Yields (fun n => announce handlers heap n a) (.ok (announced handlers a))) ∧
    (Stops handlers a.message → Yields (fun n => announce handlers heap n a) (.error .aborted)) := by
  have hcreate : Yields (fun n => create n a.xid a.message) (.ok (encode a.xid a.message)) :=
    create_yields h.guarded (encodable_of_allowed h.allowed h.size) h.size
  obtain ⟨hgood,hbad⟩ := handler_told a.xid handlers heap h.allowed h.guarded h.size
  constructor
  · intro hstops
    have htold := handleMessage_told h (hgood hstops)
    refine (yields_bind (settled_create _ _) (fun _ => settled_handleMessage _ _) _).mpr (.inl ⟨_,hcreate,?_⟩)
    have hcalls : announced handlers a = ⟨(if handlers.openflow a.message.type then (told a.xid a.message).toList
        else []).map (.openflow a.datapathId),some (updateOpenflowStats a.message.type.code false true)⟩ := by
      rw [announced,calls]
      split <;> rfl
    rw [hcalls]
    exact htold
  · intro hstops
    exact (yields_bind (settled_create _ _) (fun _ => settled_handleMessage _ _) _).mpr
      (.inl ⟨_,hcreate,handleMessage_told h (hbad hstops)⟩)

end Delivery

section Counters

open Management

def counts (received : List Received) : List StatOperation :=
  (received.filterMap Received.counted).map .increment

def receivedKey (type : OfpType) : Bytes := (updateOpenflowStats type.code false true).bytes

def typeNames : List Bytes := (List.range 22).map fun i => characters (messageName (OfpType.ofCode (UInt8.ofNat i))).toList

theorem typeNames_nodup : typeNames.Nodup := by decide +kernel

theorem receivedKey_injective {t u : OfpType} (h : receivedKey t = receivedKey u) : t = u := by
  have hname : characters (messageName (some t)).toList = characters (messageName (some u)).toList := by
    simp only [receivedKey,updateOpenflowStats,statKey,OfpType.ofCode_code] at h
    exact List.append_cancel_left (List.append_cancel_right (List.append_cancel_right h))
  have hindex : ∀ t : OfpType, typeNames[t.code.toNat]? = some (characters (messageName (some t)).toList) := by
    intro t
    cases t <;> rfl
  have hlt : ∀ t : OfpType, t.code.toNat < typeNames.length := by
    intro t
    cases t <;> decide
  have hsame : typeNames[t.code.toNat]? = typeNames[u.code.toNat]? := by rw [hindex,hindex,hname]
  have hcode : t.code.toNat = u.code.toNat := (List.getElem?_inj (hlt t) typeNames_nodup).mp hsame
  have := OfpType.ofCode_code t
  rw [UInt8.toNat_inj.mp hcode,OfpType.ofCode_code] at this
  injection this with this
  exact this.symm

theorem receivedKey_short (type : OfpType) : (receivedKey type).length ≤ 255 := by
  cases type <;> decide

theorem received_counted (handlers : Handlers) (traffic : List Announced) :
    ∃ stats, runStats (counts (traffic.map (announced handlers))) = .ok stats ∧
      ∀ type, (lookupStat stats (receivedKey type)).map StatEntry.value =
        if traffic.countP (fun a => a.message.type = type) = 0 then none
        else some (UInt64.ofNat (traffic.countP fun a => a.message.type = type)) := by
  have hkeys : counts (traffic.map (announced handlers)) =
      (traffic.map fun a => updateOpenflowStats a.message.type.code false true).map .increment := by
    rw [counts,List.filterMap_map]
    exact congrArg (List.map StatOperation.increment) (List.filterMap_eq_map'.symm ▸ rfl)
  rw [hkeys]
  obtain ⟨stats,hrun,hstats⟩ := (represents_init.run
    ((traffic.map fun a => updateOpenflowStats a.message.type.code false true).map .increment)).2 (by
      intro op hop
      obtain ⟨key,hkey,rfl⟩ := List.mem_map.mp hop
      obtain ⟨a,_,rfl⟩ := List.mem_map.mp hkey
      exact receivedKey_short a.message.type)
  refine ⟨stats,hrun,fun type => ?_⟩
  have hcount : (traffic.map fun a => updateOpenflowStats a.message.type.code false true).countP
      (fun k => k.bytes = receivedKey type) = traffic.countP fun a => a.message.type = type := by
    rw [List.countP_map]
    refine congrArg (fun p => traffic.countP p) (funext fun a => ?_)
    simp only [Function.comp,decide_eq_decide]
    exact ⟨receivedKey_injective,fun h => by rw [h]; rfl⟩
  rw [hstats.counted,← counter,counter_increments,hcount]
  split <;> rfl

end Counters

-- What the switches announce reaches the controller's handlers, once each and in order; a packet-in that the packet
-- parser does not get through stops the controller.
theorem messages_announced (handlers : Handlers) (heap : Nat → UInt8) (traffic : List Announced)
    (h : ∀ a ∈ traffic, a.Sendable) :
    ((∀ a ∈ traffic, ¬ Stops handlers a.message) →
      Yields (fun n => traffic.mapM (announce handlers heap n)) (.ok (traffic.map (announced handlers)))) ∧
    ((∃ a ∈ traffic, Stops handlers a.message) →
      Yields (fun n => traffic.mapM (announce handlers heap n)) (.error .aborted)) ∧
    ∃ stats, Management.runStats (counts (traffic.map (announced handlers))) = .ok stats ∧
      ∀ type, (Management.lookupStat stats (receivedKey type)).map Management.StatEntry.value =
        if traffic.countP (fun a => a.message.type = type) = 0 then none
        else some (UInt64.ofNat (traffic.countP fun a => a.message.type = type)) := by
  refine ⟨fun hgood => ?_,fun ⟨a,ha,hstops⟩ => ?_,received_counted handlers traffic⟩
  · exact yields_mapM settled_announce fun a ha => (announce_told (h a ha)).1 (hgood a ha)
  · refine yields_mapM_error (g := announced handlers) settled_announce (fun b hb => ?_) ⟨a,ha,(announce_told (h a ha)).2 hstops⟩
    by_cases hb' : Stops handlers b.message
    · exact .inr ((announce_told (h b hb)).2 hb')
    · exact .inl ((announce_told (h b hb)).1 hb')

def takesAll : Handlers := ⟨fun _ => true,true,true⟩

-- Two switches, two types of message.
def repliesOfTwo : List Announced := [⟨1,7,.barrierReply⟩,⟨2,8,.getConfigReply 0 128⟩,⟨2,9,.barrierReply⟩]

theorem replies_announced :
    Yields (fun n => repliesOfTwo.mapM (announce takesAll (fun _ => 0) n))
      (.ok [⟨[.openflow 1 (.barrierReply 7)],some (updateOpenflowStats 19 false true)⟩,
        ⟨[.openflow 2 (.getConfigReply 8 0 128)],some (updateOpenflowStats 8 false true)⟩,
        ⟨[.openflow 2 (.barrierReply 9)],some (updateOpenflowStats 19 false true)⟩]) ∧
    ∃ stats, Management.runStats (counts (repliesOfTwo.map (announced takesAll))) = .ok stats ∧
      (Management.lookupStat stats (receivedKey .barrierReply)).map Management.StatEntry.value = some 2 ∧
      (Management.lookupStat stats (receivedKey .getConfigReply)).map Management.StatEntry.value = some 1 := by
  have hsendable : ∀ a ∈ repliesOfTwo, a.Sendable ∧ ¬ Stops takesAll a.message := by
    intro a ha
    simp only [repliesOfTwo,List.mem_cons,List.not_mem_nil,or_false] at ha
    rcases ha with rfl | rfl | rfl
    · exact ⟨⟨trivial,trivial,by decide⟩,not_false⟩
    · exact ⟨⟨(by decide : (0 : UInt16) ≤ ofpcFragMask),trivial,by decide⟩,not_false⟩
    · exact ⟨⟨trivial,trivial,by decide⟩,not_false⟩
  obtain ⟨hannounced,_,stats,hrun,hcounted⟩ :=
    messages_announced takesAll (fun _ => 0) repliesOfTwo fun a ha => (hsendable a ha).1
  exact ⟨hannounced fun a ha => (hsendable a ha).2,stats,hrun,hcounted .barrierReply,hcounted .getConfigReply⟩

end Trema.OpenFlow.Application
