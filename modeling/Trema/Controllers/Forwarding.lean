import Trema.OpenFlow.Conformance
import Trema.OpenFlow.Identifiers
import Trema.OpenFlow.Lengths
import Trema.Packet.Covering
import Trema.SwitchManager.SwitchInfo

namespace Trema.Controllers

open Library OpenFlow Packet
open SwitchManager (ofpffSendFlowRem)

def ofppFlood : UInt16 := 0xfffb
def ofpfcAdd : UInt16 := 0

-- A buffer and the packet info that parse_packet leaves on it.
structure Frame where
  data : Bytes
  packetInfo : PacketInfo
deriving DecidableEq

structure PacketIn where
  datapathId : UInt64
  transactionId : UInt32
  bufferId : UInt32
  totalLen : UInt16
  inPort : UInt16
  reason : UInt8
  data : Option Frame

-- What send_openflow_message is given.
structure Sent where
  datapathId : UInt64
  message : Bytes
deriving DecidableEq

-- The static variables of openflow_message.c.
structure Identifiers where
  transactionId : UInt32
  cookie : UInt64

def packetTypeEther (p : PacketInfo) : Bool :=
  p.ifPacketType 0x1 || p.ifPacketType 0x2 || p.ifPacketType 0x4 || p.ifPacketType 0x8

-- Up to ETH_MINIMUM_LENGTH without ETH_FCS_LENGTH.
def fillEtherPadding (data : Bytes) : Bytes :=
  if data.length + 4 < 64 then data ++ List.replicate (64 - data.length - 4) 0 else data

-- What duplicates, parses or reads a null buffer stops.
def present : Option Frame → Exec Frame
  | some frame => pure frame
  | none => .error .aborted

section Code

variable (ids : Identifiers) (packetIn : PacketIn)

def unbufferedFrame : Exec (Option Bytes) :=
  if packetIn.bufferId = uint32Max then do
    let frame ← present packetIn.data
    pure (some (fillEtherPadding frame.data))
  else pure none

def doFlooding : Exec (Identifiers × List Sent) := do
  let actions ← appendActionOutput createActions ofppFlood uint16Max
  let frame ← unbufferedFrame packetIn
  let transactionId := getTransactionId ids.transactionId
  let packetOut ← createPacketOut transactionId packetIn.bufferId packetIn.inPort (some actions) frame
  pure (⟨transactionId,ids.cookie⟩,[⟨packetIn.datapathId,packetOut⟩])

def sendPacket (destinationPort : UInt16) : Exec (Identifiers × List Sent) := do
  let actions ← appendActionOutput createActions destinationPort uint16Max
  let frame ← present packetIn.data
  let mtch := setMatchFromPacket 0 frame.packetInfo packetIn.inPort
  let transactionId := getTransactionId ids.transactionId
  let cookie := getCookie ids.cookie
  let flowMod ← createFlowMod transactionId mtch cookie ofpfcAdd 60 0 uint16Max packetIn.bufferId ofppNone
    ofpffSendFlowRem (some actions)
  if packetIn.bufferId = uint32Max then do
    let frame ← unbufferedFrame packetIn
    let packetOut ← createPacketOut (getTransactionId transactionId) packetIn.bufferId packetIn.inPort (some actions)
      frame
    pure (⟨getTransactionId transactionId,cookie⟩,
      [⟨packetIn.datapathId,flowMod⟩,⟨packetIn.datapathId,packetOut⟩])
  else pure (⟨transactionId,cookie⟩,[⟨packetIn.datapathId,flowMod⟩])

end Code

section Messages

variable (packetIn : PacketIn) (frame : Frame)

def outputTo (port : UInt16) : OpenflowActions :=
  ⟨1,[actionHeader .output 8 ++ toHost16 port ++ toHost16 uint16Max]⟩

def packetOutTo (port : UInt16) : Construction :=
  .packetOut packetIn.bufferId packetIn.inPort (some (outputTo port))
    (if packetIn.bufferId = uint32Max then some (fillEtherPadding frame.data) else none)

def flowModTo (cookie : UInt64) (port : UInt16) : Construction :=
  .flowMod (setMatchFromPacket 0 frame.packetInfo packetIn.inPort) cookie ofpfcAdd 60 0 uint16Max packetIn.bufferId
    ofppNone ofpffSendFlowRem (some (outputTo port))

-- A port for the destination, or none that is known.
def answer (ids : Identifiers) : Option UInt16 → List Sent
  | none => [⟨packetIn.datapathId,encode (getTransactionId ids.transactionId) (packetOutTo packetIn frame ofppFlood)⟩]
  | some port =>
    ⟨packetIn.datapathId,encode (getTransactionId ids.transactionId)
        (flowModTo packetIn frame (getCookie ids.cookie) port)⟩ ::
      if packetIn.bufferId = uint32Max then
        [⟨packetIn.datapathId,encode (getTransactionId (getTransactionId ids.transactionId))
          (packetOutTo packetIn frame port)⟩]
      else []

def taken (ids : Identifiers) : Option UInt16 → Identifiers
  | none => ⟨getTransactionId ids.transactionId,ids.cookie⟩
  | some _ => ⟨if packetIn.bufferId = uint32Max then getTransactionId (getTransactionId ids.transactionId)
      else getTransactionId ids.transactionId,getCookie ids.cookie⟩

end Messages

section Accepted

variable {packetIn : PacketIn} {frame : Frame} {port : UInt16}

theorem exact_valid (p : PacketInfo) (inPort : UInt16) : validateMatch (p.exact inPort) = .ok () := by
  have hvlan : validateVlanVid p.dlVlan = .ok () := by
    refine rejectIf_eq_ok.mpr ?_
    rw [PacketInfo.dlVlan]
    split
    · rw [validVid_eq,UInt16.and_assoc]
      exact fun h => h.2 (by rw [show vlanVidMask &&& ~~~vlanVidMask = 0 from by decide,UInt16.and_zero])
    · exact fun h => h.1 rfl
  have hpcp : validateVlanPcp p.dlVlanPcp = .ok () := by
    refine rejectIf_eq_ok.mpr (not_not.mpr ?_)
    rw [PacketInfo.dlVlanPcp]
    split
    · rw [validPcp_eq,UInt8.and_assoc,show vlanPcpMask &&& ~~~vlanPcpMask = 0 from by decide,UInt8.and_zero]
    · decide
  have htos : validateNwTos p.nwTos = .ok () := by
    refine rejectIf_eq_ok.mpr (not_not.mpr ?_)
    rw [PacketInfo.nwTos]
    split
    · rw [validTos_eq,UInt8.and_assoc,show nwTosMask &&& ~~~nwTosMask = 0 from by decide,UInt8.and_zero]
    · decide
  have hwildcards : validateWildcards 0 = .ok () := by decide
  simp only [validateMatch,PacketInfo.exact,hwildcards,hvlan,hpcp,htos,ok_bind]

theorem built_output (hport : validatePhyPortNo port = .ok ()) : Built (some (outputTo port)) := by
  intro actions hactions
  injection hactions with hactions
  refine ⟨[.output port uint16Max],?_,fun c hc => ?_⟩
  · rw [← hactions]
    rfl
  · rw [List.mem_singleton.mp hc]
    exact hport

theorem isAction_outputTo (port : UInt16) : ∀ b ∈ actionList (some (outputTo port)), IsAction .host b := by
  have hblock : (ActionCall.output port uint16Max).block =
      actionHeader .output 8 ++ toHost16 port ++ toHost16 uint16Max := by
    rw [ActionCall.block,ActionCall.payload,List.length_append,length_toHost16,length_toHost16,
      List.append_assoc]
    rfl
  have hlist : actionList (some (outputTo port)) = [(ActionCall.output port uint16Max).block] := by
    rw [hblock]
    rfl
  intro b hb
  rw [hlist,List.mem_singleton] at hb
  rw [hb]
  exact ⟨_,actionBlock_block (by simp [length_block,ActionCall.payload])⟩

theorem length_outputTo (port : UInt16) : (actionList (some (outputTo port))).flatten.length = 8 := by
  simp [actionList,outputTo,actionHeader]

theorem length_padded (data : Bytes) : (fillEtherPadding data).length = max data.length 60 := by
  unfold fillEtherPadding
  split_ifs with h
  · rw [List.length_append,List.length_replicate]
    omega
  · omega

-- What an answer needs of a packet-in.
structure PacketIn.Answerable (packetIn : PacketIn) (frame : Frame) : Prop where
  data : packetIn.data = some frame
  inPort : validatePhyPortNo packetIn.inPort = .ok ()
  size : packetIn.bufferId = uint32Max → frame.data.length ≤ 65511

theorem accepted_packetOut (h : packetIn.Answerable frame) (hport : validatePhyPortNo port = .ok ()) :
    (packetOutTo packetIn frame port).Allowed ∧ (packetOutTo packetIn frame port).Guarded ∧
      (packetOutTo packetIn frame port).size ≤ 65535 := by
  have ha : (packetOutTo packetIn frame port).Allowed := ⟨h.inPort,built_output hport⟩
  refine ⟨ha,?_,?_⟩
  · intro hbuffer
    refine ⟨fillEtherPadding frame.data,if_pos hbuffer,?_⟩
    rw [length_padded]
    omega
  · have he : (packetOutTo packetIn frame port).Encodable := isAction_outputTo port
    rw [Construction.size_eq_total he]
    simp only [packetOutTo,Construction.total,length_outputTo]
    split_ifs with hbuffer
    · rw [Option.getD_some,length_padded]
      have := h.size hbuffer
      omega
    · simp

theorem accepted_flowMod (hport : validatePhyPortNo port = .ok ()) (cookie : UInt64) :
    (flowModTo packetIn frame cookie port).Allowed ∧ (flowModTo packetIn frame cookie port).Guarded ∧
      (flowModTo packetIn frame cookie port).size ≤ 65535 := by
  refine ⟨⟨?_,by decide,fun _ => rfl,?_,by decide,built_output hport⟩,trivial,?_⟩
  · rw [setMatch_exact]
    exact exact_valid _ _
  · intro hdelete
    exact absurd hdelete (by decide)
  · have he : (flowModTo packetIn frame cookie port).Encodable := isAction_outputTo port
    rw [Construction.size_eq_total he]
    simp only [flowModTo,Construction.total,length_outputTo]
    omega

theorem createPacketOut_to (h : packetIn.Answerable frame) (hport : validatePhyPortNo port = .ok ()) (xid : UInt32) :
    createPacketOut xid packetIn.bufferId packetIn.inPort (some (outputTo port))
      (if packetIn.bufferId = uint32Max then some (fillEtherPadding frame.data) else none) =
      .ok (encode xid (packetOutTo packetIn frame port)) := by
  obtain ⟨ha,hg,hs⟩ := accepted_packetOut h hport
  obtain ⟨_,n,hn⟩ : Yields (fun n => create n xid (packetOutTo packetIn frame port)) _ :=
    create_yields hg (encodable_of_allowed ha hs) hs
  exact hn

theorem createFlowMod_to (hport : validatePhyPortNo port = .ok ()) (xid : UInt32)
    (cookie : UInt64) : createFlowMod xid (setMatchFromPacket 0 frame.packetInfo packetIn.inPort) cookie ofpfcAdd 60 0
      uint16Max packetIn.bufferId ofppNone ofpffSendFlowRem (some (outputTo port)) =
      .ok (encode xid (flowModTo packetIn frame cookie port)) := by
  obtain ⟨ha,hg,hs⟩ := accepted_flowMod hport cookie
  obtain ⟨_,n,hn⟩ : Yields (fun n => create n xid (flowModTo packetIn frame cookie port)) _ :=
    create_yields hg (encodable_of_allowed ha hs) hs
  exact hn

theorem valid_outputPort : validatePhyPortNo ofppFlood = .ok () := by decide

theorem unbufferedFrame_eq (h : packetIn.Answerable frame) : unbufferedFrame packetIn =
    .ok (if packetIn.bufferId = uint32Max then some (fillEtherPadding frame.data) else none) := by
  rw [unbufferedFrame,h.data]
  split_ifs <;> rfl

theorem doFlooding_eq (h : packetIn.Answerable frame) (ids : Identifiers) :
    doFlooding ids packetIn = .ok (taken packetIn ids none,answer packetIn frame ids none) := by
  have hactions : appendActionOutput createActions ofppFlood uint16Max = .ok (outputTo ofppFlood) := rfl
  rw [doFlooding,hactions,ok_bind,unbufferedFrame_eq h,ok_bind]
  simp only [createPacketOut_to h valid_outputPort,ok_bind]
  rfl

theorem sendPacket_eq (h : packetIn.Answerable frame) (hport : validatePhyPortNo port = .ok ()) (ids : Identifiers) :
    sendPacket ids packetIn port = .ok (taken packetIn ids (some port),answer packetIn frame ids (some port)) := by
  have hactions : appendActionOutput createActions port uint16Max = .ok (outputTo port) := rfl
  have hpresent : present packetIn.data = .ok frame := by rw [h.data]; rfl
  rw [sendPacket,hactions,ok_bind,hpresent,ok_bind]
  simp only [createFlowMod_to hport,createPacketOut_to h hport,unbufferedFrame_eq h,ok_bind,answer,taken]
  split_ifs <;> rfl

-- Every answer is a message that the switch daemon accepts.
theorem answer_accepted (h : packetIn.Answerable frame) {located : Option UInt16}
    (hport : ∀ port, located = some port → validatePhyPortNo port = .ok ()) (ids : Identifiers) :
    ∀ sent ∈ answer packetIn frame ids located, sent.datapathId = packetIn.datapathId ∧
      Yields (fun n => validateOpenflowMessage n sent.message) (.ok ()) := by
  intro sent hsent
  cases located with
  | none =>
    rw [List.mem_singleton.mp hsent]
    obtain ⟨ha,hg,hs⟩ := accepted_packetOut h valid_outputPort
    exact ⟨rfl,encode_accepted ha hg hs⟩
  | some port =>
    rcases List.mem_cons.mp hsent with rfl | hsent
    · obtain ⟨ha,hg,hs⟩ := accepted_flowMod (hport port rfl) (getCookie ids.cookie)
      exact ⟨rfl,encode_accepted ha hg hs⟩
    · split_ifs at hsent
      · rw [List.mem_singleton.mp hsent]
        obtain ⟨ha,hg,hs⟩ := accepted_packetOut h (hport port rfl)
        exact ⟨rfl,encode_accepted ha hg hs⟩
      · exact absurd hsent (by simp)

end Accepted

end Trema.Controllers
