import Trema.Packet.NormalForm
import Trema.Packet.Parsing

namespace Trema.Packet

open Library
open OpenFlow
open Table

namespace PacketInfo

variable (p : PacketInfo)

def dlVlan : UInt16 := if p.packetTypeEthVtag then validVid p.vlanVid else 0xffff

def dlVlanPcp : UInt8 := if p.packetTypeEthVtag then validPcp p.vlanPrio else 0

def nwTos : UInt8 := if p.ethType = ethEthtypeIpv4 then validTos p.ipv4Tos else 0

def nwProto : UInt8 :=
  if p.ethType = ethEthtypeIpv4 then p.ipv4Protocol
  else if p.ethType = ethEthtypeArp then (p.arpArOp &&& arpOpMask).toUInt8
  else 0

def nwSrc : UInt32 :=
  if p.ethType = ethEthtypeIpv4 then p.ipv4Saddr else if p.ethType = ethEthtypeArp then p.arpSpa else 0

def nwDst : UInt32 :=
  if p.ethType = ethEthtypeIpv4 then p.ipv4Daddr else if p.ethType = ethEthtypeArp then p.arpTpa else 0

def portOf (icmp tcp udp : UInt16) : UInt16 :=
  if p.ipv4Protocol = ipprotoIcmp then icmp
  else if p.ipv4Protocol = ipprotoTcp then tcp
  else if p.ipv4Protocol = ipprotoUdp then udp
  else 0

def tpSrc : UInt16 :=
  if p.ethType = ethEthtypeIpv4 then p.portOf p.icmpv4Type.toUInt16 p.tcpSrcPort p.udpSrcPort else 0

def tpDst : UInt16 :=
  if p.ethType = ethEthtypeIpv4 then p.portOf p.icmpv4Code.toUInt16 p.tcpDstPort p.udpDstPort else 0

def exact (inPort : UInt16) : OfpMatch :=
  ⟨0,inPort,p.ethMacsa,p.ethMacda,p.dlVlan,p.dlVlanPcp,0,p.ethType,p.nwTos,p.nwProto,0,p.nwSrc,p.nwDst,p.tpSrc,p.tpDst⟩

end PacketInfo

variable {w flag : UInt32} {p : PacketInfo} {inPort : UInt16}

theorem filled_zero {α : Type} (old new : α) : filled 0 flag old new = new := if_pos not_has_zero

theorem filled_or {α : Type} (old new : α) : Has w flag ∨ filled w flag old new = new := by
  by_cases hw : Has w flag
  · exact .inl hw
  · exact .inr (if_pos hw)

theorem filledAddress_and {mask shift : UInt32} (old address : UInt32) :
    filledAddress w mask shift old address &&& createNwMask mask shift w = address &&& createNwMask mask shift w := by
  by_cases hl : 32 ≤ (w &&& mask) >>> shift
  · rw [createNwMask_long hl,UInt32.and_zero,UInt32.and_zero]
  · rw [createNwMask_short hl,filledAddress,if_pos (UInt32.not_le.mp hl),UInt32.and_assoc,UInt32.and_self]

theorem filledAddress_zero {mask shift : UInt32} (h : (0 : UInt32) >>> shift = 0) (old address : UInt32) :
    filledAddress 0 mask shift old address = address := by
  rw [filledAddress,UInt32.zero_and,h]
  exact UInt32.and_neg_one

def filledPort (w flag : UInt32) (proto : UInt8) (icmp tcp udp : UInt16) : UInt16 :=
  if proto = ipprotoIcmp then filled w flag 0 icmp
  else if proto = ipprotoTcp then filled w flag 0 tcp
  else if proto = ipprotoUdp then filled w flag 0 udp
  else 0

theorem setPorts_eq (m : OfpMatch) (hs : m.tpSrc = 0) (hd : m.tpDst = 0) : setPorts w p m =
    { m with
      tpSrc := filledPort w ofpfwTpSrc m.nwProto p.icmpv4Type.toUInt16 p.tcpSrcPort p.udpSrcPort
      tpDst := filledPort w ofpfwTpDst m.nwProto p.icmpv4Code.toUInt16 p.tcpDstPort p.udpDstPort } := by
  rw [setPorts,filledPort,filledPort,hs,hd]
  split
  · rfl
  · split
    · rfl
    · split
      · rfl
      · cases m
        simp only at hs hd
        rw [hs,hd]

def linked (w : UInt32) (p : PacketInfo) (inPort : UInt16) : OfpMatch := setLinkFields w p inPort zeroMatch

theorem setMatch_wild (hw : Has w ofpfwDlType) : setMatchFromPacket w p inPort = linked w p inPort := by
  have hd : (linked w p inPort).dlType = 0 := if_neg (not_not.mpr hw)
  have hi : setIpv4Fields w p (linked w p inPort) = linked w p inPort := if_neg (by rw [hd]; decide)
  rw [setMatchFromPacket,← linked,hi]
  exact if_neg (by rw [hd]; decide)

theorem dlType_linked (p : PacketInfo) (inPort : UInt16) (hw : ¬ Has w ofpfwDlType) :
    (linked w p inPort).dlType = p.ethType := if_pos hw

theorem setMatch_ipv4 (hw : ¬ Has w ofpfwDlType) (ht : p.ethType = ethEthtypeIpv4) :
    setMatchFromPacket w p inPort =
      { linked w p inPort with
        nwTos := filled w ofpfwNwTos 0 (validTos p.ipv4Tos)
        nwProto := filled w ofpfwNwProto 0 p.ipv4Protocol
        nwSrc := filledAddress w ofpfwNwSrcMask ofpfwNwSrcShift 0 p.ipv4Saddr
        nwDst := filledAddress w ofpfwNwDstMask ofpfwNwDstShift 0 p.ipv4Daddr
        tpSrc := filledPort w ofpfwTpSrc (filled w ofpfwNwProto 0 p.ipv4Protocol)
          p.icmpv4Type.toUInt16 p.tcpSrcPort p.udpSrcPort
        tpDst := filledPort w ofpfwTpDst (filled w ofpfwNwProto 0 p.ipv4Protocol)
          p.icmpv4Code.toUInt16 p.tcpDstPort p.udpDstPort } := by
  have hd := (dlType_linked p inPort hw).trans ht
  have harp : ∀ m : OfpMatch, m.dlType = ethEthtypeIpv4 → setArpFields w p m = m :=
    fun m hm => if_neg (by rw [hm]; decide)
  rw [setMatchFromPacket,← linked,setIpv4Fields,if_pos hd,setPorts_eq _ rfl rfl]
  exact harp _ hd

theorem setMatch_arp (hw : ¬ Has w ofpfwDlType) (ht : p.ethType = ethEthtypeArp) :
    setMatchFromPacket w p inPort =
      { linked w p inPort with
        nwProto := filled w ofpfwNwProto 0 (p.arpArOp &&& arpOpMask).toUInt8
        nwSrc := filledAddress w ofpfwNwSrcMask ofpfwNwSrcShift 0 p.arpSpa
        nwDst := filledAddress w ofpfwNwDstMask ofpfwNwDstShift 0 p.arpTpa } := by
  have hd := (dlType_linked p inPort hw).trans ht
  have hi : setIpv4Fields w p (linked w p inPort) = linked w p inPort := if_neg (by rw [hd]; decide)
  rw [setMatchFromPacket,← linked,hi]
  exact if_pos hd

theorem setMatch_other (hw : ¬ Has w ofpfwDlType) (hi : p.ethType ≠ ethEthtypeIpv4) (ha : p.ethType ≠ ethEthtypeArp) :
    setMatchFromPacket w p inPort = linked w p inPort := by
  have hd := dlType_linked p inPort hw
  have hk : setIpv4Fields w p (linked w p inPort) = linked w p inPort := if_neg (by rwa [hd])
  rw [setMatchFromPacket,← linked,hk]
  exact if_neg (by rwa [hd])

theorem linked_zero : linked 0 p inPort =
    ⟨0,inPort,p.ethMacsa,p.ethMacda,p.dlVlan,p.dlVlanPcp,0,p.ethType,0,0,0,0,0,0,0⟩ := by
  simp only [linked,setLinkFields,filled_zero]
  rfl

theorem filledPort_zero (proto : UInt8) (icmp tcp udp : UInt16) :
    filledPort 0 flag proto icmp tcp udp =
      if proto = ipprotoIcmp then icmp else if proto = ipprotoTcp then tcp else if proto = ipprotoUdp then udp else 0 := by
  simp only [filledPort,filled_zero]

theorem setMatch_exact : setMatchFromPacket 0 p inPort = p.exact inPort := by
  by_cases hi : p.ethType = ethEthtypeIpv4
  · rw [setMatch_ipv4 not_has_zero hi,linked_zero]
    simp only [filled_zero,filledPort_zero,filledAddress_zero (show (0 : UInt32) >>> ofpfwNwSrcShift = 0 by decide),
      filledAddress_zero (show (0 : UInt32) >>> ofpfwNwDstShift = 0 by decide),PacketInfo.exact,PacketInfo.nwTos,
      PacketInfo.nwProto,PacketInfo.nwSrc,PacketInfo.nwDst,PacketInfo.tpSrc,PacketInfo.tpDst,PacketInfo.portOf,
      if_pos hi]
  · by_cases ha : p.ethType = ethEthtypeArp
    · rw [setMatch_arp not_has_zero ha,linked_zero]
      simp only [filled_zero,filledAddress_zero (show (0 : UInt32) >>> ofpfwNwSrcShift = 0 by decide),
        filledAddress_zero (show (0 : UInt32) >>> ofpfwNwDstShift = 0 by decide),PacketInfo.exact,PacketInfo.nwTos,
        PacketInfo.nwProto,PacketInfo.nwSrc,PacketInfo.nwDst,PacketInfo.tpSrc,PacketInfo.tpDst,if_neg hi,if_pos ha]
    · rw [setMatch_other not_has_zero hi ha,linked_zero]
      simp only [PacketInfo.exact,PacketInfo.nwTos,PacketInfo.nwProto,PacketInfo.nwSrc,PacketInfo.nwDst,
        PacketInfo.tpSrc,PacketInfo.tpDst,if_neg hi,if_neg ha]

theorem and_of_and_not8 {x m : UInt8} (h : x &&& ~~~m = 0) : x &&& m = x := by
  have hbits := congrArg UInt8.toBitVec h
  apply UInt8.toBitVec_inj.mp
  ext i hi
  have hb := congrArg (·.getLsbD i) hbits
  simp [hi] at hb ⊢
  exact hb

theorem and_of_and_not16 {x m : UInt16} (h : x &&& ~~~m = 0) : x &&& m = x := by
  have hbits := congrArg UInt16.toBitVec h
  apply UInt16.toBitVec_inj.mp
  ext i hi
  have hb := congrArg (·.getLsbD i) hbits
  simp [hi] at hb ⊢
  exact hb

theorem validVid_eq (vid : UInt16) : validVid vid = vid &&& vlanVidMask := by
  rw [validVid]
  split
  · rfl
  · rename_i h
    exact (and_of_and_not16 (not_not.mp h)).symm

theorem validPcp_eq (pcp : UInt8) : validPcp pcp = pcp &&& vlanPcpMask := by
  rw [validPcp]
  split
  · rfl
  · rename_i h
    exact (and_of_and_not8 (not_not.mp h)).symm

theorem validTos_eq (tos : UInt8) : validTos tos = tos &&& nwTosMask := by
  rw [validTos]
  split
  · rfl
  · rename_i h
    exact (and_of_and_not8 (not_not.mp h)).symm

theorem icmp_byte (b : UInt8) : b.toUInt16 &&& icmpTypeMask = b.toUInt16 := by
  have hmask : icmpTypeMask.toNat = 2 ^ 8 - 1 := rfl
  apply UInt16.toNat_inj.mp
  rw [UInt16.toNat_and,UInt8.toNat_toUInt16,hmask,Nat.and_two_pow_sub_one_eq_mod]
  exact Nat.mod_eq_of_lt b.toNat_lt

theorem tpSrc_of_icmp (h : p.nwProto = ipprotoIcmp) : p.tpSrc &&& icmpTypeMask = p.tpSrc := by
  rw [PacketInfo.nwProto] at h
  rw [PacketInfo.tpSrc]
  split
  · rename_i hi
    rw [if_pos hi] at h
    rw [PacketInfo.portOf,if_pos h]
    exact icmp_byte _
  · rfl

theorem tpDst_of_icmp (h : p.nwProto = ipprotoIcmp) : p.tpDst &&& icmpCodeMask = p.tpDst := by
  rw [PacketInfo.nwProto] at h
  rw [PacketInfo.tpDst]
  split
  · rename_i hi
    rw [if_pos hi] at h
    rw [PacketInfo.portOf,if_pos h]
    exact icmp_byte _
  · rfl

theorem exact_exact : Exact (p.exact inPort) where
  wildcards := rfl
  dlVlan := by
    simp only [PacketInfo.exact,PacketInfo.dlVlan]
    split
    · exact .inr (by rw [validVid_eq,UInt16.and_assoc,UInt16.and_self])
    · exact .inl rfl
  dlVlanPcp := by
    simp only [PacketInfo.exact,PacketInfo.dlVlanPcp]
    split
    · rw [validPcp_eq,UInt8.and_assoc,UInt8.and_self]
    · rfl
  nwTos := by
    simp only [PacketInfo.exact,PacketInfo.nwTos]
    split
    · rw [validTos_eq,UInt8.and_assoc,UInt8.and_self]
    · rfl
  tpSrc := tpSrc_of_icmp
  tpDst := tpDst_of_icmp

-- A field is lost when the field it depends on is wildcarded and its own bits are not.
structure Filled (w : UInt32) (p : PacketInfo) : Prop where
  network : Has w ofpfwDlType →
    (Has w ofpfwNwTos ∨ p.nwTos = 0) ∧ (Has w ofpfwNwProto ∨ p.nwProto = 0) ∧
      p.nwSrc &&& createNwSrcMask w = 0 ∧ p.nwDst &&& createNwDstMask w = 0
  ports : Has w ofpfwDlType ∨ Has w ofpfwNwProto →
    (Has w ofpfwTpSrc ∨ p.tpSrc = 0) ∧ (Has w ofpfwTpDst ∨ p.tpDst = 0)

theorem agrees_wild (hw : Has w ofpfwDlType) :
    Agrees (setMatchFromPacket w p inPort) (p.exact inPort) ↔ Filled w p := by
  rw [setMatch_wild hw]
  constructor
  · intro h
    refine ⟨fun _ => ⟨h.nwTos.imp_right Eq.symm,h.nwProto.imp_right Eq.symm,?_,?_⟩,
      fun _ => ⟨h.tpSrc.imp_right Eq.symm,h.tpDst.imp_right Eq.symm⟩⟩
    · exact h.nwSrc.symm.trans UInt32.zero_and
    · exact h.nwDst.symm.trans UInt32.zero_and
  · intro h
    obtain ⟨htos,hproto,hsrc,hdst⟩ := h.network hw
    obtain ⟨hps,hpd⟩ := h.ports (.inl hw)
    exact ⟨filled_or _ _,filled_or _ _,filled_or _ _,filled_or _ _,filled_or _ _,.inl hw,
      UInt32.zero_and.trans hsrc.symm,UInt32.zero_and.trans hdst.symm,htos.imp_right Eq.symm,hproto.imp_right Eq.symm,
      hps.imp_right Eq.symm,hpd.imp_right Eq.symm⟩

theorem filledPort_or (proto : UInt8) (icmp tcp udp : UInt16) : Has w flag ∨ filledPort w flag proto icmp tcp udp =
    if proto = ipprotoIcmp then icmp else if proto = ipprotoTcp then tcp else if proto = ipprotoUdp then udp else 0 := by
  by_cases hw : Has w flag
  · exact .inl hw
  · simp only [filledPort,filled,hw,not_false_eq_true,if_true,or_true]

theorem ipv4_port {port icmp tcp udp : UInt16} (hport : port = p.portOf icmp tcp udp)
    (h : Has w ofpfwNwProto → Has w flag ∨ port = 0) :
    Has w flag ∨ filledPort w flag (filled w ofpfwNwProto 0 p.ipv4Protocol) icmp tcp udp = port := by
  by_cases hp : Has w ofpfwNwProto
  · have hz : filled w ofpfwNwProto 0 p.ipv4Protocol = 0 := if_neg (not_not.mpr hp)
    rw [hz]
    exact (h hp).imp_right Eq.symm
  · have hz : filled w ofpfwNwProto 0 p.ipv4Protocol = p.ipv4Protocol := if_pos hp
    rw [hz,hport]
    exact filledPort_or _ _ _ _

theorem agrees_ipv4 (hw : ¬ Has w ofpfwDlType) (ht : p.ethType = ethEthtypeIpv4) :
    Agrees (setMatchFromPacket w p inPort) (p.exact inPort) ↔ Filled w p := by
  rw [setMatch_ipv4 hw ht]
  constructor
  · intro h
    refine ⟨fun hd => absurd hd hw,fun hd => ?_⟩
    have hz : filled w ofpfwNwProto 0 p.ipv4Protocol = 0 := if_neg (not_not.mpr (hd.resolve_left hw))
    have hs := h.tpSrc
    have hd := h.tpDst
    simp only [hz] at hs hd
    exact ⟨hs.imp_right Eq.symm,hd.imp_right Eq.symm⟩
  · intro h
    have htos : (p.exact inPort).nwTos = validTos p.ipv4Tos := if_pos ht
    have hproto : (p.exact inPort).nwProto = p.ipv4Protocol := if_pos ht
    have hsrc : (p.exact inPort).nwSrc = p.ipv4Saddr := if_pos ht
    have hdst : (p.exact inPort).nwDst = p.ipv4Daddr := if_pos ht
    refine ⟨filled_or _ _,filled_or _ _,filled_or _ _,filled_or _ _,filled_or _ _,
      .inr (dlType_linked p inPort hw),?_,?_,?_,?_,?_,?_⟩
    · rw [hsrc]
      exact filledAddress_and _ _
    · rw [hdst]
      exact filledAddress_and _ _
    · rw [htos]
      exact filled_or _ _
    · rw [hproto]
      exact filled_or _ _
    · exact ipv4_port (if_pos ht) fun hp => (h.ports (.inr hp)).1
    · exact ipv4_port (if_pos ht) fun hp => (h.ports (.inr hp)).2

theorem filled_of_not_ipv4 (hw : ¬ Has w ofpfwDlType) (hi : p.ethType ≠ ethEthtypeIpv4) : Filled w p :=
  ⟨fun hd => absurd hd hw,fun _ => ⟨.inr (if_neg hi),.inr (if_neg hi)⟩⟩

theorem agrees_arp (hw : ¬ Has w ofpfwDlType) (ht : p.ethType = ethEthtypeArp) :
    Agrees (setMatchFromPacket w p inPort) (p.exact inPort) := by
  have hi : p.ethType ≠ ethEthtypeIpv4 := by
    rw [ht]
    decide
  have htos : (p.exact inPort).nwTos = 0 := if_neg hi
  have hproto : (p.exact inPort).nwProto = (p.arpArOp &&& arpOpMask).toUInt8 := (if_neg hi).trans (if_pos ht)
  have hsrc : (p.exact inPort).nwSrc = p.arpSpa := (if_neg hi).trans (if_pos ht)
  have hdst : (p.exact inPort).nwDst = p.arpTpa := (if_neg hi).trans (if_pos ht)
  have hps : (p.exact inPort).tpSrc = 0 := if_neg hi
  have hpd : (p.exact inPort).tpDst = 0 := if_neg hi
  rw [setMatch_arp hw ht]
  refine ⟨filled_or _ _,filled_or _ _,filled_or _ _,filled_or _ _,filled_or _ _,
    .inr (dlType_linked p inPort hw),?_,?_,.inr htos.symm,?_,.inr hps.symm,.inr hpd.symm⟩
  · rw [hsrc]
    exact filledAddress_and _ _
  · rw [hdst]
    exact filledAddress_and _ _
  · rw [hproto]
    exact filled_or _ _

theorem agrees_other (hw : ¬ Has w ofpfwDlType) (hi : p.ethType ≠ ethEthtypeIpv4) (ha : p.ethType ≠ ethEthtypeArp) :
    Agrees (setMatchFromPacket w p inPort) (p.exact inPort) := by
  have htos : (p.exact inPort).nwTos = 0 := if_neg hi
  have hproto : (p.exact inPort).nwProto = 0 := (if_neg hi).trans (if_neg ha)
  have hsrc : (p.exact inPort).nwSrc = 0 := (if_neg hi).trans (if_neg ha)
  have hdst : (p.exact inPort).nwDst = 0 := (if_neg hi).trans (if_neg ha)
  have hps : (p.exact inPort).tpSrc = 0 := if_neg hi
  have hpd : (p.exact inPort).tpDst = 0 := if_neg hi
  rw [setMatch_other hw hi ha]
  refine ⟨filled_or _ _,filled_or _ _,filled_or _ _,filled_or _ _,filled_or _ _,
    .inr (dlType_linked p inPort hw),?_,?_,.inr htos.symm,.inr hproto.symm,.inr hps.symm,.inr hpd.symm⟩
  · rw [hsrc]
    rfl
  · rw [hdst]
    rfl

theorem agrees_iff_filled : Agrees (setMatchFromPacket w p inPort) (p.exact inPort) ↔ Filled w p := by
  by_cases hw : Has w ofpfwDlType
  · exact agrees_wild hw
  · by_cases hi : p.ethType = ethEthtypeIpv4
    · exact agrees_ipv4 hw hi
    · refine iff_of_true ?_ (filled_of_not_ipv4 hw hi)
      by_cases ha : p.ethType = ethEthtypeArp
      · exact agrees_arp hw ha
      · exact agrees_other hw hi ha

def LearnedCovers (w : UInt32) (p : PacketInfo) (inPort : UInt16) : Prop :=
  compareMatch (setMatchFromPacket w p inPort) (setMatchFromPacket 0 p inPort) = true ∧
    compareMatch (normalizeMatch (setMatchFromPacket w p inPort)) (setMatchFromPacket 0 p inPort) = true

theorem normalize_idempotent_and_widening :
    (∀ m, normalizeMatch (normalizeMatch m) = normalizeMatch m) ∧
      ∀ m p inPort, compareMatch m (setMatchFromPacket 0 p inPort) = true →
        compareMatch (normalizeMatch m) (setMatchFromPacket 0 p inPort) = true := by
  refine ⟨normalizeMatch_idempotent,fun m p inPort h => ?_⟩
  rw [setMatch_exact,compareMatch_iff_agrees rfl] at h ⊢
  exact agrees_normalizeMatch exact_exact h

theorem learned_covers_iff : LearnedCovers w p inPort ↔ Filled w p := by
  rw [LearnedCovers,setMatch_exact,compareMatch_iff_agrees rfl,compareMatch_iff_agrees rfl,agrees_iff_filled]
  refine ⟨And.left,fun h => ⟨h,?_⟩⟩
  exact agrees_normalizeMatch exact_exact (agrees_iff_filled.mpr h)

-- A TCP segment from port 80 to port 8080, in an IPv4 datagram.
def learnedFrame : Bytes :=
  List.replicate 12 0 ++ [0x08,0x00] ++
    [0x45,0,0,40,0,0,0,0,64,6,0,0,10,0,0,1,10,0,0,2] ++
    [0,80,0x1f,0x90,0,0,0,0,0,0,0,0,0x50,0x02,0,0,0,0,0,0]

def learnedPacket : PacketInfo := (parsePacket learnedFrame 1).toOption.getD {}

theorem learned_flow_misses : Yields (fun n => parsePacket learnedFrame n) (.ok learnedPacket) ∧
    compareMatch (setMatchFromPacket ofpfwNwProto learnedPacket 1) (setMatchFromPacket 0 learnedPacket 1) = false ∧
    compareMatch (normalizeMatch (setMatchFromPacket ofpfwNwProto learnedPacket 1))
      (setMatchFromPacket 0 learnedPacket 1) = false := by
  refine ⟨⟨by simp,1,?_⟩,by decide +kernel,by decide +kernel⟩
  decide +kernel

end Trema.Packet
