import Trema.Packet.PacketInfo
import Trema.Table.Match

namespace Trema.Packet

open Library
open OpenFlow
open Table

def ofpfwNwSrcAll : UInt32 := 0x2000
def ofpfwNwDstAll : UInt32 := 0x80000

-- OFPFW_ICMP_TYPE and OFPFW_ICMP_CODE; icmp_type and icmp_code are tp_src and tp_dst.
def ofpfwIcmpType : UInt32 := ofpfwTpSrc
def ofpfwIcmpCode : UInt32 := ofpfwTpDst

def arpOpMask : UInt16 := 0x00ff
def icmpTypeMask : UInt16 := 0x00ff
def icmpCodeMask : UInt16 := 0x00ff

def zeroMac : Mac := ⟨0,0,0,0,0,0⟩

section Filling

variable (w : UInt32) (p : PacketInfo)

def filled {α : Type} (flag : UInt32) (old new : α) : α := if ¬ Has w flag then new else old

def validVid (vid : UInt16) : UInt16 := if vid &&& ~~~vlanVidMask ≠ 0 then vid &&& vlanVidMask else vid

def validPcp (pcp : UInt8) : UInt8 := if pcp &&& ~~~vlanPcpMask ≠ 0 then pcp &&& vlanPcpMask else pcp

def validTos (tos : UInt8) : UInt8 := if tos &&& ~~~nwTosMask ≠ 0 then tos &&& nwTosMask else tos

def filledAddress (mask shift : UInt32) (old address : UInt32) : UInt32 :=
  let length := (w &&& mask) >>> shift
  if length < 32 then address &&& (0xffffffff <<< length) else old

def setLinkFields (inPort : UInt16) (m : OfpMatch) : OfpMatch :=
  { m with
    wildcards := w
    inPort := filled w ofpfwInPort m.inPort inPort
    dlSrc := filled w ofpfwDlSrc m.dlSrc p.ethMacsa
    dlDst := filled w ofpfwDlDst m.dlDst p.ethMacda
    dlVlan := filled w ofpfwDlVlan m.dlVlan (if p.packetTypeEthVtag then validVid p.vlanVid else 0xffff)
    dlVlanPcp := filled w ofpfwDlVlanPcp m.dlVlanPcp
      (if p.packetTypeEthVtag then validPcp p.vlanPrio else m.dlVlanPcp)
    dlType := filled w ofpfwDlType m.dlType p.ethType }

def setPorts (m : OfpMatch) : OfpMatch :=
  if m.nwProto = ipprotoIcmp then
    { m with
      tpSrc := filled w ofpfwIcmpType m.tpSrc p.icmpv4Type.toUInt16
      tpDst := filled w ofpfwIcmpCode m.tpDst p.icmpv4Code.toUInt16 }
  else if m.nwProto = ipprotoTcp then
    { m with
      tpSrc := filled w ofpfwTpSrc m.tpSrc p.tcpSrcPort
      tpDst := filled w ofpfwTpDst m.tpDst p.tcpDstPort }
  else if m.nwProto = ipprotoUdp then
    { m with
      tpSrc := filled w ofpfwTpSrc m.tpSrc p.udpSrcPort
      tpDst := filled w ofpfwTpDst m.tpDst p.udpDstPort }
  else m

def setIpv4Fields (m : OfpMatch) : OfpMatch :=
  if m.dlType = ethEthtypeIpv4 then
    setPorts w p { m with
      nwTos := filled w ofpfwNwTos m.nwTos (validTos p.ipv4Tos)
      nwProto := filled w ofpfwNwProto m.nwProto p.ipv4Protocol
      nwSrc := filledAddress w ofpfwNwSrcMask ofpfwNwSrcShift m.nwSrc p.ipv4Saddr
      nwDst := filledAddress w ofpfwNwDstMask ofpfwNwDstShift m.nwDst p.ipv4Daddr }
  else m

def setArpFields (m : OfpMatch) : OfpMatch :=
  if m.dlType = ethEthtypeArp then
    { m with
      nwProto := filled w ofpfwNwProto m.nwProto (p.arpArOp &&& arpOpMask).toUInt8
      nwSrc := filledAddress w ofpfwNwSrcMask ofpfwNwSrcShift m.nwSrc p.arpSpa
      nwDst := filledAddress w ofpfwNwDstMask ofpfwNwDstShift m.nwDst p.arpTpa }
  else m

def zeroMatch : OfpMatch := ⟨0,0,zeroMac,zeroMac,0,0,0,0,0,0,0,0,0,0,0⟩

def setMatchFromPacket (inPort : UInt16) : OfpMatch :=
  setArpFields w p (setIpv4Fields w p (setLinkFields w p inPort zeroMatch))

end Filling

section Normalization

variable (m : OfpMatch)

def wildcard (flag : UInt32) : OfpMatch := { m with wildcards := m.wildcards ||| flag }

def normalizeInPort : OfpMatch := if Has m.wildcards ofpfwInPort then { m with inPort := 0 } else m

def normalizeVlan : OfpMatch :=
  if Has m.wildcards ofpfwDlVlan then { m with dlVlan := 0 }
  else if m.dlVlan = 0xffff then { wildcard m ofpfwDlVlanPcp with dlVlanPcp := 0 }
  else { m with dlVlan := m.dlVlan &&& vlanVidMask }

def normalizeDlSrc : OfpMatch := if Has m.wildcards ofpfwDlSrc then { m with dlSrc := zeroMac } else m

def normalizeDlDst : OfpMatch := if Has m.wildcards ofpfwDlDst then { m with dlDst := zeroMac } else m

def clearPorts : OfpMatch :=
  { wildcard (wildcard m ofpfwTpSrc) ofpfwTpDst with tpSrc := 0, tpDst := 0 }

def clearNetwork : OfpMatch :=
  let m := wildcard (wildcard (wildcard (wildcard m ofpfwNwTos) ofpfwNwProto) ofpfwNwSrcMask) ofpfwNwDstMask
  clearPorts { m with nwTos := 0, nwProto := 0, nwSrc := 0, nwDst := 0 }

def normalizeDlType : OfpMatch :=
  if Has m.wildcards ofpfwDlType then clearNetwork { m with dlType := 0 }
  else if m.dlType = ethEthtypeArp then clearPorts { wildcard m ofpfwNwTos with nwTos := 0 }
  else if m.dlType ≠ ethEthtypeIpv4 then clearNetwork m
  else m

def normalizeNwProto : OfpMatch :=
  if Has m.wildcards ofpfwNwProto then
    if m.dlType ≠ ethEthtypeIpv4 then clearPorts { m with nwProto := 0 } else { m with nwProto := 0 }
  else
    let m := if m.dlType = ethEthtypeArp then { m with nwProto := m.nwProto &&& arpOpMask.toUInt8 } else m
    if m.dlType = ethEthtypeIpv4 ∧ m.nwProto ≠ ipprotoTcp ∧ m.nwProto ≠ ipprotoUdp ∧ m.nwProto ≠ ipprotoIcmp then
      clearPorts m
    else m

def normalizeNwSrc : OfpMatch :=
  let length := (m.wildcards &&& ofpfwNwSrcMask) >>> ofpfwNwSrcShift
  if 32 ≤ length then
    { m with wildcards := m.wildcards &&& ~~~ofpfwNwSrcMask ||| ofpfwNwSrcAll, nwSrc := 0 }
  else { m with nwSrc := m.nwSrc &&& (0xffffffff <<< length) }

def normalizeNwDst : OfpMatch :=
  let length := (m.wildcards &&& ofpfwNwDstMask) >>> ofpfwNwDstShift
  if 32 ≤ length then
    { m with wildcards := m.wildcards &&& ~~~ofpfwNwDstMask ||| ofpfwNwDstAll, nwDst := 0 }
  else { m with nwDst := m.nwDst &&& (0xffffffff <<< length) }

def normalizeTpSrc : OfpMatch :=
  if Has m.wildcards ofpfwTpSrc then { m with tpSrc := 0 }
  else if m.nwProto = ipprotoIcmp then { m with tpSrc := m.tpSrc &&& icmpTypeMask }
  else m

def normalizeTpDst : OfpMatch :=
  if Has m.wildcards ofpfwTpDst then { m with tpDst := 0 }
  else if m.nwProto = ipprotoIcmp then { m with tpDst := m.tpDst &&& icmpCodeMask }
  else m

def normalizeDlVlanPcp : OfpMatch :=
  if Has m.wildcards ofpfwDlVlanPcp then { m with dlVlanPcp := 0 }
  else { m with dlVlanPcp := m.dlVlanPcp &&& vlanPcpMask }

def normalizeNwTos : OfpMatch :=
  if Has m.wildcards ofpfwNwTos then { m with nwTos := 0 }
  else { m with nwTos := m.nwTos &&& nwTosMask }

def normalizeLink : OfpMatch :=
  let m := { m with pad1 := 0, pad2 := 0, wildcards := m.wildcards &&& ofpfwAll }
  normalizeDlDst (normalizeDlSrc (normalizeVlan (normalizeInPort m)))

def normalizeNetwork : OfpMatch := normalizeNwDst (normalizeNwSrc (normalizeNwProto (normalizeDlType m)))

def normalizeTransport : OfpMatch := normalizeTpDst (normalizeTpSrc m)

def normalizeMatch : OfpMatch :=
  normalizeNwTos (normalizeDlVlanPcp (normalizeTransport (normalizeNetwork (normalizeLink m))))

end Normalization

end Trema.Packet
