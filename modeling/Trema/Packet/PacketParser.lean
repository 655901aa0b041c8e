import Trema.OpenFlow.ByteOrder
import Trema.Packet.PacketInfo

namespace Trema.Packet

open Library
open OpenFlow (Exec Mac abortIf subSize)

variable (frame : Bytes)

-- REMAINED_BUFFER_LENGTH, a difference of size_t.
def remainedBufferLength (ptr : Nat) : Nat := subSize frame.length ptr

def macAt (off : Nat) : Exec Mac := within frame (off + 6) (Mac.ofBytes frame off)

-- A pointer that an assertion has checked not to be null.
def header : Option Nat → Exec Nat
  | some ptr => pure ptr
  | none => .error .aborted

def sizeofEtherHeader : Nat := 14
def sizeofVlantagHeader : Nat := 4
def sizeofSnapHeader : Nat := 8
def sizeofArpHeader : Nat := 28
def sizeofIpv4Header : Nat := 20
def sizeofIpv6Header : Nat := 40
def sizeofIcmpHeader : Nat := 8
def sizeofUdpHeader : Nat := 8
def sizeofTcpHeader : Nat := 20
def sizeofIgmpHeader : Nat := 8
def sizeofEtheripHeader : Nat := 2

section Ether

def setL2Payload (ptr : Nat) (p : PacketInfo) : PacketInfo :=
  if remainedBufferLength frame ptr > 0 then
    { p with l2Payload := some ptr, l2PayloadLength := remainedBufferLength frame ptr }
  else p

def parseSnap (ptr : Nat) (p : PacketInfo) : Exec PacketInfo :=
  if p.ethType ≤ ethMtu then
    if remainedBufferLength frame ptr < sizeofSnapHeader then pure p
    else do
      let llc ← load frame ptr 3
      let oui ← load frame (ptr + 3) 3
      let type ← net16 frame (ptr + 6)
      let p := { p with
        snapLlc := llc
        snapOui := oui
        snapType := type
        format := p.format ||| eth8023Snap }
      pure (setL2Payload frame (ptr + sizeofSnapHeader) p)
  else pure (setL2Payload frame ptr { p with format := p.format ||| ethDix })

-- The tags inside the first one.
def skipNestedVlan : Nat → Nat → PacketInfo → Exec PacketInfo
  | 0, _, _ => .error .outOfFuel
  | fuel + 1, ptr, p =>
    if p.ethType = ethEthtypeTpid then
      if remainedBufferLength frame ptr < sizeofVlantagHeader then pure p
      else do
        let type ← net16 frame (ptr + 2)
        skipNestedVlan fuel (ptr + sizeofVlantagHeader) { p with ethType := type }
    else parseSnap frame ptr p

def parseVlan (fuel ptr : Nat) (p : PacketInfo) : Exec PacketInfo :=
  if p.ethType = ethEthtypeTpid then
    if remainedBufferLength frame ptr < sizeofVlantagHeader then pure p
    else do
      let tci ← net16 frame ptr
      let type ← net16 frame (ptr + 2)
      let p := { p with
        vlanTci := tci
        vlanTpid := p.ethType
        vlanPrio := ((tci >>> 13) &&& 7).toUInt8
        vlanCfi := ((tci >>> 12) &&& 1).toUInt8
        vlanVid := tci &&& 0x0fff
        ethType := type
        format := p.format ||| eth8021q }
      skipNestedVlan frame fuel (ptr + sizeofVlantagHeader) p
  else skipNestedVlan frame fuel ptr p

def parseEther (fuel : Nat) (p : PacketInfo) : Exec PacketInfo := do
  let ptr ← header p.l2Header
  if remainedBufferLength frame ptr < sizeofEtherHeader then pure p
  else do
    let macsa ← macAt frame (ptr + 6)
    let macda ← macAt frame ptr
    let type ← net16 frame (ptr + 12)
    parseVlan frame fuel (ptr + sizeofEtherHeader)
      { p with ethMacsa := macsa, ethMacda := macda, ethType := type }

end Ether

section Network

def parseArp (format : UInt32) (p : PacketInfo) : Exec PacketInfo := do
  let ptr ← header p.l3Header
  if remainedBufferLength frame ptr < sizeofArpHeader then pure p
  else do
    let hrd ← net16 frame ptr
    let pro ← net16 frame (ptr + 2)
    let hln ← byteAt frame (ptr + 4)
    let pln ← byteAt frame (ptr + 5)
    let op ← net16 frame (ptr + 6)
    let sha ← macAt frame (ptr + 8)
    let spa ← net32 frame (ptr + 14)
    let tha ← macAt frame (ptr + 18)
    let tpa ← net32 frame (ptr + 24)
    pure { p with
      arpArHrd := hrd
      arpArPro := pro
      arpArHln := hln
      arpArPln := pln
      arpArOp := op
      arpSha := sha
      arpSpa := spa
      arpTha := tha
      arpTpa := tpa
      format := p.format ||| format }

def setL3Payload (ptr : Nat) (p : PacketInfo) : PacketInfo :=
  if remainedBufferLength frame ptr > 0 then
    { p with l3Payload := some ptr, l3PayloadLength := remainedBufferLength frame ptr }
  else p

def parseIpv4Fields (ptr : Nat) (p : PacketInfo) : Exec PacketInfo := do
  let first ← byteAt frame ptr
  let tos ← byteAt frame (ptr + 1)
  let totLen ← net16 frame (ptr + 2)
  let id ← net16 frame (ptr + 4)
  let fragOff ← net16 frame (ptr + 6)
  let ttl ← byteAt frame (ptr + 8)
  let protocol ← byteAt frame (ptr + 9)
  let csum ← net16 frame (ptr + 10)
  let saddr ← net32 frame (ptr + 12)
  let daddr ← net32 frame (ptr + 16)
  pure { p with
    ipv4Version := first >>> 4
    ipv4Ihl := first &&& 0xf
    ipv4Tos := tos
    ipv4TotLen := totLen
    ipv4Id := id
    ipv4FragOff := fragOff
    ipv4Ttl := ttl
    ipv4Protocol := protocol
    ipv4Checksum := csum
    ipv4Saddr := saddr
    ipv4Daddr := daddr }

def parseIpv4 (p : PacketInfo) : Exec PacketInfo := do
  let ptr ← header p.l3Header
  let length := remainedBufferLength frame ptr
  if length < sizeofIpv4Header then pure p
  else do
    let first ← byteAt frame ptr
    let ihl := first &&& 0xf
    if ihl < 5 then pure p
    else if length < ihl.toNat * 4 then pure p
    else do
      let p ← parseIpv4Fields frame ptr p
      let p := setL3Payload frame (ptr + p.ipv4Ihl.toNat * 4) p
      pure { p with format := p.format ||| nwIpv4 }

def parseIpv6 (p : PacketInfo) : Exec PacketInfo := do
  let ptr ← header p.l3Header
  if remainedBufferLength frame ptr < sizeofIpv6Header then pure p
  else do
    let hdrctl ← net32 frame ptr
    let plen ← net16 frame (ptr + 4)
    let nexthdr ← byteAt frame (ptr + 6)
    let hoplimit ← byteAt frame (ptr + 7)
    let saddr ← load frame (ptr + 8) 16
    let daddr ← load frame (ptr + 24) 16
    pure { p with
      ipv6Version := (hdrctl >>> 28).toUInt8
      ipv6Tc := ((hdrctl >>> 20) &&& 0xff).toUInt8
      ipv6Flowlabel := hdrctl &&& 0xfffff
      ipv6Plen := plen
      ipv6Nexthdr := nexthdr.toUInt16
      ipv6Hoplimit := hoplimit.toUInt16
      ipv6Saddr := saddr
      ipv6Daddr := daddr
      format := p.format ||| nwIpv6 }

def parseLldp (p : PacketInfo) : Exec PacketInfo := do
  let ptr ← header p.l3Header
  let p := setL3Payload frame ptr p
  pure { p with format := p.format ||| nwLldp }

end Network

section Transport

def setL4Payload (ptr : Nat) (p : PacketInfo) : PacketInfo :=
  if remainedBufferLength frame ptr > 0 then
    { p with l4Payload := some ptr, l4PayloadLength := remainedBufferLength frame ptr }
  else p

def parseIcmpData (ptr : Nat) (type : UInt8) (p : PacketInfo) : Exec PacketInfo :=
  if type = icmpTypeEchorep ∨ type = icmpTypeEchoreq then do
    let id ← net16 frame (ptr + 4)
    let seq ← net16 frame (ptr + 6)
    pure { p with icmpv4Id := id, icmpv4Seq := seq }
  else if type = icmpTypeRedirect then do
    let gateway ← net32 frame (ptr + 4)
    pure { p with icmpv4Gateway := gateway }
  else pure p

def parseIcmp (p : PacketInfo) : Exec PacketInfo := do
  let ptr ← header p.l4Header
  if remainedBufferLength frame ptr < sizeofIcmpHeader then pure p
  else do
    let type ← byteAt frame ptr
    let code ← byteAt frame (ptr + 1)
    let csum ← net16 frame (ptr + 2)
    let p ← parseIcmpData frame ptr type
      { p with icmpv4Type := type, icmpv4Code := code, icmpv4Checksum := csum }
    let p := setL4Payload frame (ptr + sizeofIcmpHeader) p
    pure { p with format := p.format ||| nwIcmpv4 }

def parseUdp (p : PacketInfo) : Exec PacketInfo := do
  let ptr ← header p.l4Header
  if remainedBufferLength frame ptr < sizeofUdpHeader then pure p
  else do
    let srcPort ← net16 frame ptr
    let dstPort ← net16 frame (ptr + 2)
    let len ← net16 frame (ptr + 4)
    let csum ← net16 frame (ptr + 6)
    let p := setL4Payload frame (ptr + sizeofUdpHeader) { p with
      udpSrcPort := srcPort
      udpDstPort := dstPort
      udpLen := len
      udpChecksum := csum }
    pure { p with format := p.format ||| tpUdp }

def parseTcpFields (ptr : Nat) (p : PacketInfo) : Exec PacketInfo := do
  let srcPort ← net16 frame ptr
  let dstPort ← net16 frame (ptr + 2)
  let seqNo ← net32 frame (ptr + 4)
  let ackNo ← net32 frame (ptr + 8)
  let offset ← byteAt frame (ptr + 12)
  let flags ← byteAt frame (ptr + 13)
  let window ← net16 frame (ptr + 14)
  let csum ← net16 frame (ptr + 16)
  let urgent ← net16 frame (ptr + 18)
  pure { p with
    tcpSrcPort := srcPort
    tcpDstPort := dstPort
    tcpSeqNo := seqNo
    tcpAckNo := ackNo
    tcpOffset := offset >>> 4
    tcpFlags := flags
    tcpWindow := window
    tcpChecksum := csum
    tcpUrgent := urgent }

def parseTcp (p : PacketInfo) : Exec PacketInfo := do
  let ptr ← header p.l4Header
  let length := remainedBufferLength frame ptr
  if length < sizeofTcpHeader then pure p
  else do
    let first ← byteAt frame (ptr + 12)
    let offset := first >>> 4
    if offset < 5 then pure p
    else if length < offset.toNat * 4 then pure p
    else do
      let p ← parseTcpFields frame ptr p
      let p := setL4Payload frame (ptr + p.tcpOffset.toNat * 4) p
      pure { p with format := p.format ||| tpTcp }

def parseIgmp (p : PacketInfo) : Exec PacketInfo := do
  let ptr ← header p.l4Header
  if remainedBufferLength frame ptr < sizeofIgmpHeader then pure p
  else do
    let type ← byteAt frame ptr
    let code ← byteAt frame (ptr + 1)
    let csum ← net16 frame (ptr + 2)
    let group ← net32 frame (ptr + 4)
    pure { p with
      igmpType := type
      igmpCode := code
      igmpChecksum := csum
      igmpGroup := group
      format := p.format ||| nwIgmp }

def setInnerFrame (ptr : Nat) (p : PacketInfo) : PacketInfo :=
  if remainedBufferLength frame ptr > 0 then
    { p with
      l4Payload := some ptr
      l4PayloadLength := remainedBufferLength frame ptr
      etheripOffset := UInt16.ofNat ptr }
  else p

def parseEtherip (p : PacketInfo) : Exec PacketInfo := do
  let ptr ← header p.l4Header
  if remainedBufferLength frame ptr < sizeofEtheripHeader then pure p
  else do
    let version ← net16 frame ptr
    let p := setInnerFrame frame (ptr + sizeofEtheripHeader)
      { p with etheripVersion := version, etheripOffset := 0 }
    pure { p with format := p.format ||| tpEtherip }

end Transport

section Packets

-- `none` is a type that ends the parsing.
def parseL3 (p : PacketInfo) : Exec (Option PacketInfo) := do
  let framed := { p with l3Header := p.l2Payload }
  if p.ethType = ethEthtypeArp then some <$> parseArp frame nwArp framed
  else if p.ethType = ethEthtypeRarp then some <$> parseArp frame nwRarp framed
  else if p.ethType = ethEthtypeIpv4 then some <$> parseIpv4 frame framed
  else if p.ethType = ethEthtypeIpv6 then some <$> parseIpv6 frame framed
  else if p.ethType = ethEthtypeLldp then some <$> parseLldp frame framed
  else pure none

def parseL4 (p : PacketInfo) : Exec PacketInfo :=
  let framed := { p with l4Header := p.l3Payload }
  if p.ipv4Protocol = ipprotoIcmp then parseIcmp frame framed
  else if p.ipv4Protocol = ipprotoTcp then parseTcp frame framed
  else if p.ipv4Protocol = ipprotoUdp then parseUdp frame framed
  else if p.ipv4Protocol = ipprotoIgmp then parseIgmp frame framed
  else if p.ipv4Protocol = ipprotoEtherip then parseEtherip frame framed
  else pure p

-- The buffer's data is not null.
def parsePacket (fuel : Nat) : Exec PacketInfo := do
  let p ← parseEther frame fuel { l2Header := some 0 }
  let parsed ← parseL3 frame p
  match parsed with
  | none => pure p
  | some p =>
    if p.format &&& nwIpv4 = 0 then pure p
    else if p.ipv4FragOff &&& ipOffmask ≠ 0 then pure p
    else parseL4 frame p

end Packets

end Trema.Packet
