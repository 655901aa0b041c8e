import Trema.OpenFlow.Protocol

namespace Trema.Packet

open Library
open OpenFlow (Mac)

def ethDix : UInt32 := 0x1
def eth8023Snap : UInt32 := 0x8
def eth8021q : UInt32 := 0x10
def nwIpv4 : UInt32 := 0x100
def nwIcmpv4 : UInt32 := 0x200
def nwIpv6 : UInt32 := 0x400
def nwArp : UInt32 := 0x1000
def nwIgmp : UInt32 := 0x2000
def nwLldp : UInt32 := 0x4000
def nwRarp : UInt32 := 0x8000
def tpTcp : UInt32 := 0x10000
def tpUdp : UInt32 := 0x20000
def tpEtherip : UInt32 := 0x40000

def ethMtu : UInt16 := 1500
def ethEthtypeIpv4 : UInt16 := 0x0800
def ethEthtypeArp : UInt16 := 0x0806
def ethEthtypeRarp : UInt16 := 0x8035
def ethEthtypeTpid : UInt16 := 0x8100
def ethEthtypeIpv6 : UInt16 := 0x86dd
def ethEthtypeLldp : UInt16 := 0x88cc

def ipprotoIcmp : UInt8 := 1
def ipprotoIgmp : UInt8 := 2
def ipprotoTcp : UInt8 := 6
def ipprotoUdp : UInt8 := 17
def ipprotoEtherip : UInt8 := 97

def ipOffmask : UInt16 := 0x1fff

def icmpTypeEchorep : UInt8 := 0
def icmpTypeRedirect : UInt8 := 5
def icmpTypeEchoreq : UInt8 := 8

def etheripVersion : UInt16 := 0x3000

-- A pointer into the frame is an offset, `none` the null pointer.
structure PacketInfo where
  format : UInt32 := 0
  ethMacda : Mac := ⟨0,0,0,0,0,0⟩
  ethMacsa : Mac := ⟨0,0,0,0,0,0⟩
  ethType : UInt16 := 0
  vlanTci : UInt16 := 0
  vlanTpid : UInt16 := 0
  vlanPrio : UInt8 := 0
  vlanCfi : UInt8 := 0
  vlanVid : UInt16 := 0
  snapLlc : Bytes := [0,0,0]
  snapOui : Bytes := [0,0,0]
  snapType : UInt16 := 0
  arpArHrd : UInt16 := 0
  arpArPro : UInt16 := 0
  arpArHln : UInt8 := 0
  arpArPln : UInt8 := 0
  arpArOp : UInt16 := 0
  arpSha : Mac := ⟨0,0,0,0,0,0⟩
  arpSpa : UInt32 := 0
  arpTha : Mac := ⟨0,0,0,0,0,0⟩
  arpTpa : UInt32 := 0
  ipv4Version : UInt8 := 0
  ipv4Ihl : UInt8 := 0
  ipv4Tos : UInt8 := 0
  ipv4TotLen : UInt16 := 0
  ipv4Id : UInt16 := 0
  ipv4FragOff : UInt16 := 0
  ipv4Ttl : UInt8 := 0
  ipv4Protocol : UInt8 := 0
  ipv4Checksum : UInt16 := 0
  ipv4Saddr : UInt32 := 0
  ipv4Daddr : UInt32 := 0
  ipv6Version : UInt8 := 0
  ipv6Tc : UInt8 := 0
  ipv6Flowlabel : UInt32 := 0
  ipv6Plen : UInt16 := 0
  ipv6Nexthdr : UInt16 := 0
  ipv6Hoplimit : UInt16 := 0
  ipv6Saddr : Bytes := List.replicate 16 0
  ipv6Daddr : Bytes := List.replicate 16 0
  icmpv4Type : UInt8 := 0
  icmpv4Code : UInt8 := 0
  icmpv4Checksum : UInt16 := 0
  icmpv4Id : UInt16 := 0
  icmpv4Seq : UInt16 := 0
  icmpv4Gateway : UInt32 := 0
  igmpType : UInt8 := 0
  igmpCode : UInt8 := 0
  igmpChecksum : UInt16 := 0
  igmpGroup : UInt32 := 0
  tcpSrcPort : UInt16 := 0
  tcpDstPort : UInt16 := 0
  tcpSeqNo : UInt32 := 0
  tcpAckNo : UInt32 := 0
  tcpOffset : UInt8 := 0
  tcpFlags : UInt8 := 0
  tcpWindow : UInt16 := 0
  tcpChecksum : UInt16 := 0
  tcpUrgent : UInt16 := 0
  udpSrcPort : UInt16 := 0
  udpDstPort : UInt16 := 0
  udpLen : UInt16 := 0
  udpChecksum : UInt16 := 0
  etheripVersion : UInt16 := 0
  etheripOffset : UInt16 := 0
  l2Header : Option Nat := none
  l2Payload : Option Nat := none
  l2PayloadLength : Nat := 0
  l3Header : Option Nat := none
  l3Payload : Option Nat := none
  l3PayloadLength : Nat := 0
  l4Header : Option Nat := none
  l4Payload : Option Nat := none
  l4PayloadLength : Nat := 0
deriving DecidableEq, Repr

namespace PacketInfo

variable (p : PacketInfo)

def ifPacketType (type : UInt32) : Bool := p.format &&& type == type

def packetTypeEthVtag : Bool := p.ifPacketType eth8021q

end PacketInfo

section Formats

variable {a b c : UInt32}

def Has (format bit : UInt32) : Prop := format &&& bit ≠ 0

instance : Decidable (Has a b) := inferInstanceAs (Decidable (_ ≠ _))

theorem has_or : Has (a ||| b) c ↔ Has a c ∨ Has b c := by
  have hand : (a ||| b) &&& c = a &&& c ||| b &&& c := by
    apply UInt32.toBitVec_inj.mp
    ext i
    simp [Bool.and_or_distrib_right]
  rw [Has,hand,ne_eq,UInt32.or_eq_zero_iff,not_and_or]
  rfl

theorem not_has_zero : ¬ Has 0 c := by
  simp [Has]

end Formats

end Trema.Packet
