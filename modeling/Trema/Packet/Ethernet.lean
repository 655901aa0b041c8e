import Trema.Packet.PacketParser
import Trema.Library.Fuel

namespace Trema.Packet

open Library
open OpenFlow (Exec Mac subSize subSize_of_le)

-- The frame has `k` VLAN tags, and `t` is the type after them.
structure Typed (frame : Bytes) (k : Nat) (t : UInt16) : Prop where
  fits : 14 + 4 * k ≤ frame.length
  type : be16 frame (12 + 4 * k) = t
  tags : ∀ j < k, be16 frame (12 + 4 * j) = ethEthtypeTpid

def layerStart (k : Nat) : Nat := 14 + 4 * k

variable {frame : Bytes} {k : Nat} {t : UInt16} {p : PacketInfo}

theorem Typed.unique (h : Typed frame k t) (ht : t ≠ ethEthtypeTpid) {k' : Nat} {t' : UInt16}
    (h' : Typed frame k' t') (ht' : t' ≠ ethEthtypeTpid) : k = k' ∧ t = t' := by
  rcases Nat.lt_trichotomy k k' with hlt | heq | hgt
  · exact absurd (h.type.symm.trans (h'.tags k hlt)) ht
  · subst heq
    exact ⟨rfl,h.type.symm.trans h'.type⟩
  · exact absurd (h'.type.symm.trans (h.tags k' hgt)) ht'

theorem Typed.next (h : Typed frame k ethEthtypeTpid) (hfits : layerStart k + 4 ≤ frame.length) :
    Typed frame (k + 1) (be16 frame (layerStart k + 2)) := by
  rw [layerStart] at *
  refine ⟨by omega,congrArg (be16 frame) (by omega),fun j hj => ?_⟩
  rcases Nat.lt_succ_iff_lt_or_eq.mp hj with hj | rfl
  · exact h.tags j hj
  · exact h.type

-- The frame ends inside the tag that follows.
theorem Typed.last (h : Typed frame k ethEthtypeTpid) (hshort : frame.length < layerStart k + 4) {k' : Nat}
    {t' : UInt16} (h' : Typed frame k' t') : t' = ethEthtypeTpid := by
  rcases Nat.lt_trichotomy k' k with hlt | heq | hgt
  · exact h'.type.symm.trans (h.tags k' hlt)
  · subst heq
    exact h'.type.symm.trans h.type
  · have hfits := h'.fits
    rw [layerStart] at hshort
    omega

theorem remained_eq {ptr : Nat} (h : ptr ≤ frame.length) :
    remainedBufferLength frame ptr = frame.length - ptr := subSize_of_le h

section Formats

def ihlAt (frame : Bytes) (h : Nat) : UInt8 := hostByte frame h &&& 0xf

def tcpOffsetAt (frame : Bytes) (h : Nat) : UInt8 := hostByte frame (h + 12) >>> 4

-- The header lies in the frame, and the type field of the layer around it names it.
structure Ipv4At (frame : Bytes) (h : Nat) : Prop where
  named : ∃ k, h = layerStart k ∧ Typed frame k ethEthtypeIpv4
  fixed : h + 20 ≤ frame.length
  ihl : 5 ≤ ihlAt frame h
  fits : h + (ihlAt frame h).toNat * 4 ≤ frame.length

-- The transport header of a datagram that is not a fragment.
structure TransportAt (frame : Bytes) (protocol : UInt8) (h : Nat) : Prop where
  named : ∃ n, Ipv4At frame n ∧ be16 frame (n + 6) &&& ipOffmask = 0 ∧ hostByte frame (n + 9) = protocol ∧
    h = n + (ihlAt frame n).toNat * 4

inductive Contains (frame : Bytes) : UInt32 → Prop
  | vtag : be16 frame 12 = ethEthtypeTpid → 18 ≤ frame.length → Contains frame eth8021q
  | dix {k : Nat} {t : UInt16} : Typed frame k t → t ≠ ethEthtypeTpid → ethMtu < t → Contains frame ethDix
  | snap {k : Nat} {t : UInt16} : Typed frame k t → t ≤ ethMtu → layerStart k + 8 ≤ frame.length →
      Contains frame eth8023Snap
  | arp {k : Nat} : Typed frame k ethEthtypeArp → layerStart k + 28 ≤ frame.length → Contains frame nwArp
  | rarp {k : Nat} : Typed frame k ethEthtypeRarp → layerStart k + 28 ≤ frame.length → Contains frame nwRarp
  | ipv4 {h : Nat} : Ipv4At frame h → Contains frame nwIpv4
  | ipv6 {k : Nat} : Typed frame k ethEthtypeIpv6 → layerStart k + 40 ≤ frame.length → Contains frame nwIpv6
  | lldp {k : Nat} : Typed frame k ethEthtypeLldp → layerStart k < frame.length → Contains frame nwLldp
  | icmp {h : Nat} : TransportAt frame ipprotoIcmp h → h + 8 ≤ frame.length → Contains frame nwIcmpv4
  | tcp {h : Nat} : TransportAt frame ipprotoTcp h → h + 20 ≤ frame.length →
      5 ≤ tcpOffsetAt frame h → h + (tcpOffsetAt frame h).toNat * 4 ≤ frame.length → Contains frame tpTcp
  | udp {h : Nat} : TransportAt frame ipprotoUdp h → h + 8 ≤ frame.length → Contains frame tpUdp
  | igmp {h : Nat} : TransportAt frame ipprotoIgmp h → h + 8 ≤ frame.length → Contains frame nwIgmp
  | etherip {h : Nat} : TransportAt frame ipprotoEtherip h → h + 2 ≤ frame.length → Contains frame tpEtherip

def union : List UInt32 → UInt32
  | [] => 0
  | bit :: bits => bit ||| union bits

-- The format says nothing that the frame does not hold.
def Formatted (frame : Bytes) (format : UInt32) : Prop :=
  ∃ bits, format = union bits ∧ ∀ bit ∈ bits, Contains frame bit

theorem formatted_zero : Formatted frame 0 := ⟨[],rfl,by simp⟩

theorem Formatted.or {format bit : UInt32} (h : Formatted frame format) (hbit : Contains frame bit) :
    Formatted frame (format ||| bit) := by
  obtain ⟨bits,rfl,hbits⟩ := h
  exact ⟨bit :: bits,UInt32.or_comm _ _,List.forall_mem_cons.mpr ⟨hbit,hbits⟩⟩

def formatBits : List UInt32 :=
  [ethDix,0x2,0x4,eth8023Snap,eth8021q,nwIpv4,nwIcmpv4,nwIpv6,0x800,nwArp,nwIgmp,nwLldp,nwRarp,tpTcp,tpUdp,
    tpEtherip]

theorem has_union {bits : List UInt32} {c : UInt32} (h : Has (union bits) c) : ∃ b ∈ bits, Has b c := by
  induction bits with
  | nil => exact absurd h not_has_zero
  | cons b bits ih =>
    rcases has_or.mp h with hb | hrest
    · exact ⟨b,List.mem_cons_self,hb⟩
    · obtain ⟨b',hb',hhas⟩ := ih hrest
      exact ⟨b',List.mem_cons_of_mem _ hb',hhas⟩

theorem Contains.mem_formatBits {bit : UInt32} (h : Contains frame bit) : bit ∈ formatBits := by
  cases h <;> decide

theorem formatBits_apart : ∀ a ∈ formatBits, ∀ b ∈ formatBits, Has a b → a = b := by
  have hall : (formatBits.all fun a => formatBits.all fun b => decide (Has a b → a = b)) = true := by decide +kernel
  intro a ha b hb
  exact of_decide_eq_true (List.all_eq_true.mp (List.all_eq_true.mp hall a ha) b hb)

theorem Formatted.contains {format bit : UInt32} (h : Formatted frame format) (hmem : bit ∈ formatBits)
    (hbit : Has format bit) : Contains frame bit := by
  obtain ⟨bits,rfl,hbits⟩ := h
  obtain ⟨b,hb,hhas⟩ := has_union hbit
  rw [← formatBits_apart b (hbits b hb).mem_formatBits bit hmem hhas]
  exact hbits b hb

end Formats

section Ether

-- No layer above the Ethernet header has been looked at.
structure Bare (frame : Bytes) (p : PacketInfo) : Prop where
  l2Payload : p.l2Payload = none
  l3Header : p.l3Header = none
  l3Payload : p.l3Payload = none
  l4Header : p.l4Header = none
  l4Payload : p.l4Payload = none
  etheripOffset : p.etheripOffset = 0
  formatted : Formatted frame p.format
  notIpv4 : ¬ Has p.format nwIpv4

def L2Payload (frame : Bytes) (q length : Nat) : Prop :=
  q + length = frame.length ∧ q < frame.length ∧
    ∃ k t, Typed frame k t ∧ t ≠ ethEthtypeTpid ∧ q = if t ≤ ethMtu then layerStart k + 8 else layerStart k

-- What parse_ether leaves behind.
structure EtherParsed (frame : Bytes) (p : PacketInfo) : Prop where
  l3Header : p.l3Header = none
  l3Payload : p.l3Payload = none
  l4Header : p.l4Header = none
  l4Payload : p.l4Payload = none
  etheripOffset : p.etheripOffset = 0
  formatted : Formatted frame p.format
  notIpv4 : ¬ Has p.format nwIpv4
  payload : ∀ q, p.l2Payload = some q → L2Payload frame q p.l2PayloadLength
  typed : p.ethType ≠ ethEthtypeTpid → ethMtu < p.ethType → ∃ k, Typed frame k p.ethType ∧
    p.l2Payload = if layerStart k < frame.length then some (layerStart k) else none
  reached : ∀ k t, Typed frame k t → t ≠ ethEthtypeTpid → p.ethType = t

theorem Bare.stopped (h : Bare frame p) (ht : p.ethType = ethEthtypeTpid ∨ p.ethType ≤ ethMtu)
    (hreached : ∀ k t, Typed frame k t → t ≠ ethEthtypeTpid → p.ethType = t) : EtherParsed frame p := by
  refine ⟨h.l3Header,h.l3Payload,h.l4Header,h.l4Payload,h.etheripOffset,h.formatted,h.notIpv4,?_,?_,hreached⟩
  · intro q hq
    rw [h.l2Payload] at hq
    exact absurd hq (by simp)
  · intro hne hlt
    rcases ht with heq | hle
    · exact absurd heq hne
    · exact absurd hlt (UInt16.not_lt.mpr hle)

theorem setL2Payload_eq {ptr : Nat} (hptr : ptr ≤ frame.length) : setL2Payload frame ptr p =
    if ptr < frame.length then
      { p with l2Payload := some ptr, l2PayloadLength := frame.length - ptr } else p := by
  rw [setL2Payload,remained_eq hptr]
  by_cases hlt : ptr < frame.length
  · rw [if_pos hlt,if_pos (by omega)]
  · rw [if_neg hlt,if_neg (by omega)]

theorem Bare.paid (h : Bare frame p) {ptr : Nat} (hptr : ptr ≤ frame.length)
    (hpayload : ptr < frame.length → L2Payload frame ptr (frame.length - ptr))
    (htyped : p.ethType ≠ ethEthtypeTpid → ethMtu < p.ethType →
      ∃ k, Typed frame k p.ethType ∧ ptr = layerStart k)
    (hreached : ∀ k t, Typed frame k t → t ≠ ethEthtypeTpid → p.ethType = t) :
    EtherParsed frame (setL2Payload frame ptr p) := by
  rw [setL2Payload_eq hptr]
  split
  · rename_i hlt
    refine ⟨h.l3Header,h.l3Payload,h.l4Header,h.l4Payload,h.etheripOffset,h.formatted,h.notIpv4,?_,?_,
      hreached⟩
    · intro q hq
      rw [← Option.some.inj hq]
      exact hpayload hlt
    · intro hne hmtu
      obtain ⟨k,hk,rfl⟩ := htyped hne hmtu
      exact ⟨k,hk,by rw [if_pos hlt]⟩
  · rename_i hge
    refine ⟨h.l3Header,h.l3Payload,h.l4Header,h.l4Payload,h.etheripOffset,h.formatted,h.notIpv4,?_,?_,
      hreached⟩
    · intro q hq
      rw [h.l2Payload] at hq
      exact absurd hq (by simp)
    · intro hne hmtu
      obtain ⟨k,hk,rfl⟩ := htyped hne hmtu
      exact ⟨k,hk,by rw [if_neg hge,h.l2Payload]⟩

theorem parseSnap_spec (h : Bare frame p) (ht : Typed frame k p.ethType) (hne : p.ethType ≠ ethEthtypeTpid) :
    ∃ p', parseSnap frame (layerStart k) p = .ok p' ∧ EtherParsed frame p' := by
  have hfits : layerStart k ≤ frame.length := ht.fits
  have hreached : ∀ k' t', Typed frame k' t' → t' ≠ ethEthtypeTpid → p.ethType = t' :=
    fun k' t' h' hne' => (ht.unique hne h' hne').2
  rw [parseSnap,remained_eq hfits,sizeofSnapHeader]
  split
  · rename_i hmtu
    split
    · exact ⟨p,rfl,h.stopped (.inr hmtu) hreached⟩
    · rename_i hlong
      rw [load_ok (by omega),ok_bind,load_ok (by omega),ok_bind,net16_inside (by omega),ok_bind]
      refine ⟨_,rfl,Bare.paid ?_ (by omega) ?_ ?_ hreached⟩
      · refine ⟨h.l2Payload,h.l3Header,h.l3Payload,h.l4Header,h.l4Payload,h.etheripOffset,?_,?_⟩
        · exact h.formatted.or (.snap ht hmtu (by omega))
        · exact fun hhas => (has_or.mp hhas).elim h.notIpv4 (by decide)
      · exact fun hlt => ⟨by omega,hlt,k,_,ht,hne,by rw [if_pos hmtu]⟩
      · exact fun _ hlt => absurd hlt (UInt16.not_lt.mpr hmtu)
  · rename_i hmtu
    have hlt : ethMtu < p.ethType := UInt16.not_le.mp hmtu
    refine ⟨_,rfl,Bare.paid ?_ hfits ?_ ?_ hreached⟩
    · refine ⟨h.l2Payload,h.l3Header,h.l3Payload,h.l4Header,h.l4Payload,h.etheripOffset,?_,?_⟩
      · exact h.formatted.or (.dix ht hne hlt)
      · exact fun hhas => (has_or.mp hhas).elim h.notIpv4 (by decide)
    · exact fun hshort => ⟨by omega,hshort,k,_,ht,hne,by rw [if_neg hmtu]⟩
    · exact fun _ _ => ⟨k,ht,rfl⟩

-- Every tag that is skipped uses up four bytes of the frame.
theorem skipNestedVlan_spec (h : Bare frame p) (ht : Typed frame k p.ethType) {fuel : Nat}
    (hfuel : frame.length < layerStart k + 4 * fuel) :
    ∃ p', skipNestedVlan frame fuel (layerStart k) p = .ok p' ∧ EtherParsed frame p' := by
  induction fuel generalizing k p with
  | zero =>
    have hfits : layerStart k ≤ frame.length := ht.fits
    omega
  | succ fuel ih =>
    have hfits : layerStart k ≤ frame.length := ht.fits
    rw [skipNestedVlan,remained_eq hfits,sizeofVlantagHeader]
    split
    · rename_i htag
      rw [htag] at ht
      split
      · rename_i hshort
        refine ⟨p,rfl,h.stopped (.inl htag) fun k' t' h' hne' => ?_⟩
        exact absurd (ht.last (by omega) h') hne'
      · rename_i hlong
        rw [net16_inside (by omega),ok_bind]
        have hstart : layerStart k + 4 = layerStart (k + 1) := by
          rw [layerStart,layerStart]
          omega
        rw [hstart]
        refine ih ?_ ?_ ?_
        · exact ⟨h.l2Payload,h.l3Header,h.l3Payload,h.l4Header,h.l4Payload,h.etheripOffset,h.formatted,
            h.notIpv4⟩
        · exact ht.next (by omega)
        · rw [← hstart]
          omega
    · rename_i hne
      exact parseSnap_spec h ht hne

theorem parseVlan_spec (h : Bare frame p) (ht : Typed frame 0 p.ethType) {fuel : Nat}
    (hfuel : frame.length < 4 * fuel) :
    ∃ p', parseVlan frame fuel (layerStart 0) p = .ok p' ∧ EtherParsed frame p' := by
  have hfits : layerStart 0 ≤ frame.length := ht.fits
  rw [parseVlan,remained_eq hfits,sizeofVlantagHeader]
  split
  · rename_i htag
    rw [htag] at ht
    split
    · rename_i hshort
      refine ⟨p,rfl,h.stopped (.inl htag) fun k' t' h' hne' => ?_⟩
      exact absurd (ht.last (by omega) h') hne'
    · rename_i hlong
      rw [layerStart] at hlong hfits
      rw [layerStart,net16_inside (by omega),ok_bind,net16_inside (by omega),ok_bind]
      have hstart : 14 + 4 * 0 + 4 = layerStart 1 := rfl
      rw [hstart]
      refine skipNestedVlan_spec ?_ (ht.next ?_) ?_
      · refine ⟨h.l2Payload,h.l3Header,h.l3Payload,h.l4Header,h.l4Payload,h.etheripOffset,?_,?_⟩
        · exact h.formatted.or (.vtag ht.type (by omega))
        · exact fun hhas => (has_or.mp hhas).elim h.notIpv4 (by decide)
      · rw [layerStart]
        omega
      · omega
  · rename_i hne
    exact skipNestedVlan_spec h ht (by omega)

theorem parseEther_spec {fuel : Nat} (hfuel : frame.length < 4 * fuel) :
    ∃ p, parseEther frame fuel { l2Header := some 0 } = .ok p ∧ EtherParsed frame p := by
  have hbare : ∀ macsa macda type, Bare frame
      { l2Header := some 0, ethMacsa := macsa, ethMacda := macda, ethType := type } :=
    fun _ _ _ => ⟨rfl,rfl,rfl,rfl,rfl,rfl,formatted_zero,not_has_zero⟩
  have hheader : header (some 0) = .ok 0 := rfl
  simp only [parseEther,hheader,ok_bind]
  rw [remained_eq (Nat.zero_le _),sizeofEtherHeader]
  split
  · rename_i hshort
    refine ⟨_,rfl,(hbare _ _ _).stopped (.inr (by decide)) fun k t ht _ => ?_⟩
    have hfits := ht.fits
    omega
  · rename_i hlong
    rw [macAt,within,if_pos (by omega),ok_bind,macAt,within,if_pos (by omega),ok_bind,
      net16_inside (by omega),ok_bind]
    exact parseVlan_spec (hbare _ _ _) ⟨by omega,rfl,by simp⟩ hfuel

end Ether

end Trema.Packet
