import Trema.Packet.Ethernet

namespace Trema.Packet

open Library
open OpenFlow (Exec Mac)

variable {frame : Bytes} {p p' : PacketInfo} {k h : Nat}

section Network

-- The bytes that follow a network header of the frame, up to its end.
def L3Payload (frame : Bytes) (h q length : Nat) : Prop :=
  q + length = frame.length ∧ q < frame.length ∧
    (Ipv4At frame h ∧ q = h + (ihlAt frame h).toNat * 4 ∨
      ∃ k, Typed frame k ethEthtypeLldp ∧ h = layerStart k ∧ q = h)

structure NetworkParsed (frame : Bytes) (p : PacketInfo) : Prop where
  l4Header : p.l4Header = none
  l4Payload : p.l4Payload = none
  etheripOffset : p.etheripOffset = 0
  formatted : Formatted frame p.format
  l2Payload : ∀ q, p.l2Payload = some q → L2Payload frame q p.l2PayloadLength
  l3Header : ∀ h, p.l3Header = some h → p.l2Payload = some h
  l3Payload : ∀ q, p.l3Payload = some q → ∃ h, p.l3Header = some h ∧ L3Payload frame h q p.l3PayloadLength
  ipv4 : Has p.format nwIpv4 → ∃ h, Ipv4At frame h ∧ p.ipv4Protocol = hostByte frame (h + 9) ∧
    p.ipv4FragOff = be16 frame (h + 6) ∧
    p.l3Payload = if h + (ihlAt frame h).toNat * 4 < frame.length then
      some (h + (ihlAt frame h).toNat * 4) else none
  complete : ∀ n, Ipv4At frame n → Has p.format nwIpv4

theorem setL3Payload_cases {ptr : Nat} (hptr : ptr ≤ frame.length) :
    ptr < frame.length ∧ setL3Payload frame ptr p =
      { p with l3Payload := some ptr, l3PayloadLength := frame.length - ptr } ∨
    ¬ ptr < frame.length ∧ setL3Payload frame ptr p = p := by
  rw [setL3Payload,remained_eq hptr]
  by_cases hlt : ptr < frame.length
  · exact .inl ⟨hlt,if_pos (by omega)⟩
  · exact .inr ⟨hlt,if_neg (by omega)⟩

-- What a parser of the network layer leaves as it is.
structure Above (p p' : PacketInfo) : Prop where
  l2Payload : p'.l2Payload = p.l2Payload
  l2PayloadLength : p'.l2PayloadLength = p.l2PayloadLength
  l3Header : p'.l3Header = p.l2Payload
  l4Header : p'.l4Header = p.l4Header
  l4Payload : p'.l4Payload = p.l4Payload
  etheripOffset : p'.etheripOffset = p.etheripOffset

theorem EtherParsed.network (hp : EtherParsed frame p) (habove : Above p p')
    (hformatted : Formatted frame p'.format)
    (hpayload : ∀ q, p'.l3Payload = some q → ∃ h, p'.l3Header = some h ∧ L3Payload frame h q p'.l3PayloadLength)
    (hipv4 : Has p'.format nwIpv4 → ∃ h, Ipv4At frame h ∧ p'.ipv4Protocol = hostByte frame (h + 9) ∧
      p'.ipv4FragOff = be16 frame (h + 6) ∧
      p'.l3Payload = if h + (ihlAt frame h).toNat * 4 < frame.length then
        some (h + (ihlAt frame h).toNat * 4) else none)
    (hcomplete : ∀ n, Ipv4At frame n → Has p'.format nwIpv4) : NetworkParsed frame p' := by
  refine ⟨?_,?_,?_,hformatted,?_,?_,hpayload,hipv4,hcomplete⟩
  · rw [habove.l4Header,hp.l4Header]
  · rw [habove.l4Payload,hp.l4Payload]
  · rw [habove.etheripOffset,hp.etheripOffset]
  · intro q hq
    rw [habove.l2Payload] at hq
    rw [habove.l2PayloadLength]
    exact hp.payload q hq
  · intro q hq
    rw [habove.l3Header] at hq
    rw [habove.l2Payload,hq]

theorem EtherParsed.notIpv4At (hp : EtherParsed frame p) (hne : p.ethType ≠ ethEthtypeIpv4) (n : Nat) :
    ¬ Ipv4At frame n := by
  intro hat
  obtain ⟨k,_,hk⟩ := hat.named
  exact hne (hp.reached k _ hk (by decide))

theorem EtherParsed.unparsed (hp : EtherParsed frame p) (hno : ∀ n, ¬ Ipv4At frame n) :
    NetworkParsed frame { p with l3Header := p.l2Payload } := by
  refine hp.network ⟨rfl,rfl,rfl,rfl,rfl,rfl⟩ hp.formatted ?_ (fun hhas => absurd hhas hp.notIpv4)
    fun n hat => absurd hat (hno n)
  intro q hq
  have hnone : p.l3Payload = some q := hq
  rw [hp.l3Payload] at hnone
  exact absurd hnone (by simp)

-- A header without a payload of its own.
theorem EtherParsed.closed (hp : EtherParsed frame p) {bit : UInt32} (habove : Above p p')
    (hpayload : p'.l3Payload = p.l3Payload) (hformat : p'.format = p.format ||| bit)
    (hbit : Contains frame bit) (hapart : ¬ Has bit nwIpv4) (hno : ∀ n, ¬ Ipv4At frame n) :
    NetworkParsed frame p' := by
  refine hp.network habove ?_ ?_ ?_ fun n hat => absurd hat (hno n)
  · rw [hformat]
    exact hp.formatted.or hbit
  · intro q hq
    rw [hpayload,hp.l3Payload] at hq
    exact absurd hq (by simp)
  · rw [hformat,has_or]
    exact fun hhas => absurd hhas (not_or.mpr ⟨hp.notIpv4,hapart⟩)

variable (hp : EtherParsed frame p) (hstart : p.l2Payload = some (layerStart k))
  (hfits : layerStart k < frame.length)

include hp hstart hfits

theorem parseArp_spec {format : UInt32} (hbit : layerStart k + 28 ≤ frame.length → Contains frame format)
    (hapart : ¬ Has format nwIpv4) (hno : ∀ n, ¬ Ipv4At frame n) :
    ∃ p', parseArp frame format { p with l3Header := p.l2Payload } = .ok p' ∧ NetworkParsed frame p' := by
  have hheader : header p.l2Payload = .ok (layerStart k) := by
    rw [hstart]
    rfl
  simp only [parseArp,hheader,ok_bind]
  rw [remained_eq hfits.le,sizeofArpHeader]
  split
  · exact ⟨_,rfl,hp.unparsed hno⟩
  · rename_i hlong
    have hlong' : layerStart k + 28 ≤ frame.length := by omega
    rw [net16_inside (by omega),ok_bind,net16_inside (by omega),ok_bind,byteAt_inside (by omega),ok_bind,
      byteAt_inside (by omega),ok_bind,net16_inside (by omega),ok_bind,macAt,within,if_pos (by omega),ok_bind,
      net32_inside (by omega),ok_bind,macAt,within,if_pos (by omega),ok_bind,net32_inside (by omega),ok_bind]
    exact ⟨_,rfl,hp.closed ⟨rfl,rfl,rfl,rfl,rfl,rfl⟩ rfl rfl (hbit hlong') hapart hno⟩

theorem parseIpv6_spec (ht : Typed frame k ethEthtypeIpv6) (hno : ∀ n, ¬ Ipv4At frame n) :
    ∃ p', parseIpv6 frame { p with l3Header := p.l2Payload } = .ok p' ∧ NetworkParsed frame p' := by
  have hheader : header p.l2Payload = .ok (layerStart k) := by
    rw [hstart]
    rfl
  simp only [parseIpv6,hheader,ok_bind]
  rw [remained_eq hfits.le,sizeofIpv6Header]
  split
  · exact ⟨_,rfl,hp.unparsed hno⟩
  · rename_i hlong
    rw [net32_inside (by omega),ok_bind,net16_inside (by omega),ok_bind,byteAt_inside (by omega),ok_bind,
      byteAt_inside (by omega),ok_bind,load_ok (by omega),ok_bind,load_ok (by omega),ok_bind]
    exact ⟨_,rfl,hp.closed ⟨rfl,rfl,rfl,rfl,rfl,rfl⟩ rfl rfl (.ipv6 ht (by omega)) (by decide) hno⟩

theorem parseLldp_spec (ht : Typed frame k ethEthtypeLldp) (hno : ∀ n, ¬ Ipv4At frame n) :
    ∃ p', parseLldp frame { p with l3Header := p.l2Payload } = .ok p' ∧ NetworkParsed frame p' := by
  have hheader : header p.l2Payload = .ok (layerStart k) := by
    rw [hstart]
    rfl
  simp only [parseLldp,hheader,ok_bind]
  rw [setL3Payload,remained_eq hfits.le,if_pos (by omega)]
  refine ⟨_,rfl,hp.network ⟨rfl,rfl,rfl,rfl,rfl,rfl⟩ (hp.formatted.or (.lldp ht hfits)) ?_ ?_
    fun n hat => absurd hat (hno n)⟩
  · intro q hq
    have hsame : layerStart k = q := Option.some.inj hq
    subst hsame
    exact ⟨layerStart k,hstart,Nat.add_sub_cancel' hfits.le,hfits,.inr ⟨k,ht,rfl,rfl⟩⟩
  · exact fun hhas => absurd (has_or.mp hhas) (not_or.mpr ⟨hp.notIpv4,by decide⟩)

theorem parseIpv4_spec (ht : Typed frame k ethEthtypeIpv4) :
    ∃ p', parseIpv4 frame { p with l3Header := p.l2Payload } = .ok p' ∧ NetworkParsed frame p' := by
  have hheader : header p.l2Payload = .ok (layerStart k) := by
    rw [hstart]
    rfl
  have hsame : ∀ n, Ipv4At frame n → n = layerStart k := by
    intro n hat
    obtain ⟨k',rfl,hk'⟩ := hat.named
    rw [(ht.unique (by decide) hk' (by decide)).1]
  generalize hn : layerStart k = n at *
  simp only [parseIpv4,hheader,ok_bind]
  rw [remained_eq hfits.le,sizeofIpv4Header]
  split
  · rename_i hshort
    refine ⟨_,rfl,hp.unparsed fun n' hat => ?_⟩
    have hfixed := hat.fixed
    rw [hsame n' hat] at hfixed
    omega
  · rename_i hlong
    rw [byteAt_inside (by omega),ok_bind]
    split
    · rename_i hihl
      refine ⟨_,rfl,hp.unparsed fun n' hat => ?_⟩
      have hmin := hat.ihl
      rw [hsame n' hat] at hmin
      exact absurd hihl (UInt8.not_lt.mpr hmin)
    · rename_i hihl
      split
      · rename_i hshort
        refine ⟨_,rfl,hp.unparsed fun n' hat => ?_⟩
        have hend := hat.fits
        rw [hsame n' hat,ihlAt] at hend
        omega
      · rename_i hwhole
        have hat : Ipv4At frame n :=
          ⟨⟨k,hn.symm,ht⟩,by omega,UInt8.not_lt.mp hihl,by rw [ihlAt]; omega⟩
        have hend : n + (hostByte frame n &&& 0xf).toNat * 4 ≤ frame.length := hat.fits
        rw [parseIpv4Fields,byteAt_inside (by omega),ok_bind,byteAt_inside (by omega),ok_bind,
          net16_inside (by omega),ok_bind,net16_inside (by omega),ok_bind,net16_inside (by omega),ok_bind,
          byteAt_inside (by omega),ok_bind,byteAt_inside (by omega),ok_bind,net16_inside (by omega),ok_bind,
          net32_inside (by omega),ok_bind,net32_inside (by omega),ok_bind,pure_eq_ok,ok_bind]
        refine ⟨_,rfl,?_⟩
        rcases setL3Payload_cases hend with ⟨hmore,hset⟩ | ⟨hless,hset⟩
        · rw [hset]
          refine hp.network ⟨rfl,rfl,rfl,rfl,rfl,rfl⟩ (hp.formatted.or (.ipv4 hat)) ?_ (fun _ => ?_)
            fun _ _ => has_or.mpr (.inr (by decide))
          · intro q hq
            have hq' : n + (ihlAt frame n).toNat * 4 = q := Option.some.inj hq
            subst hq'
            exact ⟨n,hstart,Nat.add_sub_cancel' hat.fits,hmore,.inl ⟨hat,rfl⟩⟩
          · exact ⟨n,hat,rfl,rfl,(if_pos hmore).symm⟩
        · rw [hset]
          refine hp.network ⟨rfl,rfl,rfl,rfl,rfl,rfl⟩ (hp.formatted.or (.ipv4 hat)) ?_ (fun _ => ?_)
            fun _ _ => has_or.mpr (.inr (by decide))
          · intro q hq
            have hnone : p.l3Payload = some q := hq
            rw [hp.l3Payload] at hnone
            exact absurd hnone (by simp)
          · exact ⟨n,hat,rfl,rfl,hp.l3Payload.trans (if_neg hless).symm⟩

omit hp hstart hfits

def networkTypes : List UInt16 :=
  [ethEthtypeArp,ethEthtypeRarp,ethEthtypeIpv4,ethEthtypeIpv6,ethEthtypeLldp]

-- The frame ends where a network header should start.
def EndsAtNetwork (frame : Bytes) : Prop :=
  ∃ k t, t ∈ networkTypes ∧ Typed frame k t ∧ layerStart k = frame.length

theorem networkTypes_apart : ∀ t ∈ networkTypes, t ≠ ethEthtypeTpid ∧ ethMtu < t := by
  have hall : (networkTypes.all fun t => decide (t ≠ ethEthtypeTpid ∧ ethMtu < t)) = true := by decide
  intro t ht
  exact of_decide_eq_true (List.all_eq_true.mp hall t ht)

theorem EtherParsed.started (hp : EtherParsed frame p) (ht : p.ethType ∈ networkTypes) :
    EndsAtNetwork frame ∧ p.l2Payload = none ∨
      ¬ EndsAtNetwork frame ∧ ∃ k, Typed frame k p.ethType ∧ p.l2Payload = some (layerStart k) ∧
        layerStart k < frame.length := by
  obtain ⟨hne,hmtu⟩ := networkTypes_apart _ ht
  obtain ⟨k,hk,hpayload⟩ := hp.typed hne hmtu
  have hfits : layerStart k ≤ frame.length := hk.fits
  by_cases hlt : layerStart k < frame.length
  · refine .inr ⟨?_,k,hk,by rw [hpayload,if_pos hlt],hlt⟩
    rintro ⟨k',t',ht',hk',hend⟩
    rw [(hk.unique hne hk' (networkTypes_apart _ ht').1).1] at hlt
    omega
  · exact .inl ⟨⟨k,_,ht,hk,by omega⟩,by rw [hpayload,if_neg hlt]⟩

theorem EtherParsed.unnamed (hp : EtherParsed frame p) (ht : p.ethType ∉ networkTypes) :
    ¬ EndsAtNetwork frame := by
  rintro ⟨k,t,hmem,hk,_⟩
  rw [hp.reached k t hk (networkTypes_apart t hmem).1] at ht
  exact ht hmem

theorem parseL3_spec (hp : EtherParsed frame p) :
    EndsAtNetwork frame ∧ parseL3 frame p = .error .aborted ∨
      ¬ EndsAtNetwork frame ∧ (parseL3 frame p = .ok none ∧ p.ethType ∉ networkTypes ∨
        ∃ p', parseL3 frame p = .ok (some p') ∧ NetworkParsed frame p') := by
  rw [parseL3]
  by_cases ht : p.ethType ∈ networkTypes
  · rcases hp.started ht with ⟨hends,hnone⟩ | ⟨hends,k,hk,hstart,hfits⟩
    · refine .inl ⟨hends,?_⟩
      have hheader : header p.l2Payload = .error .aborted := by
        rw [hnone]
        rfl
      simp only [networkTypes,List.mem_cons,List.not_mem_nil,or_false] at ht
      rcases ht with h | h | h | h | h
      all_goals
        rw [h]
        simp only [parseArp,parseIpv4,parseIpv6,parseLldp,hheader,error_bind]
        rfl
    · refine .inr ⟨hends,.inr ?_⟩
      simp only [networkTypes,List.mem_cons,List.not_mem_nil,or_false] at ht
      have hno : p.ethType ≠ ethEthtypeIpv4 → ∀ n, ¬ Ipv4At frame n := fun hne => hp.notIpv4At hne
      rcases ht with h | h | h | h | h
      · rw [h] at hk hno
        obtain ⟨p',hparse,hp'⟩ := parseArp_spec hp hstart hfits (.arp hk) (by decide) (hno (by decide))
        exact ⟨p',by rw [if_pos h,hparse]; rfl,hp'⟩
      · rw [h] at hk hno
        obtain ⟨p',hparse,hp'⟩ := parseArp_spec hp hstart hfits (.rarp hk) (by decide) (hno (by decide))
        exact ⟨p',by rw [if_neg (by rw [h]; decide),if_pos h,hparse]; rfl,hp'⟩
      · rw [h] at hk hno
        obtain ⟨p',hparse,hp'⟩ := parseIpv4_spec hp hstart hfits hk
        refine ⟨p',?_,hp'⟩
        rw [if_neg (by rw [h]; decide),if_neg (by rw [h]; decide),if_pos h,hparse]
        rfl
      · rw [h] at hk hno
        obtain ⟨p',hparse,hp'⟩ := parseIpv6_spec hp hstart hfits hk (hno (by decide))
        refine ⟨p',?_,hp'⟩
        rw [if_neg (by rw [h]; decide),if_neg (by rw [h]; decide),if_neg (by rw [h]; decide),if_pos h,hparse]
        rfl
      · rw [h] at hk hno
        obtain ⟨p',hparse,hp'⟩ := parseLldp_spec hp hstart hfits hk (hno (by decide))
        refine ⟨p',?_,hp'⟩
        rw [if_neg (by rw [h]; decide),if_neg (by rw [h]; decide),if_neg (by rw [h]; decide),
          if_neg (by rw [h]; decide),if_pos h,hparse]
        rfl
  · refine .inr ⟨hp.unnamed ht,.inl ⟨?_,ht⟩⟩
    simp only [networkTypes,List.mem_cons,List.not_mem_nil,or_false,not_or] at ht
    obtain ⟨h₁,h₂,h₃,h₄,h₅⟩ := ht
    rw [if_neg h₁,if_neg h₂,if_neg h₃,if_neg h₄,if_neg h₅]
    rfl

end Network

section Transport

-- The size of the transport header that starts there.
inductive TransportSize (frame : Bytes) (h : Nat) : Nat → Prop
  | icmp : TransportAt frame ipprotoIcmp h → TransportSize frame h 8
  | udp : TransportAt frame ipprotoUdp h → TransportSize frame h 8
  | tcp : TransportAt frame ipprotoTcp h → 5 ≤ tcpOffsetAt frame h →
      TransportSize frame h ((tcpOffsetAt frame h).toNat * 4)
  | etherip : TransportAt frame ipprotoEtherip h → TransportSize frame h 2

def L4Payload (frame : Bytes) (h q length : Nat) : Prop :=
  q + length = frame.length ∧ q < frame.length ∧ ∃ size, TransportSize frame h size ∧ q = h + size

structure Layered (frame : Bytes) (p : PacketInfo) : Prop where
  l2Payload : ∀ q, p.l2Payload = some q → L2Payload frame q p.l2PayloadLength
  l3Header : ∀ h, p.l3Header = some h → p.l2Payload = some h
  l3Payload : ∀ q, p.l3Payload = some q → ∃ h, p.l3Header = some h ∧ L3Payload frame h q p.l3PayloadLength
  l4Header : ∀ h, p.l4Header = some h → p.l3Payload = some h
  l4Payload : ∀ q, p.l4Payload = some q → ∃ h, p.l4Header = some h ∧ L4Payload frame h q p.l4PayloadLength
  formats : ∀ bit ∈ formatBits, Has p.format bit → Contains frame bit
  etherip : frame.length ≤ 65535 → p.etheripOffset = 0 ∨
    p.l4Payload = some p.etheripOffset.toNat ∧ Contains frame tpEtherip

theorem EtherParsed.layered (hp : EtherParsed frame p) : Layered frame p := by
  refine ⟨hp.payload,?_,?_,?_,?_,fun bit hmem hbit => hp.formatted.contains hmem hbit,fun _ => .inl hp.etheripOffset⟩
  · simp [hp.l3Header]
  · simp [hp.l3Payload]
  · simp [hp.l4Header]
  · simp [hp.l4Payload]

theorem NetworkParsed.layered (hp : NetworkParsed frame p) : Layered frame p := by
  refine ⟨hp.l2Payload,hp.l3Header,hp.l3Payload,?_,?_,fun bit hmem hbit => hp.formatted.contains hmem hbit,
    fun _ => .inl hp.etheripOffset⟩
  · simp [hp.l4Header]
  · simp [hp.l4Payload]

-- What a parser of the transport layer leaves as it is.
structure Over (p p' : PacketInfo) : Prop where
  l2Payload : p'.l2Payload = p.l2Payload
  l2PayloadLength : p'.l2PayloadLength = p.l2PayloadLength
  l3Header : p'.l3Header = p.l3Header
  l3Payload : p'.l3Payload = p.l3Payload
  l3PayloadLength : p'.l3PayloadLength = p.l3PayloadLength
  l4Header : p'.l4Header = p.l3Payload

theorem NetworkParsed.transport (hp : NetworkParsed frame p) (hover : Over p p')
    (hformatted : Formatted frame p'.format)
    (hpayload : ∀ q, p'.l4Payload = some q → ∃ h, p'.l4Header = some h ∧ L4Payload frame h q p'.l4PayloadLength)
    (hetherip : frame.length ≤ 65535 → p'.etheripOffset = 0 ∨
      p'.l4Payload = some p'.etheripOffset.toNat ∧ Contains frame tpEtherip) : Layered frame p' := by
  refine ⟨?_,?_,?_,?_,hpayload,fun bit hmem hbit => hformatted.contains hmem hbit,hetherip⟩
  · rw [hover.l2Payload,hover.l2PayloadLength]
    exact hp.l2Payload
  · rw [hover.l3Header,hover.l2Payload]
    exact hp.l3Header
  · rw [hover.l3Payload,hover.l3Header,hover.l3PayloadLength]
    exact hp.l3Payload
  · rw [hover.l4Header,hover.l3Payload]
    exact fun _ hsome => hsome

theorem NetworkParsed.over (hp : NetworkParsed frame p) : Layered frame { p with l4Header := p.l3Payload } := by
  refine hp.transport ⟨rfl,rfl,rfl,rfl,rfl,rfl⟩ hp.formatted ?_ fun _ => .inl hp.etheripOffset
  intro q hq
  have hnone : p.l4Payload = some q := hq
  rw [hp.l4Payload] at hnone
  exact absurd hnone (by simp)

theorem setL4Payload_cases {ptr : Nat} (hptr : ptr ≤ frame.length) :
    ptr < frame.length ∧ setL4Payload frame ptr p =
      { p with l4Payload := some ptr, l4PayloadLength := frame.length - ptr } ∨
    ¬ ptr < frame.length ∧ setL4Payload frame ptr p = p := by
  rw [setL4Payload,remained_eq hptr]
  by_cases hlt : ptr < frame.length
  · exact .inl ⟨hlt,if_pos (by omega)⟩
  · exact .inr ⟨hlt,if_neg (by omega)⟩

variable {start : Nat}

-- A header with a payload behind it.
theorem NetworkParsed.paid (hp : NetworkParsed frame p) (hover : Over p p') (hstart : p.l3Payload = some start)
    (hformat : p'.format = p.format) (hnone : p'.l4Payload = none) (hoffset : p'.etheripOffset = 0)
    {bit : UInt32} (hbit : Contains frame bit) {size : Nat} (hsize : TransportSize frame start size)
    (hfits : start + size ≤ frame.length) :
    Layered frame { setL4Payload frame (start + size) p' with
      format := (setL4Payload frame (start + size) p').format ||| bit } := by
  have hformatted : Formatted frame (p'.format ||| bit) := by
    rw [hformat]
    exact hp.formatted.or hbit
  rcases setL4Payload_cases hfits with ⟨hmore,hset⟩ | ⟨_,hset⟩
  · rw [hset]
    refine hp.transport ⟨hover.l2Payload,hover.l2PayloadLength,hover.l3Header,hover.l3Payload,
      hover.l3PayloadLength,hover.l4Header⟩ hformatted ?_ fun _ => .inl hoffset
    intro q hq
    have hsame : start + size = q := Option.some.inj hq
    subst hsame
    exact ⟨start,hover.l4Header.trans hstart,Nat.add_sub_cancel' hfits,hmore,size,hsize,rfl⟩
  · rw [hset]
    refine hp.transport ⟨hover.l2Payload,hover.l2PayloadLength,hover.l3Header,hover.l3Payload,
      hover.l3PayloadLength,hover.l4Header⟩ hformatted ?_ fun _ => .inl hoffset
    intro q hq
    have hsome : p'.l4Payload = some q := hq
    rw [hnone] at hsome
    exact absurd hsome (by simp)

theorem parseIcmpData_ok (hlong : start + 8 ≤ frame.length) (type : UInt8) :
    ∃ id seq gateway, parseIcmpData frame start type p =
      .ok { p with icmpv4Id := id, icmpv4Seq := seq, icmpv4Gateway := gateway } := by
  rw [parseIcmpData]
  split
  · rw [net16_inside (by omega),ok_bind,net16_inside (by omega),ok_bind]
    exact ⟨_,_,p.icmpv4Gateway,rfl⟩
  · split
    · rw [net32_inside (by omega),ok_bind]
      exact ⟨p.icmpv4Id,p.icmpv4Seq,_,rfl⟩
    · exact ⟨p.icmpv4Id,p.icmpv4Seq,p.icmpv4Gateway,rfl⟩

variable (hp : NetworkParsed frame p) (hstart : p.l3Payload = some start) (hfits : start < frame.length)

include hp hstart hfits

theorem parseIcmp_spec (ht : TransportAt frame ipprotoIcmp start) :
    ∃ p', parseIcmp frame { p with l4Header := p.l3Payload } = .ok p' ∧ Layered frame p' := by
  have hheader : header p.l3Payload = .ok start := by
    rw [hstart]
    rfl
  simp only [parseIcmp,hheader,ok_bind]
  rw [remained_eq hfits.le,sizeofIcmpHeader]
  split
  · exact ⟨_,rfl,hp.over⟩
  · rename_i hlong
    rw [byteAt_inside (by omega),ok_bind,byteAt_inside (by omega),ok_bind,net16_inside (by omega),ok_bind]
    obtain ⟨id,seq,gateway,hdata⟩ := parseIcmpData_ok (p := { p with
      l4Header := p.l3Payload
      icmpv4Type := hostByte frame start
      icmpv4Code := hostByte frame (start + 1)
      icmpv4Checksum := be16 frame (start + 2) }) (show start + 8 ≤ frame.length by omega) (hostByte frame start)
    rw [hdata,ok_bind]
    refine ⟨_,rfl,hp.paid ?_ hstart ?_ ?_ ?_ (.icmp ht (by omega)) (.icmp ht) (by omega)⟩
    exacts [⟨rfl,rfl,rfl,rfl,rfl,rfl⟩,rfl,hp.l4Payload,hp.etheripOffset]

theorem parseUdp_spec (ht : TransportAt frame ipprotoUdp start) :
    ∃ p', parseUdp frame { p with l4Header := p.l3Payload } = .ok p' ∧ Layered frame p' := by
  have hheader : header p.l3Payload = .ok start := by
    rw [hstart]
    rfl
  simp only [parseUdp,hheader,ok_bind]
  rw [remained_eq hfits.le,sizeofUdpHeader]
  split
  · exact ⟨_,rfl,hp.over⟩
  · rename_i hlong
    rw [net16_inside (by omega),ok_bind,net16_inside (by omega),ok_bind,net16_inside (by omega),ok_bind,
      net16_inside (by omega),ok_bind]
    refine ⟨_,rfl,hp.paid ?_ hstart ?_ ?_ ?_ (.udp ht (by omega)) (.udp ht) (by omega)⟩
    exacts [⟨rfl,rfl,rfl,rfl,rfl,rfl⟩,rfl,hp.l4Payload,hp.etheripOffset]

theorem parseTcp_spec (ht : TransportAt frame ipprotoTcp start) :
    ∃ p', parseTcp frame { p with l4Header := p.l3Payload } = .ok p' ∧ Layered frame p' := by
  have hheader : header p.l3Payload = .ok start := by
    rw [hstart]
    rfl
  simp only [parseTcp,hheader,ok_bind]
  rw [remained_eq hfits.le,sizeofTcpHeader]
  split
  · exact ⟨_,rfl,hp.over⟩
  · rename_i hlong
    rw [byteAt_inside (by omega),ok_bind]
    split
    · exact ⟨_,rfl,hp.over⟩
    · rename_i hoffset
      split
      · exact ⟨_,rfl,hp.over⟩
      · rename_i hwhole
        have hmin : 5 ≤ tcpOffsetAt frame start := UInt8.not_lt.mp hoffset
        have hend : start + (tcpOffsetAt frame start).toNat * 4 ≤ frame.length := by
          rw [tcpOffsetAt]
          omega
        rw [parseTcpFields,net16_inside (by omega),ok_bind,net16_inside (by omega),ok_bind,
          net32_inside (by omega),ok_bind,net32_inside (by omega),ok_bind,byteAt_inside (by omega),ok_bind,
          byteAt_inside (by omega),ok_bind,net16_inside (by omega),ok_bind,net16_inside (by omega),ok_bind,
          net16_inside (by omega),ok_bind,pure_eq_ok,ok_bind]
        refine ⟨_,rfl,hp.paid ?_ hstart ?_ ?_ ?_ (.tcp ht (by omega) hmin hend) (.tcp ht hmin) hend⟩
        exacts [⟨rfl,rfl,rfl,rfl,rfl,rfl⟩,rfl,hp.l4Payload,hp.etheripOffset]

theorem parseIgmp_spec (ht : TransportAt frame ipprotoIgmp start) :
    ∃ p', parseIgmp frame { p with l4Header := p.l3Payload } = .ok p' ∧ Layered frame p' := by
  have hheader : header p.l3Payload = .ok start := by
    rw [hstart]
    rfl
  simp only [parseIgmp,hheader,ok_bind]
  rw [remained_eq hfits.le,sizeofIgmpHeader]
  split
  · exact ⟨_,rfl,hp.over⟩
  · rename_i hlong
    rw [byteAt_inside (by omega),ok_bind,byteAt_inside (by omega),ok_bind,net16_inside (by omega),ok_bind,
      net32_inside (by omega),ok_bind]
    refine ⟨_,rfl,hp.transport ⟨rfl,rfl,rfl,rfl,rfl,rfl⟩ (hp.formatted.or (.igmp ht (by omega))) ?_
      fun _ => .inl hp.etheripOffset⟩
    intro q hq
    have hnone : p.l4Payload = some q := hq
    rw [hp.l4Payload] at hnone
    exact absurd hnone (by simp)

theorem parseEtherip_spec (ht : TransportAt frame ipprotoEtherip start) :
    ∃ p', parseEtherip frame { p with l4Header := p.l3Payload } = .ok p' ∧ Layered frame p' := by
  have hheader : header p.l3Payload = .ok start := by
    rw [hstart]
    rfl
  simp only [parseEtherip,hheader,ok_bind]
  rw [remained_eq hfits.le,sizeofEtheripHeader]
  split
  · exact ⟨_,rfl,hp.over⟩
  · rename_i hlong
    have hbit : Contains frame tpEtherip := .etherip ht (by omega)
    rw [net16_inside (by omega),ok_bind,setInnerFrame,remained_eq (by omega)]
    refine ⟨_,rfl,?_⟩
    split
    · rename_i hmore
      refine hp.transport ⟨rfl,rfl,rfl,rfl,rfl,rfl⟩ (hp.formatted.or hbit) ?_ fun hsmall => .inr ⟨?_,hbit⟩
      · intro q hq
        have hsame : start + 2 = q := Option.some.inj hq
        subst hsame
        exact ⟨start,hstart,Nat.add_sub_cancel' (by omega),by omega,2,.etherip ht,rfl⟩
      · have hmod : (UInt16.ofNat (start + 2)).toNat = start + 2 := by
          rw [UInt16.toNat_ofNat']
          exact Nat.mod_eq_of_lt (by omega)
        exact congrArg some hmod.symm
    · refine hp.transport ⟨rfl,rfl,rfl,rfl,rfl,rfl⟩ (hp.formatted.or hbit) ?_ fun _ => .inl rfl
      intro q hq
      have hnone : p.l4Payload = some q := hq
      rw [hp.l4Payload] at hnone
      exact absurd hnone (by simp)

omit hp hstart hfits

def transportProtocols : List UInt8 := [ipprotoIcmp,ipprotoTcp,ipprotoUdp,ipprotoIgmp,ipprotoEtherip]

-- The frame ends where the header of a known transport protocol should start.
def EndsAtTransport (frame : Bytes) : Prop :=
  ∃ protocol ∈ transportProtocols, TransportAt frame protocol frame.length

theorem Ipv4At.unique {n n' : Nat} (h : Ipv4At frame n) (h' : Ipv4At frame n') : n = n' := by
  obtain ⟨k,rfl,hk⟩ := h.named
  obtain ⟨k',rfl,hk'⟩ := h'.named
  rw [(hk.unique (by decide) hk' (by decide)).1]

theorem parseL4_none (hnone : p.l3Payload = none) (hprotocol : p.ipv4Protocol ∈ transportProtocols) :
    parseL4 frame p = .error .aborted := by
  have hheader : header p.l3Payload = .error .aborted := by
    rw [hnone]
    rfl
  rw [parseL4]
  simp only [transportProtocols,List.mem_cons,List.not_mem_nil,or_false] at hprotocol
  rcases hprotocol with h | h | h | h | h
  all_goals
    rw [h]
    simp only [parseIcmp,parseTcp,parseUdp,parseIgmp,parseEtherip,hheader,error_bind]
    rfl

theorem parseL4_some (hp : NetworkParsed frame p) (hstart : p.l3Payload = some start) (hfits : start < frame.length)
    (ht : TransportAt frame p.ipv4Protocol start) : ∃ p', parseL4 frame p = .ok p' ∧ Layered frame p' := by
  rw [parseL4]
  split
  · rename_i h
    rw [h] at ht
    exact parseIcmp_spec hp hstart hfits ht
  · split
    · rename_i h
      rw [h] at ht
      exact parseTcp_spec hp hstart hfits ht
    · split
      · rename_i h
        rw [h] at ht
        exact parseUdp_spec hp hstart hfits ht
      · split
        · rename_i h
          rw [h] at ht
          exact parseIgmp_spec hp hstart hfits ht
        · split
          · rename_i h
            rw [h] at ht
            exact parseEtherip_spec hp hstart hfits ht
          · exact ⟨p,rfl,hp.layered⟩

theorem parseL4_spec (hp : NetworkParsed frame p) (hipv4 : Has p.format nwIpv4)
    (hwhole : p.ipv4FragOff &&& ipOffmask = 0) :
    EndsAtTransport frame ∧ parseL4 frame p = .error .aborted ∨
      ¬ EndsAtTransport frame ∧ ∃ p', parseL4 frame p = .ok p' ∧ Layered frame p' := by
  obtain ⟨n,hat,hprotocol,hfrag,hpayload⟩ := hp.ipv4 hipv4
  have hfits := hat.fits
  have ht : TransportAt frame p.ipv4Protocol (n + (ihlAt frame n).toNat * 4) := by
    rw [hfrag] at hwhole
    exact ⟨n,hat,hwhole,hprotocol.symm,rfl⟩
  by_cases hmore : n + (ihlAt frame n).toNat * 4 < frame.length
  · rw [if_pos hmore] at hpayload
    refine .inr ⟨?_,parseL4_some hp hpayload hmore ht⟩
    rintro ⟨protocol,_,hother⟩
    obtain ⟨n',hat',_,_,hend⟩ := hother.named
    rw [← hat.unique hat'] at hend
    omega
  · rw [if_neg hmore] at hpayload
    have hend : n + (ihlAt frame n).toNat * 4 = frame.length := by omega
    by_cases hmem : p.ipv4Protocol ∈ transportProtocols
    · rw [hend] at ht
      exact .inl ⟨⟨_,hmem,ht⟩,parseL4_none hpayload hmem⟩
    · refine .inr ⟨?_,p,?_,hp.layered⟩
      · rintro ⟨protocol,hknown,hother⟩
        obtain ⟨n',hat',_,hnamed,_⟩ := hother.named
        rw [← hat.unique hat',← hprotocol] at hnamed
        exact hmem (hnamed ▸ hknown)
      · simp only [transportProtocols,List.mem_cons,List.not_mem_nil,or_false,not_or] at hmem
        obtain ⟨h₁,h₂,h₃,h₄,h₅⟩ := hmem
        rw [parseL4,if_neg h₁,if_neg h₂,if_neg h₃,if_neg h₄,if_neg h₅]
        rfl

end Transport

section Packets

theorem parsePacket_spec {fuel : Nat} (hfuel : frame.length < 4 * fuel) :
    (EndsAtNetwork frame ∨ EndsAtTransport frame) ∧ parsePacket frame fuel = .error .aborted ∨
      ¬ (EndsAtNetwork frame ∨ EndsAtTransport frame) ∧
        ∃ p, parsePacket frame fuel = .ok p ∧ Layered frame p := by
  obtain ⟨p,hether,hp⟩ := parseEther_spec hfuel
  have hipv4 : EndsAtTransport frame → ∃ n, Ipv4At frame n ∧ be16 frame (n + 6) &&& ipOffmask = 0 := by
    rintro ⟨protocol,_,hat⟩
    obtain ⟨n,hat,hwhole,_⟩ := hat.named
    exact ⟨n,hat,hwhole⟩
  simp only [parsePacket,hether,ok_bind]
  rcases parseL3_spec hp with ⟨hends,hl3⟩ | ⟨hends,⟨hl3,ht⟩ | ⟨p',hl3,hp'⟩⟩
  · rw [hl3]
    exact .inl ⟨.inl hends,rfl⟩
  · rw [hl3]
    refine .inr ⟨not_or.mpr ⟨hends,fun htransport => ?_⟩,p,rfl,hp.layered⟩
    obtain ⟨n,hat,_⟩ := hipv4 htransport
    refine hp.notIpv4At (fun heq => ht ?_) n hat
    rw [heq]
    decide
  · simp only [hl3,ok_bind]
    split
    · rename_i hnone
      refine .inr ⟨not_or.mpr ⟨hends,fun htransport => ?_⟩,p',rfl,hp'.layered⟩
      obtain ⟨n,hat,_⟩ := hipv4 htransport
      exact hp'.complete n hat hnone
    · rename_i hhas
      split
      · rename_i hfrag
        refine .inr ⟨not_or.mpr ⟨hends,fun htransport => ?_⟩,p',rfl,hp'.layered⟩
        obtain ⟨n,hat,hwhole⟩ := hipv4 htransport
        obtain ⟨n',hat',_,hfield,_⟩ := hp'.ipv4 hhas
        rw [hfield,← hat.unique hat'] at hfrag
        exact hfrag hwhole
      · rename_i hwhole
        rcases parseL4_spec hp' hhas (not_not.mp hwhole) with ⟨htransport,hl4⟩ | ⟨htransport,p'',hl4,hlayered⟩
        · exact .inl ⟨.inr htransport,hl4⟩
        · exact .inr ⟨not_or.mpr ⟨hends,htransport⟩,p'',hl4,hlayered⟩

end Packets

end Trema.Packet
