import Trema.Packet.Normalize

namespace Trema.Packet

open Library
open OpenFlow
open Table

variable {m m' : OfpMatch} {w c : UInt32}

section Absorption

theorem or_absorb_or (h : w ||| c = w) (d : UInt32) : (w ||| d) ||| c = w ||| d := by
  rw [UInt32.or_assoc,UInt32.or_comm d,← UInt32.or_assoc,h]

theorem or_absorb_self : (w ||| c) ||| c = w ||| c := by
  rw [UInt32.or_assoc,UInt32.or_self]

theorem has_of_absorb {flag : UInt32} (h : w ||| c = w) (hc : Has c flag) : Has w flag := by
  rw [← h]
  exact has_or_self hc

theorem absorb_part {d : UInt32} (h : w ||| c = w) (hd : c ||| d = c) : w ||| d = w := by
  rw [← h,UInt32.or_assoc,hd]

theorem or_within (hw : w &&& ofpfwAll = w) (hc : c &&& ofpfwAll = c) : (w ||| c) &&& ofpfwAll = w ||| c := by
  rw [Table.or_and_right,hw,hc]

theorem clearAddress_within {mask all : UInt32} (hw : w &&& ofpfwAll = w) (ha : all &&& ofpfwAll = all) :
    clearAddress mask all w &&& ofpfwAll = clearAddress mask all w := by
  refine or_within ?_ ha
  rw [UInt32.and_assoc,UInt32.and_comm _ ofpfwAll,← UInt32.and_assoc,hw]

theorem clearAddress_absorb {mask all : UInt32} (hm : mask &&& addressMasks = mask)
    (hc : c &&& addressMasks = 0) (h : w ||| c = w) : clearAddress mask all w ||| c = clearAddress mask all w := by
  rw [clearAddress]
  rw [eq_iff_bits] at *
  intro i hi
  have hmi := hm i hi
  have hci := hc i hi
  have hwi := h i hi
  simp only [UInt32.toBitVec_or,UInt32.toBitVec_and,UInt32.toBitVec_not,BitVec.getLsbD_or,BitVec.getLsbD_and,
    BitVec.getLsbD_not,UInt32.toBitVec_zero,BitVec.getLsbD_zero,hi] at *
  grind

end Absorption

section Forms

def linkFlags : UInt32 := ofpfwInPort ||| ofpfwDlVlan ||| ofpfwDlVlanPcp ||| ofpfwDlSrc ||| ofpfwDlDst

structure LinkNormal (m : OfpMatch) : Prop where
  pad1 : m.pad1 = 0
  pad2 : m.pad2 = 0
  wildcards : m.wildcards &&& ofpfwAll = m.wildcards
  inPort : Has m.wildcards ofpfwInPort → m.inPort = 0
  dlVlan : Has m.wildcards ofpfwDlVlan → m.dlVlan = 0
  untagged : ¬ Has m.wildcards ofpfwDlVlan → m.dlVlan = 0xffff → m.wildcards ||| ofpfwDlVlanPcp = m.wildcards
  vid : ¬ Has m.wildcards ofpfwDlVlan → m.dlVlan ≠ 0xffff → m.dlVlan &&& vlanVidMask = m.dlVlan
  dlSrc : Has m.wildcards ofpfwDlSrc → m.dlSrc = zeroMac
  dlDst : Has m.wildcards ofpfwDlDst → m.dlDst = zeroMac

structure SameLink (m m' : OfpMatch) : Prop where
  pad1 : m'.pad1 = m.pad1
  pad2 : m'.pad2 = m.pad2
  inPort : m'.inPort = m.inPort
  dlVlan : m'.dlVlan = m.dlVlan
  dlSrc : m'.dlSrc = m.dlSrc
  dlDst : m'.dlDst = m.dlDst
  flags : ∀ flag, flag &&& linkFlags = flag → (Has m'.wildcards flag ↔ Has m.wildcards flag)
  untagged : m.wildcards ||| ofpfwDlVlanPcp = m.wildcards → m'.wildcards ||| ofpfwDlVlanPcp = m'.wildcards
  within : m.wildcards &&& ofpfwAll = m.wildcards → m'.wildcards &&& ofpfwAll = m'.wildcards

theorem LinkNormal.same (h : LinkNormal m) (hs : SameLink m m') : LinkNormal m' where
  pad1 := hs.pad1.trans h.pad1
  pad2 := hs.pad2.trans h.pad2
  wildcards := hs.within h.wildcards
  inPort := fun hw => hs.inPort.trans (h.inPort ((hs.flags _ (by decide)).mp hw))
  dlVlan := fun hw => hs.dlVlan.trans (h.dlVlan ((hs.flags _ (by decide)).mp hw))
  untagged := fun hw hv => hs.untagged
    (h.untagged (fun hm => hw ((hs.flags _ (by decide)).mpr hm)) (hs.dlVlan.symm.trans hv))
  vid := fun hw hv => by
    rw [hs.dlVlan] at hv ⊢
    exact h.vid (fun hm => hw ((hs.flags _ (by decide)).mpr hm)) hv
  dlSrc := fun hw => hs.dlSrc.trans (h.dlSrc ((hs.flags _ (by decide)).mp hw))
  dlDst := fun hw => hs.dlDst.trans (h.dlDst ((hs.flags _ (by decide)).mp hw))

theorem SameLink.refl (m : OfpMatch) : SameLink m m :=
  ⟨rfl,rfl,rfl,rfl,rfl,rfl,fun _ _ => .rfl,id,id⟩

theorem SameLink.trans {m'' : OfpMatch} (h : SameLink m m') (h' : SameLink m' m'') : SameLink m m'' :=
  ⟨h'.pad1.trans h.pad1,h'.pad2.trans h.pad2,h'.inPort.trans h.inPort,h'.dlVlan.trans h.dlVlan,
    h'.dlSrc.trans h.dlSrc,h'.dlDst.trans h.dlDst,fun flag hf => (h'.flags flag hf).trans (h.flags flag hf),
    fun hw => h'.untagged (h.untagged hw),fun hw => h'.within (h.within hw)⟩

def vlanWildcards (m : OfpMatch) : UInt32 :=
  if ¬ Has m.wildcards ofpfwDlVlan ∧ m.dlVlan = 0xffff then m.wildcards ||| ofpfwDlVlanPcp else m.wildcards

def vlanVid (m : OfpMatch) : UInt16 :=
  if Has m.wildcards ofpfwDlVlan then 0 else if m.dlVlan = 0xffff then 0xffff else m.dlVlan &&& vlanVidMask

theorem has_vlanWildcards {flag : UInt32} (hf : ofpfwDlVlanPcp &&& flag = 0) :
    Has (vlanWildcards m) flag ↔ Has m.wildcards flag := by
  rw [vlanWildcards]
  split
  · exact has_or_left (by simp [Has,hf])
  · exact .rfl

theorem normalizeVlan_eq : ∃ pcp, normalizeVlan m =
    { m with wildcards := vlanWildcards m, dlVlan := vlanVid m, dlVlanPcp := pcp } := by
  by_cases hw : Has m.wildcards ofpfwDlVlan
  · refine ⟨m.dlVlanPcp,?_⟩
    simp [normalizeVlan,vlanWildcards,vlanVid,hw]
  · by_cases hv : m.dlVlan = 0xffff
    · refine ⟨0,?_⟩
      simp [normalizeVlan,vlanWildcards,vlanVid,hw,hv,wildcard]
    · refine ⟨m.dlVlanPcp,?_⟩
      simp [normalizeVlan,vlanWildcards,vlanVid,hw,hv]

theorem normalizeInPort_eq : normalizeInPort m =
    { m with inPort := if Has m.wildcards ofpfwInPort then 0 else m.inPort } := by
  rw [normalizeInPort]
  split <;> rfl

theorem normalizeDlSrc_eq : normalizeDlSrc m =
    { m with dlSrc := if Has m.wildcards ofpfwDlSrc then zeroMac else m.dlSrc } := by
  rw [normalizeDlSrc]
  split <;> rfl

theorem normalizeDlDst_eq : normalizeDlDst m =
    { m with dlDst := if Has m.wildcards ofpfwDlDst then zeroMac else m.dlDst } := by
  rw [normalizeDlDst]
  split <;> rfl

theorem vlanVid_mask (hw : ¬ Has m.wildcards ofpfwDlVlan) (hv : vlanVid m ≠ 0xffff) :
    vlanVid m &&& vlanVidMask = vlanVid m := by
  rw [vlanVid,if_neg hw] at *
  split at hv
  · exact absurd rfl hv
  · rename_i hne
    rw [if_neg hne,UInt16.and_assoc,UInt16.and_self]

theorem vlanVid_untagged (hw : ¬ Has m.wildcards ofpfwDlVlan) (hv : vlanVid m = 0xffff) : m.dlVlan = 0xffff := by
  rw [vlanVid,if_neg hw] at hv
  split at hv
  · assumption
  · have hlow := congrArg (· &&& ~~~vlanVidMask) hv
    simp only [UInt16.and_assoc,vlanVidMask] at hlow
    exact absurd hlow (by simp; decide)

theorem linkNormal_normalizeVlan (h₁ : m.pad1 = 0) (h₂ : m.pad2 = 0)
    (hall : m.wildcards &&& ofpfwAll = m.wildcards) (hp : Has m.wildcards ofpfwInPort → m.inPort = 0) :
    LinkNormal (normalizeDlDst (normalizeDlSrc (normalizeVlan m))) := by
  obtain ⟨pcp,hv⟩ := normalizeVlan_eq (m := m)
  rw [normalizeDlDst_eq,normalizeDlSrc_eq,hv]
  refine ⟨h₁,h₂,?_,fun hw => ?_,fun hw => ?_,fun hw ht => ?_,fun hw ht => ?_,fun hw => ?_,fun hw => ?_⟩
  · simp only [vlanWildcards]
    split
    · exact or_within hall (by decide)
    · exact hall
  · exact hp ((has_vlanWildcards (by decide)).mp hw)
  · exact if_pos ((has_vlanWildcards (by decide)).mp hw)
  · have hm : ¬ Has m.wildcards ofpfwDlVlan := fun h => hw ((has_vlanWildcards (by decide)).mpr h)
    simp only [vlanWildcards]
    rw [if_pos ⟨hm,vlanVid_untagged hm ht⟩,or_absorb_self]
  · exact vlanVid_mask (fun h => hw ((has_vlanWildcards (by decide)).mpr h)) ht
  · exact if_pos hw
  · exact if_pos hw

theorem linkNormal_normalizeLink : LinkNormal (normalizeLink m) := by
  rw [normalizeLink,normalizeInPort_eq]
  refine linkNormal_normalizeVlan rfl rfl ?_ fun hw => if_pos hw
  simp only [UInt32.and_assoc,UInt32.and_self]

theorem SameLink.wildcard (hl : c &&& linkFlags = 0) (ha : c &&& ofpfwAll = c) : SameLink m (wildcard m c) := by
  refine ⟨rfl,rfl,rfl,rfl,rfl,rfl,fun flag hf => ?_,fun hw => or_absorb_or hw _,fun hw => or_within hw ha⟩
  refine has_or_left ?_
  rw [Has,← hf,UInt32.and_comm flag,← UInt32.and_assoc,hl,UInt32.zero_and]
  exact fun h => h rfl

theorem SameLink.clearPorts : SameLink m (clearPorts m) := by
  have hw := SameLink.wildcard (m := m) (c := portFlags) (by decide) (by decide)
  rw [clearPorts_eq]
  exact { hw with }

theorem SameLink.clearNetwork : SameLink m (clearNetwork m) := by
  have hw := SameLink.wildcard (m := m) (c := networkFlags) (by decide) (by decide)
  rw [clearNetwork_eq]
  exact { hw with }

theorem sameLink_normalizeDlType : SameLink m (normalizeDlType m) := by
  rw [normalizeDlType]
  split
  · have hn := SameLink.clearNetwork (m := { m with dlType := 0 })
    exact { hn with }
  · split
    · have ht := SameLink.wildcard (m := m) (c := ofpfwNwTos) (by decide) (by decide)
      have hn : SameLink m { wildcard m ofpfwNwTos with nwTos := 0 } := { ht with }
      exact hn.trans .clearPorts
    · split
      · exact SameLink.clearNetwork
      · exact SameLink.refl m

theorem sameLink_normalizeNwProto : SameLink m (normalizeNwProto m) := by
  by_cases hw : Has m.wildcards ofpfwNwProto
  · rw [normalizeNwProto,if_pos hw]
    split
    · have hp := SameLink.clearPorts (m := { m with nwProto := 0 })
      exact { hp with }
    · exact { SameLink.refl m with }
  · rw [normalizeNwProto_kept hw]
    split
    · exact SameLink.clearPorts
    · exact SameLink.refl m

theorem SameLink.clearAddress (m : OfpMatch) (mask all : UInt32) (hm : mask &&& addressMasks = mask)
    (ha : all &&& addressMasks = all) :
    SameLink m { m with wildcards := clearAddress mask all m.wildcards } := by
  refine ⟨rfl,rfl,rfl,rfl,rfl,rfl,fun flag hf => ?_,fun hw => ?_,fun hw => ?_⟩
  · refine has_clearAddress_apart hm ha ?_
    rw [← hf,UInt32.and_assoc,show linkFlags &&& addressMasks = 0 by decide,UInt32.and_zero]
  · exact clearAddress_absorb hm (by decide) hw
  · refine clearAddress_within hw ?_
    rw [← ha,UInt32.and_assoc,show addressMasks &&& ofpfwAll = addressMasks by decide]

theorem sameLink_normalizeNwSrc : SameLink m (normalizeNwSrc m) := by
  by_cases hl : 32 ≤ (m.wildcards &&& ofpfwNwSrcMask) >>> ofpfwNwSrcShift
  · have ha := SameLink.clearAddress m ofpfwNwSrcMask ofpfwNwSrcAll (by decide) (by decide)
    rw [normalizeNwSrc_long hl]
    exact { ha with }
  · rw [normalizeNwSrc_short hl]
    exact { SameLink.refl m with }

theorem sameLink_normalizeNwDst : SameLink m (normalizeNwDst m) := by
  by_cases hl : 32 ≤ (m.wildcards &&& ofpfwNwDstMask) >>> ofpfwNwDstShift
  · have ha := SameLink.clearAddress m ofpfwNwDstMask ofpfwNwDstAll (by decide) (by decide)
    rw [normalizeNwDst_long hl]
    exact { ha with }
  · rw [normalizeNwDst_short hl]
    exact { SameLink.refl m with }

def sourceLength (m : OfpMatch) : UInt32 := (m.wildcards &&& ofpfwNwSrcMask) >>> ofpfwNwSrcShift

def destinationLength (m : OfpMatch) : UInt32 := (m.wildcards &&& ofpfwNwDstMask) >>> ofpfwNwDstShift

def ipFlags : UInt32 := ofpfwNwTos ||| portFlags

def plainFlags : UInt32 := ofpfwNwProto ||| ipFlags

structure TypeNormal (m : OfpMatch) : Prop where
  dlType : Has m.wildcards ofpfwDlType → m.dlType = 0
  typed : m.dlType ≠ ethEthtypeIpv4 → m.wildcards ||| ipFlags = m.wildcards
  addressed : m.dlType ≠ ethEthtypeIpv4 → m.dlType ≠ ethEthtypeArp →
    m.wildcards ||| plainFlags = m.wildcards ∧ 32 ≤ sourceLength m ∧ 32 ≤ destinationLength m

structure ProtocolNormal (m : OfpMatch) : Prop where
  nwProto : Has m.wildcards ofpfwNwProto → m.nwProto = 0
  other : ¬ Has m.wildcards ofpfwNwProto → OtherProtocol m → m.wildcards ||| portFlags = m.wildcards

structure SourceNormal (m : OfpMatch) : Prop where
  long : 32 ≤ sourceLength m → m.wildcards &&& ofpfwNwSrcMask = ofpfwNwSrcAll
  nwSrc : m.nwSrc &&& createNwSrcMask m.wildcards = m.nwSrc

structure DestinationNormal (m : OfpMatch) : Prop where
  long : 32 ≤ destinationLength m → m.wildcards &&& ofpfwNwDstMask = ofpfwNwDstAll
  nwDst : m.nwDst &&& createNwDstMask m.wildcards = m.nwDst

structure FieldNormal (m : OfpMatch) : Prop where
  tpSrc : Has m.wildcards ofpfwTpSrc → m.tpSrc = 0
  icmpType : ¬ Has m.wildcards ofpfwTpSrc → m.nwProto = ipprotoIcmp → m.tpSrc &&& icmpTypeMask = m.tpSrc
  tpDst : Has m.wildcards ofpfwTpDst → m.tpDst = 0
  icmpCode : ¬ Has m.wildcards ofpfwTpDst → m.nwProto = ipprotoIcmp → m.tpDst &&& icmpCodeMask = m.tpDst
  dlVlanPcp : Has m.wildcards ofpfwDlVlanPcp → m.dlVlanPcp = 0
  pcp : ¬ Has m.wildcards ofpfwDlVlanPcp → m.dlVlanPcp &&& vlanPcpMask = m.dlVlanPcp
  nwTos : Has m.wildcards ofpfwNwTos → m.nwTos = 0
  tos : ¬ Has m.wildcards ofpfwNwTos → m.nwTos &&& nwTosMask = m.nwTos

structure Normal (m : OfpMatch) : Prop where
  link : LinkNormal m
  type : TypeNormal m
  protocol : ProtocolNormal m
  source : SourceNormal m
  destination : DestinationNormal m
  field : FieldNormal m

-- The later steps keep the type, and add wildcards or rewrite the prefix lengths.
structure Onward (m m' : OfpMatch) : Prop where
  dlType : m'.dlType = m.dlType
  wild : Has m'.wildcards ofpfwDlType → Has m.wildcards ofpfwDlType
  flags : ∀ c, c &&& addressMasks = 0 → m.wildcards ||| c = m.wildcards → m'.wildcards ||| c = m'.wildcards
  source : 32 ≤ sourceLength m → 32 ≤ sourceLength m'
  destination : 32 ≤ destinationLength m → 32 ≤ destinationLength m'

theorem Onward.refl (m : OfpMatch) : Onward m m := ⟨rfl,id,fun _ _ => id,id,id⟩

theorem TypeNormal.onward (h : TypeNormal m) (ho : Onward m m') : TypeNormal m' where
  dlType := fun hw => ho.dlType.trans (h.dlType (ho.wild hw))
  typed := fun ht => ho.flags _ (by decide) (h.typed (ho.dlType ▸ ht))
  addressed := fun hi ha => by
    rw [ho.dlType] at hi ha
    obtain ⟨hp,hs,hd⟩ := h.addressed hi ha
    exact ⟨ho.flags _ (by decide) hp,ho.source hs,ho.destination hd⟩

theorem Onward.clearPorts : Onward m (clearPorts m) := by
  rw [clearPorts_eq]
  refine ⟨rfl,(has_or_left (by decide)).mp,fun c _ h => or_absorb_or h _,fun h => ?_,fun h => ?_⟩
  · rwa [sourceLength,wildcard,or_and_apart (by decide)]
  · rwa [destinationLength,wildcard,or_and_apart (by decide)]

theorem onward_normalizeNwSrc : Onward m (normalizeNwSrc m) := by
  by_cases hl : 32 ≤ (m.wildcards &&& ofpfwNwSrcMask) >>> ofpfwNwSrcShift
  · rw [normalizeNwSrc_long hl]
    refine ⟨rfl,(has_clearAddress_apart (by decide) (by decide) (by decide)).mp,
      fun c hc h => clearAddress_absorb (by decide) hc h,fun _ => ?_,fun h => ?_⟩
    · rw [sourceLength,clearAddress_and (by decide)]
      decide
    · rwa [destinationLength,clearAddress_and_apart (by decide) (by decide)]
  · rw [normalizeNwSrc_short hl]
    exact { Onward.refl m with }

theorem onward_normalizeNwDst : Onward m (normalizeNwDst m) := by
  by_cases hl : 32 ≤ (m.wildcards &&& ofpfwNwDstMask) >>> ofpfwNwDstShift
  · rw [normalizeNwDst_long hl]
    refine ⟨rfl,(has_clearAddress_apart (by decide) (by decide) (by decide)).mp,
      fun c hc h => clearAddress_absorb (by decide) hc h,fun h => ?_,fun _ => ?_⟩
    · rwa [sourceLength,clearAddress_and_apart (by decide) (by decide)]
    · rw [destinationLength,clearAddress_and (by decide)]
      decide
  · rw [normalizeNwDst_short hl]
    exact { Onward.refl m with }

theorem onward_normalizeNwProto : Onward m (normalizeNwProto m) := by
  by_cases hw : Has m.wildcards ofpfwNwProto
  · have hp := Onward.clearPorts (m := { m with nwProto := 0 })
    rw [normalizeNwProto,if_pos hw]
    split
    · exact { hp with }
    · exact { Onward.refl m with }
  · rw [normalizeNwProto_kept hw]
    split
    · exact Onward.clearPorts
    · exact Onward.refl m

theorem clearNetwork_closed : (clearNetwork m).wildcards ||| plainFlags = (clearNetwork m).wildcards ∧
    32 ≤ sourceLength (clearNetwork m) ∧ 32 ≤ destinationLength (clearNetwork m) := by
  rw [clearNetwork_eq]
  refine ⟨absorb_part or_absorb_self (by decide),?_,?_⟩
  · rw [sourceLength,wildcard,or_and_all (by decide)]
    decide
  · rw [destinationLength,wildcard,or_and_all (by decide)]
    decide

theorem typeNormal_clearNetwork (hw : Has m.wildcards ofpfwDlType → m.dlType = 0) : TypeNormal (clearNetwork m) where
  dlType := fun h => by
    rw [clearNetwork_eq] at *
    exact hw ((has_or_left (by decide)).mp h)
  typed := fun _ => absorb_part clearNetwork_closed.1 (by decide)
  addressed := fun _ _ => clearNetwork_closed

theorem typeNormal_normalizeDlType : TypeNormal (normalizeDlType m) := by
  rw [normalizeDlType]
  split
  · exact typeNormal_clearNetwork fun _ => rfl
  · rename_i hw
    split
    · rename_i ha
      rw [clearPorts_eq]
      refine ⟨fun h => absurd ((has_or_left (by decide)).mp ((has_or_left (by decide)).mp h)) hw,fun _ => ?_,
        fun _ hn => absurd ha hn⟩
      simp only [wildcard]
      rw [UInt32.or_assoc m.wildcards]
      exact or_absorb_self
    · split
      · exact typeNormal_clearNetwork fun h => absurd h hw
      · rename_i hi
        rw [not_not] at hi
        exact ⟨fun h => absurd h hw,fun hn => absurd hi hn,fun hn => absurd hi hn⟩

theorem protocolNormal_normalizeNwProto : ProtocolNormal (normalizeNwProto m) := by
  refine ⟨nwProto_normalizeNwProto,fun hn ho => ?_⟩
  by_cases hw : Has m.wildcards ofpfwNwProto
  · refine absurd ?_ hn
    rw [normalizeNwProto,if_pos hw]
    split
    · exact (has_clearPorts (by decide)).mpr hw
    · exact hw
  · rw [normalizeNwProto_kept hw] at ho ⊢
    split
    · rw [clearPorts_eq]
      exact or_absorb_self
    · rename_i hno
      rw [if_neg hno] at ho
      exact absurd ho hno

theorem ProtocolNormal.onward (h : ProtocolNormal m) (ho : Onward m m') (hp : m'.nwProto = m.nwProto)
    (hw : Has m'.wildcards ofpfwNwProto ↔ Has m.wildcards ofpfwNwProto) : ProtocolNormal m' where
  nwProto := fun hm => hp.trans (h.nwProto (hw.mp hm))
  other := fun hm hother => ho.flags _ (by decide) <| by
    rw [OtherProtocol,ho.dlType,hp] at hother
    exact h.other (fun hn => hm (hw.mpr hn)) hother

theorem sourceNormal_normalizeNwSrc : SourceNormal (normalizeNwSrc m) := by
  by_cases hl : 32 ≤ (m.wildcards &&& ofpfwNwSrcMask) >>> ofpfwNwSrcShift
  · rw [normalizeNwSrc_long hl]
    exact ⟨fun _ => clearAddress_and (by decide),UInt32.zero_and⟩
  · rw [normalizeNwSrc_short hl]
    refine ⟨fun h => absurd h hl,?_⟩
    simp only [UInt32.and_assoc,UInt32.and_self]

theorem destinationNormal_normalizeNwDst : DestinationNormal (normalizeNwDst m) := by
  by_cases hl : 32 ≤ (m.wildcards &&& ofpfwNwDstMask) >>> ofpfwNwDstShift
  · rw [normalizeNwDst_long hl]
    exact ⟨fun _ => clearAddress_and (by decide),UInt32.zero_and⟩
  · rw [normalizeNwDst_short hl]
    refine ⟨fun h => absurd h hl,?_⟩
    simp only [UInt32.and_assoc,UInt32.and_self]

theorem SourceNormal.normalizeNwDst (h : SourceNormal m) : SourceNormal (normalizeNwDst m) := by
  by_cases hl : 32 ≤ (m.wildcards &&& ofpfwNwDstMask) >>> ofpfwNwDstShift
  · have hs : clearAddress ofpfwNwDstMask ofpfwNwDstAll m.wildcards &&& ofpfwNwSrcMask = m.wildcards &&& ofpfwNwSrcMask :=
      clearAddress_and_apart (by decide) (by decide)
    rw [normalizeNwDst_long hl]
    refine ⟨fun hlong => ?_,?_⟩
    · rw [sourceLength,hs] at hlong
      exact hs.trans (h.long hlong)
    · exact (congrArg (m.nwSrc &&& ·) (createNwMask_congr hs)).trans h.nwSrc
  · rw [normalizeNwDst_short hl]
    exact { h with }

theorem network_normal : TypeNormal (normalizeNetwork m) ∧ ProtocolNormal (normalizeNetwork m) ∧
    SourceNormal (normalizeNetwork m) ∧ DestinationNormal (normalizeNetwork m) := by
  rw [normalizeNetwork]
  refine ⟨?_,?_,sourceNormal_normalizeNwSrc.normalizeNwDst,destinationNormal_normalizeNwDst⟩
  · exact ((typeNormal_normalizeDlType.onward onward_normalizeNwProto).onward onward_normalizeNwSrc).onward
      onward_normalizeNwDst
  · exact (protocolNormal_normalizeNwProto.onward onward_normalizeNwSrc nwProto_normalizeNwSrc
      (has_normalizeNwSrc (by decide))).onward onward_normalizeNwDst nwProto_normalizeNwDst
      (has_normalizeNwDst (by decide))

theorem sameLink_normalizeNetwork : SameLink m (normalizeNetwork m) :=
  ((sameLink_normalizeDlType.trans sameLink_normalizeNwProto).trans sameLink_normalizeNwSrc).trans
    sameLink_normalizeNwDst

def clippedPort (w flag : UInt32) (proto : UInt8) (mask port : UInt16) : UInt16 :=
  if Has w flag then 0 else if proto = ipprotoIcmp then port &&& mask else port

def clippedBits (w flag : UInt32) (mask bits : UInt8) : UInt8 := if Has w flag then 0 else bits &&& mask

section Clipping

variable {flag : UInt32} {proto pmask bits : UInt8} {mask port : UInt16}

theorem clippedPort_has (hw : Has w flag) : clippedPort w flag proto mask port = 0 := if_pos hw

theorem clippedPort_icmp (hw : ¬ Has w flag) (hp : proto = ipprotoIcmp) :
    clippedPort w flag proto mask port &&& mask = clippedPort w flag proto mask port := by
  rw [clippedPort,if_neg hw,if_pos hp,UInt16.and_assoc,UInt16.and_self]

theorem clippedPort_of (hz : Has w flag → port = 0) (hm : ¬ Has w flag → proto = ipprotoIcmp → port &&& mask = port) :
    clippedPort w flag proto mask port = port := by
  rw [clippedPort]
  split
  · rename_i hw
    exact (hz hw).symm
  · rename_i hw
    split
    · rename_i hp
      exact hm hw hp
    · rfl

theorem clippedBits_has (hw : Has w flag) : clippedBits w flag pmask bits = 0 := if_pos hw

theorem clippedBits_mask (hw : ¬ Has w flag) : clippedBits w flag pmask bits &&& pmask = clippedBits w flag pmask bits := by
  rw [clippedBits,if_neg hw,UInt8.and_assoc,UInt8.and_self]

theorem clippedBits_of (hz : Has w flag → bits = 0) (hm : ¬ Has w flag → bits &&& pmask = bits) :
    clippedBits w flag pmask bits = bits := by
  rw [clippedBits]
  split
  · rename_i hw
    exact (hz hw).symm
  · rename_i hw
    exact hm hw

end Clipping

def normalizeFields (m : OfpMatch) : OfpMatch :=
  { m with
    tpSrc := clippedPort m.wildcards ofpfwTpSrc m.nwProto icmpTypeMask m.tpSrc
    tpDst := clippedPort m.wildcards ofpfwTpDst m.nwProto icmpCodeMask m.tpDst
    dlVlanPcp := clippedBits m.wildcards ofpfwDlVlanPcp vlanPcpMask m.dlVlanPcp
    nwTos := clippedBits m.wildcards ofpfwNwTos nwTosMask m.nwTos }

theorem normalizeTpSrc_eq : normalizeTpSrc m =
    { m with tpSrc := clippedPort m.wildcards ofpfwTpSrc m.nwProto icmpTypeMask m.tpSrc } := by
  rw [normalizeTpSrc,clippedPort]
  split
  · rfl
  · split <;> rfl

theorem normalizeTpDst_eq : normalizeTpDst m =
    { m with tpDst := clippedPort m.wildcards ofpfwTpDst m.nwProto icmpCodeMask m.tpDst } := by
  rw [normalizeTpDst,clippedPort]
  split
  · rfl
  · split <;> rfl

theorem normalizeDlVlanPcp_eq : normalizeDlVlanPcp m =
    { m with dlVlanPcp := clippedBits m.wildcards ofpfwDlVlanPcp vlanPcpMask m.dlVlanPcp } := by
  rw [normalizeDlVlanPcp,clippedBits]
  split <;> rfl

theorem normalizeNwTos_eq : normalizeNwTos m =
    { m with nwTos := clippedBits m.wildcards ofpfwNwTos nwTosMask m.nwTos } := by
  rw [normalizeNwTos,clippedBits]
  split <;> rfl

theorem normalizeFields_eq : normalizeNwTos (normalizeDlVlanPcp (normalizeTransport m)) = normalizeFields m := by
  rw [normalizeTransport,normalizeTpSrc_eq,normalizeTpDst_eq,normalizeDlVlanPcp_eq,normalizeNwTos_eq]
  rfl

theorem normalizeMatch_eq : normalizeMatch m = normalizeFields (normalizeNetwork (normalizeLink m)) := normalizeFields_eq

theorem fieldNormal_normalizeFields : FieldNormal (normalizeFields m) where
  tpSrc := clippedPort_has
  icmpType := clippedPort_icmp
  tpDst := clippedPort_has
  icmpCode := clippedPort_icmp
  dlVlanPcp := clippedBits_has
  pcp := clippedBits_mask
  nwTos := clippedBits_has
  tos := clippedBits_mask

theorem normal_normalizeMatch : Normal (normalizeMatch m) := by
  have hlink := (linkNormal_normalizeLink (m := m)).same sameLink_normalizeNetwork
  obtain ⟨htype,hprotocol,hsource,hdestination⟩ := network_normal (m := normalizeLink m)
  rw [normalizeMatch_eq]
  exact ⟨{ hlink with },{ htype with },{ hprotocol with },{ hsource with },{ hdestination with },
    fieldNormal_normalizeFields⟩

theorem normalizeFields_fixed (h : FieldNormal m) : normalizeFields m = m := by
  rw [normalizeFields,clippedPort_of h.tpSrc h.icmpType,clippedPort_of h.tpDst h.icmpCode,
    clippedBits_of h.dlVlanPcp h.pcp,clippedBits_of h.nwTos h.tos]

theorem normalizeVlan_fixed (h : LinkNormal m) (hf : FieldNormal m) : normalizeVlan m = m := by
  rw [normalizeVlan]
  split
  · rename_i hw
    rw [← h.dlVlan hw]
  · rename_i hw
    split
    · rename_i hv
      have hp := h.untagged hw hv
      rw [wildcard,hp,← hf.dlVlanPcp (has_of_absorb hp (by decide))]
    · rename_i hv
      rw [h.vid hw hv]

theorem normalizeLink_fixed (h : LinkNormal m) (hf : FieldNormal m) : normalizeLink m = m := by
  have hm : ({ m with pad1 := 0, pad2 := 0, wildcards := m.wildcards &&& ofpfwAll } : OfpMatch) = m := by
    rw [h.wildcards,← h.pad1,← h.pad2]
  rw [normalizeLink,hm,normalizeInPort_eq,ite_eq_right_iff.mpr fun hw => (h.inPort hw).symm,normalizeVlan_fixed h hf,
    normalizeDlSrc_eq,ite_eq_right_iff.mpr fun hw => (h.dlSrc hw).symm,normalizeDlDst_eq,
    ite_eq_right_iff.mpr fun hw => (h.dlDst hw).symm]

theorem wildcard_fixed (h : m.wildcards ||| c = m.wildcards) : wildcard m c = m := by
  rw [wildcard,h]

theorem ports_fixed (hs : m.tpSrc = 0) (hd : m.tpDst = 0) : { m with tpSrc := 0, tpDst := 0 } = m := by
  cases m
  simp only at hs hd
  rw [hs,hd]

theorem clearPorts_fixed (h : m.wildcards ||| portFlags = m.wildcards) (hf : FieldNormal m) : clearPorts m = m := by
  rw [clearPorts_eq,wildcard_fixed h,
    ports_fixed (hf.tpSrc (has_of_absorb h (by decide))) (hf.tpDst (has_of_absorb h (by decide)))]

theorem clearAddress_fixed {mask all : UInt32} (h : w &&& mask = all) : clearAddress mask all w = w := by
  rw [clearAddress,← h,eq_iff_bits]
  intro i hi
  simp only [UInt32.toBitVec_or,UInt32.toBitVec_and,UInt32.toBitVec_not,BitVec.getLsbD_or,BitVec.getLsbD_and,
    BitVec.getLsbD_not,hi]
  grind

theorem clearAddress_opened (hp : w ||| plainFlags = w) (hs : w &&& ofpfwNwSrcMask = ofpfwNwSrcAll)
    (hd : w &&& ofpfwNwDstMask = ofpfwNwDstAll) : clearAddress ofpfwNwDstMask ofpfwNwDstAll
      (clearAddress ofpfwNwSrcMask ofpfwNwSrcAll (w ||| networkFlags)) = w := by
  have hflags : networkFlags = plainFlags ||| (ofpfwNwSrcMask ||| ofpfwNwDstMask) := by decide
  rw [clearAddress,clearAddress,hflags,← hs,← hd]
  rw [eq_iff_bits] at *
  intro i hi
  have hpi := hp i hi
  simp only [UInt32.toBitVec_or,UInt32.toBitVec_and,UInt32.toBitVec_not,BitVec.getLsbD_or,BitVec.getLsbD_and,
    BitVec.getLsbD_not,hi] at *
  grind

theorem nwSrc_long (h : SourceNormal m) (hl : 32 ≤ sourceLength m) : m.nwSrc = 0 := by
  rw [← h.nwSrc,createNwSrcMask,createNwMask_long hl,UInt32.and_zero]

theorem nwDst_long (h : DestinationNormal m) (hl : 32 ≤ destinationLength m) : m.nwDst = 0 := by
  rw [← h.nwDst,createNwDstMask,createNwMask_long hl,UInt32.and_zero]

theorem normalizeNwSrc_fixed (h : SourceNormal m) : normalizeNwSrc m = m := by
  by_cases hl : 32 ≤ sourceLength m
  · rw [normalizeNwSrc_long hl,clearAddress_fixed (h.long hl),← nwSrc_long h hl]
  · rw [normalizeNwSrc_short hl,h.nwSrc]

theorem normalizeNwDst_fixed (h : DestinationNormal m) : normalizeNwDst m = m := by
  by_cases hl : 32 ≤ destinationLength m
  · rw [normalizeNwDst_long hl,clearAddress_fixed (h.long hl),← nwDst_long h hl]
  · rw [normalizeNwDst_short hl,h.nwDst]

theorem normalizeNwProto_fixed (h : ProtocolNormal m) (ht : TypeNormal m) (hf : FieldNormal m) :
    normalizeNwProto m = m := by
  by_cases hw : Has m.wildcards ofpfwNwProto
  · have hz : { m with nwProto := 0 } = m := by
      rw [← h.nwProto hw]
    rw [normalizeNwProto,if_pos hw,hz]
    split
    · rename_i hi
      exact clearPorts_fixed (absorb_part (ht.typed hi) (by decide)) hf
    · rfl
  · rw [normalizeNwProto_kept hw]
    split
    · rename_i ho
      exact clearPorts_fixed (h.other hw ho) hf
    · rfl

theorem normalizeDlType_typed (ht : TypeNormal m) (hf : FieldNormal m)
    (hk : m.dlType = ethEthtypeIpv4 ∨ m.dlType = ethEthtypeArp) : normalizeDlType m = m := by
  have hw : ¬ Has m.wildcards ofpfwDlType := by
    intro hw
    rw [ht.dlType hw] at hk
    exact absurd hk (by decide)
  rw [normalizeDlType,if_neg hw]
  rcases hk with hk | hk
  · rw [if_neg (by rw [hk]; decide),if_neg (not_not.mpr hk)]
  · have hi : m.dlType ≠ ethEthtypeIpv4 := by
      rw [hk]
      decide
    have habs := ht.typed hi
    have hz : { m with nwTos := 0 } = m := by
      rw [← hf.nwTos (has_of_absorb habs (by decide))]
    rw [if_pos hk,wildcard_fixed (absorb_part habs (by decide)),hz,
      clearPorts_fixed (absorb_part habs (by decide)) hf]

theorem clearNetwork_normal (h : Normal m) (hp : m.wildcards ||| plainFlags = m.wildcards)
    (hs : 32 ≤ sourceLength m) (hd : 32 ≤ destinationLength m) : clearNetwork m = wildcard m networkFlags := by
  have hz : ({ m with nwTos := 0, nwProto := 0, nwSrc := 0, nwDst := 0, tpSrc := 0, tpDst := 0 } : OfpMatch) = m := by
    have htos := h.field.nwTos (has_of_absorb hp (by decide))
    have hproto := h.protocol.nwProto (has_of_absorb hp (by decide))
    have hsrc := h.field.tpSrc (has_of_absorb hp (by decide))
    have hdst := h.field.tpDst (has_of_absorb hp (by decide))
    have hns := nwSrc_long h.source hs
    have hnd := nwDst_long h.destination hd
    cases m
    simp only at *
    rw [htos,hproto,hsrc,hdst,hns,hnd]
  rw [clearNetwork_eq]
  exact congrArg (wildcard · networkFlags) hz

theorem normalizeDlType_untyped (ht : TypeNormal m) (hi : m.dlType ≠ ethEthtypeIpv4) (ha : m.dlType ≠ ethEthtypeArp) :
    normalizeDlType m = clearNetwork m := by
  by_cases hw : Has m.wildcards ofpfwDlType
  · rw [normalizeDlType,if_pos hw,← ht.dlType hw]
  · rw [normalizeDlType,if_neg hw,if_neg ha,if_pos hi]

theorem normalizeNwProto_opened (h : Normal m) (hp : m.wildcards ||| plainFlags = m.wildcards)
    (hi : m.dlType ≠ ethEthtypeIpv4) : normalizeNwProto (wildcard m networkFlags) = wildcard m networkFlags := by
  have hw : Has (wildcard m networkFlags).wildcards ofpfwNwProto := has_or_self (by decide)
  have hproto : (wildcard m networkFlags).nwProto = 0 := h.protocol.nwProto (has_of_absorb hp (by decide))
  have hz : { wildcard m networkFlags with nwProto := 0 } = wildcard m networkFlags := by
    rw [← hproto]
  have htype : (wildcard m networkFlags).dlType ≠ ethEthtypeIpv4 := hi
  rw [normalizeNwProto,if_pos hw,hz,if_pos htype,clearPorts_eq,
    wildcard_fixed (absorb_part or_absorb_self (by decide))]
  exact ports_fixed (h.field.tpSrc (has_of_absorb hp (by decide))) (h.field.tpDst (has_of_absorb hp (by decide)))

theorem normalizeNwSrc_opened (h : Normal m) (hs : 32 ≤ sourceLength m) : normalizeNwSrc (wildcard m networkFlags) =
    { m with wildcards := clearAddress ofpfwNwSrcMask ofpfwNwSrcAll (m.wildcards ||| networkFlags) } := by
  have hl : 32 ≤ sourceLength (wildcard m networkFlags) := by
    rw [sourceLength,wildcard,or_and_all (by decide)]
    decide
  have hz : { m with nwSrc := 0 } = m := by
    rw [← nwSrc_long h.source hs]
  rw [normalizeNwSrc_long (m := wildcard m networkFlags) hl]
  exact congrArg (fun n : OfpMatch =>
    { n with wildcards := clearAddress ofpfwNwSrcMask ofpfwNwSrcAll (m.wildcards ||| networkFlags) }) hz

theorem normalizeNwDst_opened (h : Normal m) (hd : 32 ≤ destinationLength m)
    (hw : 32 ≤ (w &&& ofpfwNwDstMask) >>> ofpfwNwDstShift) :
    normalizeNwDst { m with wildcards := w } = { m with wildcards := clearAddress ofpfwNwDstMask ofpfwNwDstAll w } := by
  have hz : { m with nwDst := 0 } = m := by
    rw [← nwDst_long h.destination hd]
  rw [normalizeNwDst_long (m := { m with wildcards := w }) hw]
  exact congrArg (fun n : OfpMatch => { n with wildcards := clearAddress ofpfwNwDstMask ofpfwNwDstAll w }) hz

theorem normalizeNetwork_untyped (h : Normal m) (hi : m.dlType ≠ ethEthtypeIpv4) (ha : m.dlType ≠ ethEthtypeArp) :
    normalizeNetwork m = m := by
  obtain ⟨hp,hs,hd⟩ := h.type.addressed hi ha
  rw [normalizeNetwork,normalizeDlType_untyped h.type hi ha,clearNetwork_normal h hp hs hd,
    normalizeNwProto_opened h hp hi,normalizeNwSrc_opened h hs,normalizeNwDst_opened h hd,
    clearAddress_opened hp (h.source.long hs) (h.destination.long hd)]
  rw [clearAddress_and_apart (by decide) (by decide),or_and_all (by decide)]
  decide

theorem normalizeMatch_fixed (h : Normal m) : normalizeMatch m = m := by
  have hn : normalizeNetwork m = m := by
    by_cases hk : m.dlType = ethEthtypeIpv4 ∨ m.dlType = ethEthtypeArp
    · rw [normalizeNetwork,normalizeDlType_typed h.type h.field hk,normalizeNwProto_fixed h.protocol h.type h.field,
        normalizeNwSrc_fixed h.source,normalizeNwDst_fixed h.destination]
    · obtain ⟨hi,ha⟩ := not_or.mp hk
      exact normalizeNetwork_untyped h hi ha
  rw [normalizeMatch_eq,normalizeLink_fixed h.link h.field,hn,normalizeFields_fixed h.field]

theorem normalizeMatch_idempotent (m : OfpMatch) : normalizeMatch (normalizeMatch m) = normalizeMatch m :=
  normalizeMatch_fixed normal_normalizeMatch

end Forms

end Trema.Packet
