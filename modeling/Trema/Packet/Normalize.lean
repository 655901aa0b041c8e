import Trema.Packet.MatchFromPacket

namespace Trema.Packet

open Library
open OpenFlow
open Table

section Bits

variable {w c flag : UInt32}

theorem has_and (h : c &&& flag = flag) : Has (w &&& c) flag ↔ Has w flag := by
  rw [Has,Has,UInt32.and_assoc,h]

theorem has_or_left (h : ¬ Has c flag) : Has (w ||| c) flag ↔ Has w flag := by
  rw [has_or,or_iff_left h]

theorem has_or_self (h : Has c flag) : Has (w ||| c) flag := has_or.mpr (.inr h)

theorem createNwMask_congr {mask shift w' : UInt32} (h : w &&& mask = w' &&& mask) :
    createNwMask mask shift w = createNwMask mask shift w' := by
  rw [createNwMask,createNwMask,h]

theorem or_and_apart (h : c &&& flag = 0) : (w ||| c) &&& flag = w &&& flag := by
  rw [Table.or_and_right,h,UInt32.or_zero]

end Bits

section Clearing

variable {m : OfpMatch}

def portFlags : UInt32 := ofpfwTpSrc ||| ofpfwTpDst

def networkFlags : UInt32 :=
  ofpfwNwTos ||| (ofpfwNwProto ||| (ofpfwNwSrcMask ||| (ofpfwNwDstMask ||| (ofpfwTpSrc ||| ofpfwTpDst))))

theorem clearPorts_eq : clearPorts m = { wildcard m portFlags with tpSrc := 0, tpDst := 0 } := by
  simp [clearPorts,wildcard,portFlags,UInt32.or_assoc]

theorem clearNetwork_eq : clearNetwork m =
    { wildcard m networkFlags with nwTos := 0, nwProto := 0, nwSrc := 0, nwDst := 0, tpSrc := 0, tpDst := 0 } := by
  simp [clearNetwork,clearPorts,wildcard,networkFlags,UInt32.or_assoc]

end Clearing

section Agreement

-- The match covers the exact match of a packet, field by field.
structure Agrees (m e : OfpMatch) : Prop where
  inPort : Has m.wildcards ofpfwInPort ∨ m.inPort = e.inPort
  dlVlan : Has m.wildcards ofpfwDlVlan ∨ m.dlVlan = e.dlVlan
  dlVlanPcp : Has m.wildcards ofpfwDlVlanPcp ∨ m.dlVlanPcp = e.dlVlanPcp
  dlSrc : Has m.wildcards ofpfwDlSrc ∨ m.dlSrc = e.dlSrc
  dlDst : Has m.wildcards ofpfwDlDst ∨ m.dlDst = e.dlDst
  dlType : Has m.wildcards ofpfwDlType ∨ m.dlType = e.dlType
  nwSrc : m.nwSrc &&& createNwSrcMask m.wildcards = e.nwSrc &&& createNwSrcMask m.wildcards
  nwDst : m.nwDst &&& createNwDstMask m.wildcards = e.nwDst &&& createNwDstMask m.wildcards
  nwTos : Has m.wildcards ofpfwNwTos ∨ m.nwTos = e.nwTos
  nwProto : Has m.wildcards ofpfwNwProto ∨ m.nwProto = e.nwProto
  tpSrc : Has m.wildcards ofpfwTpSrc ∨ m.tpSrc = e.tpSrc
  tpDst : Has m.wildcards ofpfwTpDst ∨ m.tpDst = e.tpDst

variable {m e : OfpMatch}

theorem fieldMatches_has {α : Type} [DecidableEq α] {w flag : UInt32} {a b : α} :
    fieldMatches w flag (a == b) = true ↔ Has w flag ∨ a = b := by
  simp [fieldMatches,Has]

theorem compareMatch_iff_agrees (he : e.wildcards = 0) : compareMatch m e = true ↔ Agrees m e := by
  have hsm : createNwSrcMask 0 = 0xffffffff := by decide
  have hdm : createNwDstMask 0 = 0xffffffff := by decide
  simp only [compareMatch,fieldsMatch,he,UInt32.or_zero,hsm,hdm,and_ones,Bool.and_eq_true,fieldMatches_has,
    beq_iff_eq,xor_and_eq_zero]
  constructor
  · rintro ⟨⟨⟨⟨⟨⟨⟨⟨⟨⟨⟨h₁,h₂⟩,h₃⟩,h₄⟩,h₅⟩,h₆⟩,h₇⟩,h₈⟩,h₉⟩,h₁₀⟩,h₁₁⟩,h₁₂⟩
    exact ⟨h₁,h₂,h₃,h₄,h₅,h₆,h₇,h₈,h₉,h₁₀,h₁₁,h₁₂⟩
  · intro h
    exact ⟨⟨⟨⟨⟨⟨⟨⟨⟨⟨⟨h.inPort,h.dlVlan⟩,h.dlVlanPcp⟩,h.dlSrc⟩,h.dlDst⟩,h.dlType⟩,h.nwSrc⟩,h.nwDst⟩,h.nwTos⟩,
      h.nwProto⟩,h.tpSrc⟩,h.tpDst⟩

variable {w c : UInt32}

def addressMasks : UInt32 := ofpfwNwSrcMask ||| ofpfwNwDstMask

theorem Agrees.rewild (h : Agrees m e)
    (hf : ∀ flag, flag &&& addressMasks = 0 → Has m.wildcards flag → Has w flag)
    (hs : m.nwSrc &&& createNwSrcMask w = e.nwSrc &&& createNwSrcMask w)
    (hd : m.nwDst &&& createNwDstMask w = e.nwDst &&& createNwDstMask w) :
    Agrees { m with wildcards := w } e where
  inPort := h.inPort.imp_left (hf _ (by decide))
  dlVlan := h.dlVlan.imp_left (hf _ (by decide))
  dlVlanPcp := h.dlVlanPcp.imp_left (hf _ (by decide))
  dlSrc := h.dlSrc.imp_left (hf _ (by decide))
  dlDst := h.dlDst.imp_left (hf _ (by decide))
  dlType := h.dlType.imp_left (hf _ (by decide))
  nwSrc := hs
  nwDst := hd
  nwTos := h.nwTos.imp_left (hf _ (by decide))
  nwProto := h.nwProto.imp_left (hf _ (by decide))
  tpSrc := h.tpSrc.imp_left (hf _ (by decide))
  tpDst := h.tpDst.imp_left (hf _ (by decide))

theorem createNwMask_all {mask shift : UInt32} (hall : 32 ≤ mask >>> shift) (h : w &&& mask = mask) :
    createNwMask mask shift w = 0 := by
  simp only [createNwMask,h]
  exact if_pos hall

theorem or_and_all {mask : UInt32} (h : c &&& mask = mask) : (w ||| c) &&& mask = mask := by
  have hor : w &&& mask ||| mask = mask := eq_iff_bits.mpr fun i hi => by
    simp only [UInt32.toBitVec_or,UInt32.toBitVec_and,BitVec.getLsbD_or,BitVec.getLsbD_and]
    cases w.toBitVec.getLsbD i <;> simp
  rw [Table.or_and_right,h,hor]

theorem address_wildcard {mask shift a b : UInt32} (hall : 32 ≤ mask >>> shift)
    (hc : c &&& mask = 0 ∨ c &&& mask = mask)
    (h : a &&& createNwMask mask shift w = b &&& createNwMask mask shift w) :
    a &&& createNwMask mask shift (w ||| c) = b &&& createNwMask mask shift (w ||| c) := by
  rcases hc with hc | hc
  · rwa [createNwMask_congr (or_and_apart hc)]
  · rw [createNwMask_all hall (or_and_all hc),UInt32.and_zero,UInt32.and_zero]

theorem Agrees.wildcard (h : Agrees m e) (hs : c &&& ofpfwNwSrcMask = 0 ∨ c &&& ofpfwNwSrcMask = ofpfwNwSrcMask)
    (hd : c &&& ofpfwNwDstMask = 0 ∨ c &&& ofpfwNwDstMask = ofpfwNwDstMask) : Agrees (wildcard m c) e :=
  h.rewild (fun _ _ hw => has_or.mpr (.inl hw)) (address_wildcard (by decide) hs h.nwSrc)
    (address_wildcard (by decide) hd h.nwDst)

theorem Agrees.clearPorts (h : Agrees m e) : Agrees (clearPorts m) e := by
  have hw := h.wildcard (c := portFlags) (.inl (by decide)) (.inl (by decide))
  rw [clearPorts_eq]
  exact { hw with tpSrc := .inl (has_or_self (by decide)), tpDst := .inl (has_or_self (by decide)) }

theorem Agrees.clearNetwork (h : Agrees m e) : Agrees (clearNetwork m) e := by
  have hw := h.wildcard (c := networkFlags) (.inr (by decide)) (.inr (by decide))
  have hs : createNwSrcMask (m.wildcards ||| networkFlags) = 0 :=
    createNwMask_all (by decide) (or_and_all (by decide))
  have hd : createNwDstMask (m.wildcards ||| networkFlags) = 0 :=
    createNwMask_all (by decide) (or_and_all (by decide))
  rw [clearNetwork_eq]
  exact { hw with
    nwTos := .inl (has_or_self (by decide))
    nwProto := .inl (has_or_self (by decide))
    nwSrc := by simp only [Packet.wildcard,hs,UInt32.and_zero]
    nwDst := by simp only [Packet.wildcard,hd,UInt32.and_zero]
    tpSrc := .inl (has_or_self (by decide))
    tpDst := .inl (has_or_self (by decide)) }

-- What set_match_from_packet makes of any packet.
structure Exact (e : OfpMatch) : Prop where
  wildcards : e.wildcards = 0
  dlVlan : e.dlVlan = 0xffff ∨ e.dlVlan &&& vlanVidMask = e.dlVlan
  dlVlanPcp : e.dlVlanPcp &&& vlanPcpMask = e.dlVlanPcp
  nwTos : e.nwTos &&& nwTosMask = e.nwTos
  tpSrc : e.nwProto = ipprotoIcmp → e.tpSrc &&& icmpTypeMask = e.tpSrc
  tpDst : e.nwProto = ipprotoIcmp → e.tpDst &&& icmpCodeMask = e.tpDst

theorem agrees_normalizeInPort (h : Agrees m e) : Agrees (normalizeInPort m) e := by
  rw [normalizeInPort]
  split
  · rename_i hw
    exact { h with inPort := .inl hw }
  · exact h

theorem agrees_normalizeVlan (he : Exact e) (h : Agrees m e) : Agrees (normalizeVlan m) e := by
  rw [normalizeVlan]
  split
  · rename_i hw
    exact { h with dlVlan := .inl hw }
  · rename_i hw
    split
    · have hp := h.wildcard (c := ofpfwDlVlanPcp) (.inl (by decide)) (.inl (by decide))
      exact { hp with dlVlanPcp := .inl (has_or_self (by decide)) }
    · rename_i htag
      have hv := h.dlVlan.resolve_left hw
      refine { h with dlVlan := .inr ?_ }
      rw [hv] at htag ⊢
      exact he.dlVlan.resolve_left htag

theorem agrees_normalizeDlSrc (h : Agrees m e) : Agrees (normalizeDlSrc m) e := by
  rw [normalizeDlSrc]
  split
  · rename_i hw
    exact { h with dlSrc := .inl hw }
  · exact h

theorem agrees_normalizeDlDst (h : Agrees m e) : Agrees (normalizeDlDst m) e := by
  rw [normalizeDlDst]
  split
  · rename_i hw
    exact { h with dlDst := .inl hw }
  · exact h

theorem agrees_normalizeDlType (h : Agrees m e) : Agrees (normalizeDlType m) e := by
  rw [normalizeDlType]
  split
  · rename_i hw
    exact Agrees.clearNetwork { h with dlType := .inl hw }
  · split
    · have ht := h.wildcard (c := ofpfwNwTos) (.inl (by decide)) (.inl (by decide))
      exact Agrees.clearPorts { ht with nwTos := .inl (has_or_self (by decide)) }
    · split
      · exact h.clearNetwork
      · exact h

theorem and_arpOpMask (x : UInt8) : x &&& arpOpMask.toUInt8 = x := UInt8.and_neg_one

def OtherProtocol (m : OfpMatch) : Prop :=
  m.dlType = ethEthtypeIpv4 ∧ m.nwProto ≠ ipprotoTcp ∧ m.nwProto ≠ ipprotoUdp ∧ m.nwProto ≠ ipprotoIcmp

instance : Decidable (OtherProtocol m) := inferInstanceAs (Decidable (_ ∧ _))

theorem normalizeNwProto_kept (hw : ¬ Has m.wildcards ofpfwNwProto) :
    normalizeNwProto m = if OtherProtocol m then clearPorts m else m := by
  have harp : (if m.dlType = ethEthtypeArp then { m with nwProto := m.nwProto &&& arpOpMask.toUInt8 } else m) = m := by
    rw [and_arpOpMask,ite_self]
  rw [normalizeNwProto,if_neg hw,harp]
  rfl

theorem agrees_normalizeNwProto (h : Agrees m e) : Agrees (normalizeNwProto m) e := by
  by_cases hw : Has m.wildcards ofpfwNwProto
  · have hp : Agrees { m with nwProto := 0 } e := { h with nwProto := .inl hw }
    rw [normalizeNwProto,if_pos hw]
    split
    · exact hp.clearPorts
    · exact hp
  · rw [normalizeNwProto_kept hw]
    split
    · exact h.clearPorts
    · exact h

theorem has_clearPorts {flag : UInt32} (hf : portFlags &&& flag = 0) :
    Has (clearPorts m).wildcards flag ↔ Has m.wildcards flag := by
  rw [clearPorts_eq]
  exact has_or_left (by simp [Has,hf])

theorem nwProto_normalizeNwProto (h : Has (normalizeNwProto m).wildcards ofpfwNwProto) :
    (normalizeNwProto m).nwProto = 0 := by
  by_cases hw : Has m.wildcards ofpfwNwProto
  · rw [normalizeNwProto,if_pos hw]
    split <;> rfl
  · rw [normalizeNwProto_kept hw] at h
    split at h
    · exact absurd ((has_clearPorts (by decide)).mp h) hw
    · exact absurd h hw

def clearAddress (mask all w : UInt32) : UInt32 := w &&& ~~~mask ||| all

theorem has_clearAddress {mask all flag : UInt32} (hm : ~~~mask &&& flag = flag) (hall : all &&& flag = 0) :
    Has (clearAddress mask all w) flag ↔ Has w flag := by
  rw [clearAddress,has_or_left (by simp [Has,hall]),has_and hm]

theorem clearAddress_and_apart {mask all c : UInt32} (hm : ~~~mask &&& c = c) (hall : all &&& c = 0) :
    clearAddress mask all w &&& c = w &&& c := by
  rw [clearAddress,or_and_apart hall,UInt32.and_assoc,hm]

theorem clearAddress_and {mask all : UInt32} (hall : all &&& mask = all) :
    clearAddress mask all w &&& mask = all := by
  have hnot : ~~~mask &&& mask = 0 := eq_iff_bits.mpr fun i hi => by
    simp [hi]
  rw [clearAddress,Table.or_and_right,UInt32.and_assoc,hnot,UInt32.and_zero,UInt32.zero_or,hall]

theorem has_clearAddress_apart {mask all flag : UInt32} (hmask : mask &&& addressMasks = mask)
    (hall : all &&& addressMasks = all) (hf : flag &&& addressMasks = 0) :
    Has (clearAddress mask all w) flag ↔ Has w flag := by
  refine has_clearAddress ?_ ?_
  · rw [eq_iff_bits] at *
    intro i hi
    have hm := hmask i hi
    have hb := hf i hi
    simp only [UInt32.toBitVec_and,UInt32.toBitVec_not,BitVec.getLsbD_and,BitVec.getLsbD_not,
      UInt32.toBitVec_zero,BitVec.getLsbD_zero,hi] at *
    grind
  · rw [eq_iff_bits] at *
    intro i hi
    have ha := hall i hi
    have hb := hf i hi
    simp only [UInt32.toBitVec_and,BitVec.getLsbD_and,UInt32.toBitVec_zero,BitVec.getLsbD_zero] at *
    grind

theorem createNwMask_long {mask shift : UInt32} (h : 32 ≤ (w &&& mask) >>> shift) :
    createNwMask mask shift w = 0 := by
  rw [createNwMask]
  exact if_pos h

theorem createNwMask_short {mask shift : UInt32} (h : ¬ 32 ≤ (w &&& mask) >>> shift) :
    createNwMask mask shift w = 0xffffffff <<< ((w &&& mask) >>> shift) := by
  rw [createNwMask]
  exact if_neg h

theorem normalizeNwSrc_long (h : 32 ≤ (m.wildcards &&& ofpfwNwSrcMask) >>> ofpfwNwSrcShift) : normalizeNwSrc m =
    { m with wildcards := clearAddress ofpfwNwSrcMask ofpfwNwSrcAll m.wildcards, nwSrc := 0 } := by
  rw [normalizeNwSrc]
  exact if_pos h

theorem normalizeNwSrc_short (h : ¬ 32 ≤ (m.wildcards &&& ofpfwNwSrcMask) >>> ofpfwNwSrcShift) : normalizeNwSrc m =
    { m with nwSrc := m.nwSrc &&& createNwSrcMask m.wildcards } := by
  rw [normalizeNwSrc,createNwSrcMask,createNwMask_short h]
  exact if_neg h

theorem normalizeNwDst_long (h : 32 ≤ (m.wildcards &&& ofpfwNwDstMask) >>> ofpfwNwDstShift) : normalizeNwDst m =
    { m with wildcards := clearAddress ofpfwNwDstMask ofpfwNwDstAll m.wildcards, nwDst := 0 } := by
  rw [normalizeNwDst]
  exact if_pos h

theorem normalizeNwDst_short (h : ¬ 32 ≤ (m.wildcards &&& ofpfwNwDstMask) >>> ofpfwNwDstShift) : normalizeNwDst m =
    { m with nwDst := m.nwDst &&& createNwDstMask m.wildcards } := by
  rw [normalizeNwDst,createNwDstMask,createNwMask_short h]
  exact if_neg h

theorem agrees_normalizeNwSrc (h : Agrees m e) : Agrees (normalizeNwSrc m) e := by
  by_cases hl : 32 ≤ (m.wildcards &&& ofpfwNwSrcMask) >>> ofpfwNwSrcShift
  · have hz : createNwSrcMask (clearAddress ofpfwNwSrcMask ofpfwNwSrcAll m.wildcards) = 0 := by
      rw [createNwSrcMask,createNwMask,clearAddress_and (by decide)]
      rfl
    have hd : createNwDstMask (clearAddress ofpfwNwSrcMask ofpfwNwSrcAll m.wildcards) = createNwDstMask m.wildcards :=
      createNwMask_congr (clearAddress_and_apart (by decide) (by decide))
    have hn : Agrees { m with nwSrc := 0 } e := { h with
      nwSrc := by
        simp only
        rw [createNwSrcMask,createNwMask_long hl,UInt32.and_zero,UInt32.and_zero] }
    rw [normalizeNwSrc_long hl]
    refine hn.rewild (fun flag hf => (has_clearAddress_apart (by decide) (by decide) hf).mpr) ?_ ?_
    · rw [hz,UInt32.and_zero,UInt32.and_zero]
    · rw [hd]
      exact h.nwDst
  · rw [normalizeNwSrc_short hl]
    exact { h with
      nwSrc := by
        simp only [UInt32.and_assoc,UInt32.and_self]
        exact h.nwSrc }

theorem agrees_normalizeNwDst (h : Agrees m e) : Agrees (normalizeNwDst m) e := by
  by_cases hl : 32 ≤ (m.wildcards &&& ofpfwNwDstMask) >>> ofpfwNwDstShift
  · have hz : createNwDstMask (clearAddress ofpfwNwDstMask ofpfwNwDstAll m.wildcards) = 0 := by
      rw [createNwDstMask,createNwMask,clearAddress_and (by decide)]
      rfl
    have hs : createNwSrcMask (clearAddress ofpfwNwDstMask ofpfwNwDstAll m.wildcards) = createNwSrcMask m.wildcards :=
      createNwMask_congr (clearAddress_and_apart (by decide) (by decide))
    have hn : Agrees { m with nwDst := 0 } e := { h with
      nwDst := by
        simp only
        rw [createNwDstMask,createNwMask_long hl,UInt32.and_zero,UInt32.and_zero] }
    rw [normalizeNwDst_long hl]
    refine hn.rewild (fun flag hf => (has_clearAddress_apart (by decide) (by decide) hf).mpr) ?_ ?_
    · rw [hs]
      exact h.nwSrc
    · rw [hz,UInt32.and_zero,UInt32.and_zero]
  · rw [normalizeNwDst_short hl]
    exact { h with
      nwDst := by
        simp only [UInt32.and_assoc,UInt32.and_self]
        exact h.nwDst }

theorem nwProto_normalizeNwSrc : (normalizeNwSrc m).nwProto = m.nwProto := by
  simp only [normalizeNwSrc,apply_ite OfpMatch.nwProto,ite_self]

theorem nwProto_normalizeNwDst : (normalizeNwDst m).nwProto = m.nwProto := by
  simp only [normalizeNwDst,apply_ite OfpMatch.nwProto,ite_self]

theorem has_normalizeNwSrc {flag : UInt32} (hf : flag &&& addressMasks = 0) :
    Has (normalizeNwSrc m).wildcards flag ↔ Has m.wildcards flag := by
  by_cases hl : 32 ≤ (m.wildcards &&& ofpfwNwSrcMask) >>> ofpfwNwSrcShift
  · rw [normalizeNwSrc_long hl]
    exact has_clearAddress_apart (by decide) (by decide) hf
  · rw [normalizeNwSrc_short hl]

theorem has_normalizeNwDst {flag : UInt32} (hf : flag &&& addressMasks = 0) :
    Has (normalizeNwDst m).wildcards flag ↔ Has m.wildcards flag := by
  by_cases hl : 32 ≤ (m.wildcards &&& ofpfwNwDstMask) >>> ofpfwNwDstShift
  · rw [normalizeNwDst_long hl]
    exact has_clearAddress_apart (by decide) (by decide) hf
  · rw [normalizeNwDst_short hl]

-- An ICMP message's type and code are compared, and only then masked.
def ProtocolCleared (m : OfpMatch) : Prop := Has m.wildcards ofpfwNwProto → m.nwProto = 0

theorem protocolCleared_normalizeNetwork : ProtocolCleared (normalizeNetwork m) := by
  intro h
  rw [normalizeNetwork,nwProto_normalizeNwDst,nwProto_normalizeNwSrc]
  rw [normalizeNetwork,has_normalizeNwDst (by decide),has_normalizeNwSrc (by decide)] at h
  exact nwProto_normalizeNwProto h

theorem Agrees.icmp (h : Agrees m e) (hc : ProtocolCleared m) (hi : m.nwProto = ipprotoIcmp) :
    e.nwProto = ipprotoIcmp := by
  have hw : ¬ Has m.wildcards ofpfwNwProto := by
    intro hw
    rw [hc hw] at hi
    exact absurd hi (by decide)
  rw [← h.nwProto.resolve_left hw,hi]

theorem agrees_normalizeTpSrc (he : Exact e) (hc : ProtocolCleared m) (h : Agrees m e) :
    Agrees (normalizeTpSrc m) e := by
  rw [normalizeTpSrc]
  split
  · rename_i hw
    exact { h with tpSrc := .inl hw }
  · rename_i hw
    split
    · rename_i hi
      have ht := h.tpSrc.resolve_left hw
      refine { h with tpSrc := .inr ?_ }
      rw [ht]
      exact he.tpSrc (h.icmp hc hi)
    · exact h

theorem agrees_normalizeTpDst (he : Exact e) (hc : ProtocolCleared m) (h : Agrees m e) :
    Agrees (normalizeTpDst m) e := by
  rw [normalizeTpDst]
  split
  · rename_i hw
    exact { h with tpDst := .inl hw }
  · rename_i hw
    split
    · rename_i hi
      have ht := h.tpDst.resolve_left hw
      refine { h with tpDst := .inr ?_ }
      rw [ht]
      exact he.tpDst (h.icmp hc hi)
    · exact h

theorem protocolCleared_normalizeTpSrc (hc : ProtocolCleared m) : ProtocolCleared (normalizeTpSrc m) := by
  rw [normalizeTpSrc]
  split
  · exact hc
  · split
    · exact hc
    · exact hc

theorem agrees_normalizeDlVlanPcp (he : Exact e) (h : Agrees m e) : Agrees (normalizeDlVlanPcp m) e := by
  rw [normalizeDlVlanPcp]
  split
  · rename_i hw
    exact { h with dlVlanPcp := .inl hw }
  · rename_i hw
    have hp := h.dlVlanPcp.resolve_left hw
    refine { h with dlVlanPcp := .inr ?_ }
    rw [hp]
    exact he.dlVlanPcp

theorem agrees_normalizeNwTos (he : Exact e) (h : Agrees m e) : Agrees (normalizeNwTos m) e := by
  rw [normalizeNwTos]
  split
  · rename_i hw
    exact { h with nwTos := .inl hw }
  · rename_i hw
    have ht := h.nwTos.resolve_left hw
    refine { h with nwTos := .inr ?_ }
    rw [ht]
    exact he.nwTos

theorem agrees_normalizeLink (he : Exact e) (h : Agrees m e) : Agrees (normalizeLink m) e := by
  have hs : createNwSrcMask (m.wildcards &&& ofpfwAll) = createNwSrcMask m.wildcards :=
    createNwSrcMask_congr (by rw [UInt32.and_assoc,UInt32.and_self])
  have hd : createNwDstMask (m.wildcards &&& ofpfwAll) = createNwDstMask m.wildcards :=
    createNwDstMask_congr (by rw [UInt32.and_assoc,UInt32.and_self])
  have hall : Agrees { m with pad1 := 0, pad2 := 0, wildcards := m.wildcards &&& ofpfwAll } e :=
    ⟨h.inPort.imp_left (has_and (by decide)).mpr,h.dlVlan.imp_left (has_and (by decide)).mpr,
      h.dlVlanPcp.imp_left (has_and (by decide)).mpr,h.dlSrc.imp_left (has_and (by decide)).mpr,
      h.dlDst.imp_left (has_and (by decide)).mpr,h.dlType.imp_left (has_and (by decide)).mpr,
      by simp only [hs]; exact h.nwSrc,by simp only [hd]; exact h.nwDst,
      h.nwTos.imp_left (has_and (by decide)).mpr,h.nwProto.imp_left (has_and (by decide)).mpr,
      h.tpSrc.imp_left (has_and (by decide)).mpr,h.tpDst.imp_left (has_and (by decide)).mpr⟩
  exact agrees_normalizeDlDst (agrees_normalizeDlSrc (agrees_normalizeVlan he (agrees_normalizeInPort hall)))

theorem agrees_normalizeMatch (he : Exact e) (h : Agrees m e) : Agrees (normalizeMatch m) e := by
  have hn : Agrees (normalizeNetwork (normalizeLink m)) e :=
    agrees_normalizeNwDst (agrees_normalizeNwSrc (agrees_normalizeNwProto (agrees_normalizeDlType
      (agrees_normalizeLink he h))))
  have hs := agrees_normalizeTpSrc he protocolCleared_normalizeNetwork hn
  have ht := agrees_normalizeTpDst he (protocolCleared_normalizeTpSrc protocolCleared_normalizeNetwork) hs
  exact agrees_normalizeNwTos he (agrees_normalizeDlVlanPcp he ht)

end Agreement

end Trema.Packet
