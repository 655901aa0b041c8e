import Trema.Table.Match

namespace Trema.Table

open Library OpenFlow

section Masks

variable {a b c : UInt32}

def prefixMask (m : UInt32) : UInt32 := if 32 ≤ m then 0 else 0xffffffff <<< m

theorem prefixMask_nested (m n : UInt32) :
    prefixMask m &&& prefixMask n = prefixMask m ∨ prefixMask m &&& prefixMask n = prefixMask n := by
  have hall : ∀ m < 32, ∀ n < 32,
      prefixMask (UInt32.ofNat m) &&& prefixMask (UInt32.ofNat n) = prefixMask (UInt32.ofNat m) ∨
      prefixMask (UInt32.ofNat m) &&& prefixMask (UInt32.ofNat n) = prefixMask (UInt32.ofNat n) := by
    decide +kernel
  have hzero : ∀ k : UInt32, 32 ≤ k → prefixMask k = 0 := fun k hk => if_pos hk
  by_cases hm : 32 ≤ m
  · exact .inl (by rw [hzero m hm,UInt32.zero_and])
  · by_cases hn : 32 ≤ n
    · exact .inr (by rw [hzero n hn,UInt32.and_zero])
    · have h := hall m.toNat (by simpa [UInt32.le_iff_toNat_le] using hm) n.toNat
        (by simpa [UInt32.le_iff_toNat_le] using hn)
      simpa only [UInt32.ofNat_toNat] using h

theorem and_le (a b : UInt32) : a &&& b ≤ b := by
  rw [UInt32.le_iff_toNat_le,UInt32.toNat_and]
  exact Nat.and_le_right

-- Compared as numbers, prefix masks are compared as sets of bits.
theorem prefixMask_le (m n : UInt32) :
    prefixMask m ≤ prefixMask n ↔ prefixMask m &&& prefixMask n = prefixMask m := by
  constructor
  · intro h
    rcases prefixMask_nested m n with h' | h'
    · exact h'
    · have hle := and_le (prefixMask n) (prefixMask m)
      rw [UInt32.and_comm,h'] at hle
      rw [UInt32.le_antisymm h hle,UInt32.and_self]
  · intro h
    rw [← h]
    exact and_le _ _

theorem and_or_left (a b c : UInt32) : a &&& (b ||| c) = a &&& b ||| a &&& c := by
  rw [UInt32.and_comm,or_and_right,UInt32.and_comm b,UInt32.and_comm c]

theorem inside_of_not (h : ~~~a &&& b = 0) : b &&& a = b := by
  rw [eq_iff_bits] at *
  intro i hi
  have hb := h i hi
  simp only [UInt32.toBitVec_and,UInt32.toBitVec_not,UInt32.toBitVec_zero,BitVec.getLsbD_and,
    BitVec.getLsbD_not,BitVec.getLsbD_zero,hi] at *
  grind

theorem flag_cases {flag : UInt32} (k : Nat) (hf : flag.toNat = 2 ^ k) (w : UInt32) :
    w &&& flag = 0 ∨ w &&& flag = flag := by
  have hbits : ∀ i, (w &&& flag).toNat.testBit i = (w.toNat.testBit i && decide (k = i)) := by
    intro i
    rw [UInt32.toNat_and,hf,Nat.testBit_and,Nat.testBit_two_pow]
  cases hbit : w.toNat.testBit k with
  | false =>
    refine .inl (UInt32.toNat_inj.mp (Nat.eq_of_testBit_eq fun i => ?_))
    rw [hbits]
    by_cases hi : k = i
    · simp [← hi,hbit]
    · simp [hi]
  | true =>
    refine .inr (UInt32.toNat_inj.mp (Nat.eq_of_testBit_eq fun i => ?_))
    rw [hbits,hf,Nat.testBit_two_pow]
    by_cases hi : k = i
    · simp [← hi,hbit]
    · simp [hi]

theorem flag_inside {flag : UInt32} (k : Nat) (hf : flag.toNat = 2 ^ k)
    (h : a &&& flag = 0 → b &&& flag = 0) : ~~~a &&& b &&& flag = 0 := by
  rcases flag_cases k hf a with ha | ha
  · rw [UInt32.and_assoc,h ha,UInt32.and_zero]
  · rw [eq_iff_bits] at *
    intro i hi
    have hb := ha i hi
    simp only [UInt32.toBitVec_and,UInt32.toBitVec_not,UInt32.toBitVec_zero,BitVec.getLsbD_and,
      BitVec.getLsbD_not,BitVec.getLsbD_zero,hi] at *
    grind

-- What two agreements on common bits say of a mask and of the bits inside it.
theorem excluded_bits {x y : UInt32} (h : (x ^^^ (y &&& b ||| ~~~x &&& ~~~b)) &&& a = 0) :
    a &&& b = a ∧ (x ^^^ y) &&& a = 0 := by
  constructor
  all_goals
    rw [eq_iff_bits] at *
    intro i hi
    have hb := h i hi
    simp only [UInt32.toBitVec_xor,UInt32.toBitVec_and,UInt32.toBitVec_or,UInt32.toBitVec_not,
      BitVec.getLsbD_xor,BitVec.getLsbD_and,BitVec.getLsbD_or,BitVec.getLsbD_not,
      UInt32.toBitVec_zero,BitVec.getLsbD_zero,hi] at *
    grind

theorem merged_left (x y m : UInt32) : (x ^^^ (x &&& m ||| y &&& ~~~m)) &&& m = 0 := by
  rw [eq_iff_bits]
  intro i hi
  simp only [UInt32.toBitVec_xor,UInt32.toBitVec_and,UInt32.toBitVec_or,UInt32.toBitVec_not,
    BitVec.getLsbD_xor,BitVec.getLsbD_and,BitVec.getLsbD_or,BitVec.getLsbD_not,
    UInt32.toBitVec_zero,BitVec.getLsbD_zero,hi]
  grind

theorem agree_through {x y p : UInt32} (hab : a &&& b = a) (hxy : (x ^^^ y) &&& a = 0)
    (hyp : (y ^^^ p) &&& b = 0) : (x ^^^ p) &&& a = 0 := by
  rw [xor_and_eq_zero] at *
  rw [hxy,← hab,UInt32.and_comm a b,← UInt32.and_assoc,hyp,UInt32.and_assoc]

end Masks

section Fields

variable {α : Type} [DecidableEq α] {w w' flag : UInt32} {x y z : α}

theorem covered_field (hw : w &&& flag = 0 → w' &&& flag = 0)
    (hxy : fieldMatches w flag (x == y) = true) (hyz : fieldMatches w' flag (y == z) = true) :
    fieldMatches w flag (x == z) = true := by
  simp only [fieldMatches,Bool.or_eq_true,bne_iff_ne,beq_iff_eq] at *
  by_cases hz : w &&& flag = 0
  · rw [(hxy.resolve_left (fun h => h hz)),(hyz.resolve_left (fun h => h (hw hz)))]
    exact .inr rfl
  · exact .inl hz

theorem excluded_field (hne : x ≠ z) (h : fieldMatches w flag (x == kept z w' flag y) = true) :
    (w &&& flag = 0 → w' &&& flag = 0) ∧ fieldMatches w flag (x == y) = true := by
  simp only [fieldMatches,Bool.or_eq_true,bne_iff_ne,beq_iff_eq,kept] at *
  by_cases hz : w &&& flag = 0
  · have hx := h.resolve_left (fun hn => hn hz)
    by_cases hz' : w' &&& flag = 0
    · rw [if_pos hz'] at hx
      exact ⟨fun _ => hz',.inr hx⟩
    · rw [if_neg hz'] at hx
      exact absurd hx hne
  · exact ⟨fun h0 => absurd h0 hz,.inl hz⟩

theorem kept_field : fieldMatches w flag (x == kept z w flag x) = true := by
  simp only [fieldMatches,Bool.or_eq_true,bne_iff_ne,beq_iff_eq,kept]
  by_cases hz : w &&& flag = 0
  · exact .inr (if_pos hz).symm
  · exact .inl hz

end Fields

section Inclusion

variable {c e : OfpMatch}

theorem createNwSrcMask_eq (w : UInt32) :
    createNwSrcMask w = prefixMask ((w &&& ofpfwNwSrcMask) >>> ofpfwNwSrcShift) := rfl

theorem createNwDstMask_eq (w : UInt32) :
    createNwDstMask w = prefixMask ((w &&& ofpfwNwDstMask) >>> ofpfwNwDstShift) := rfl

theorem masks_of_all (w : UInt32) :
    createNwSrcMask (w &&& ofpfwAll) = createNwSrcMask w ∧
      createNwDstMask (w &&& ofpfwAll) = createNwDstMask w := by
  have hall : w &&& ofpfwAll &&& ofpfwAll = w &&& ofpfwAll := by rw [UInt32.and_assoc,UInt32.and_self]
  exact ⟨createNwSrcMask_congr hall,createNwDstMask_congr hall⟩

-- The wildcard bits of the single fields.
def fieldFlags (w : UInt32) : UInt32 := w &&& ofpfwAll &&& ~~~(ofpfwNwSrcMask ||| ofpfwNwDstMask)

theorem fieldFlags_and (w : UInt32) {flag : UInt32}
    (hf : ofpfwAll &&& ~~~(ofpfwNwSrcMask ||| ofpfwNwDstMask) &&& flag = flag) :
    fieldFlags w &&& flag = w &&& flag := by
  rw [fieldFlags,UInt32.and_assoc w,UInt32.and_assoc w,hf]

theorem fieldMatches_flags (w : UInt32) (same : Bool) {flag : UInt32}
    (hf : ofpfwAll &&& ~~~(ofpfwNwSrcMask ||| ofpfwNwDstMask) &&& flag = flag) :
    fieldMatches (fieldFlags w) flag same = fieldMatches w flag same := by
  rw [fieldMatches,fieldFlags_and w hf,fieldMatches]

theorem compareFilterMatch_iff : compareFilterMatch c e = true ↔
    ~~~fieldFlags c.wildcards &&& fieldFlags e.wildcards = 0 ∧
    createNwSrcMask c.wildcards &&& createNwSrcMask e.wildcards = createNwSrcMask c.wildcards ∧
    createNwDstMask c.wildcards &&& createNwDstMask e.wildcards = createNwDstMask c.wildcards ∧
    fieldsMatch c.wildcards (createNwSrcMask c.wildcards) (createNwDstMask c.wildcards) c e = true := by
  have hfields : fieldsMatch (fieldFlags c.wildcards) (createNwSrcMask c.wildcards)
      (createNwDstMask c.wildcards) c e = fieldsMatch c.wildcards (createNwSrcMask c.wildcards)
      (createNwDstMask c.wildcards) c e := by
    simp only [fieldsMatch,
      fieldMatches_flags c.wildcards _ (show _ &&& ofpfwInPort = _ by decide),
      fieldMatches_flags c.wildcards _ (show _ &&& ofpfwDlVlan = _ by decide),
      fieldMatches_flags c.wildcards _ (show _ &&& ofpfwDlVlanPcp = _ by decide),
      fieldMatches_flags c.wildcards _ (show _ &&& ofpfwDlSrc = _ by decide),
      fieldMatches_flags c.wildcards _ (show _ &&& ofpfwDlDst = _ by decide),
      fieldMatches_flags c.wildcards _ (show _ &&& ofpfwDlType = _ by decide),
      fieldMatches_flags c.wildcards _ (show _ &&& ofpfwNwTos = _ by decide),
      fieldMatches_flags c.wildcards _ (show _ &&& ofpfwNwProto = _ by decide),
      fieldMatches_flags c.wildcards _ (show _ &&& ofpfwTpSrc = _ by decide),
      fieldMatches_flags c.wildcards _ (show _ &&& ofpfwTpDst = _ by decide)]
  have hsrc := prefixMask_le ((c.wildcards &&& ofpfwNwSrcMask) >>> ofpfwNwSrcShift)
    ((e.wildcards &&& ofpfwNwSrcMask) >>> ofpfwNwSrcShift)
  have hdst := prefixMask_le ((c.wildcards &&& ofpfwNwDstMask) >>> ofpfwNwDstShift)
    ((e.wildcards &&& ofpfwNwDstMask) >>> ofpfwNwDstShift)
  rw [← createNwSrcMask_eq,← createNwSrcMask_eq] at hsrc
  rw [← createNwDstMask_eq,← createNwDstMask_eq] at hdst
  simp only [compareFilterMatch,(masks_of_all _).1,(masks_of_all _).2]
  change (if ~~~fieldFlags c.wildcards &&& fieldFlags e.wildcards != 0 then false
    else if createNwSrcMask c.wildcards > createNwSrcMask e.wildcards then false
    else if createNwDstMask c.wildcards > createNwDstMask e.wildcards then false
    else fieldsMatch (fieldFlags c.wildcards) _ _ c e) = true ↔ _
  rw [hfields,← hsrc,← hdst]
  split
  · rename_i hne
    exact iff_of_false (by simp) fun h => by simp [h.1] at hne
  · rename_i heq
    have heq : ~~~fieldFlags c.wildcards &&& fieldFlags e.wildcards = 0 := by simpa using heq
    split
    · rename_i hgt
      exact iff_of_false (by simp) fun h => absurd h.2.1 (UInt32.not_le.mpr hgt)
    · rename_i hle
      split
      · rename_i hgt
        exact iff_of_false (by simp) fun h => absurd h.2.2.1 (UInt32.not_le.mpr hgt)
      · rename_i hle'
        exact ⟨fun h => ⟨heq,UInt32.not_lt.mp hle,UInt32.not_lt.mp hle',h⟩,fun h => h.2.2.2⟩

theorem flag_of_inside (h : ~~~fieldFlags c.wildcards &&& fieldFlags e.wildcards = 0) {flag : UInt32}
    (hf : ofpfwAll &&& ~~~(ofpfwNwSrcMask ||| ofpfwNwDstMask) &&& flag = flag)
    (hc : c.wildcards &&& flag = 0) : e.wildcards &&& flag = 0 := by
  rw [← fieldFlags_and _ hf] at hc ⊢
  rw [← inside_of_not h,UInt32.and_assoc,hc,UInt32.and_zero]

theorem covers_of_compareFilterMatch (h : compareFilterMatch c e = true) : Covers c e := by
  intro packet hp he
  obtain ⟨hflags,hsrc,hdst,hfields⟩ := compareFilterMatch_iff.mp h
  rw [compareMatch_packet hp] at he ⊢
  simp only [fieldsMatch,Bool.and_eq_true,beq_iff_eq] at *
  obtain ⟨⟨⟨⟨⟨⟨⟨⟨⟨⟨⟨a1,a2⟩,a3⟩,a4⟩,a5⟩,a6⟩,a7⟩,a8⟩,a9⟩,a10⟩,a11⟩,a12⟩ := hfields
  obtain ⟨⟨⟨⟨⟨⟨⟨⟨⟨⟨⟨b1,b2⟩,b3⟩,b4⟩,b5⟩,b6⟩,b7⟩,b8⟩,b9⟩,b10⟩,b11⟩,b12⟩ := he
  exact ⟨⟨⟨⟨⟨⟨⟨⟨⟨⟨⟨covered_field (flag_of_inside hflags (by decide)) a1 b1,
    covered_field (flag_of_inside hflags (by decide)) a2 b2⟩,
    covered_field (flag_of_inside hflags (by decide)) a3 b3⟩,
    covered_field (flag_of_inside hflags (by decide)) a4 b4⟩,
    covered_field (flag_of_inside hflags (by decide)) a5 b5⟩,
    covered_field (flag_of_inside hflags (by decide)) a6 b6⟩,
    agree_through hsrc a7 b7⟩,agree_through hdst a8 b8⟩,
    covered_field (flag_of_inside hflags (by decide)) a9 b9⟩,
    covered_field (flag_of_inside hflags (by decide)) a10 b10⟩,
    covered_field (flag_of_inside hflags (by decide)) a11 b11⟩,
    covered_field (flag_of_inside hflags (by decide)) a12 b12⟩

-- A packet that differs from c in every field and every address bit.
def strangerTo (c : OfpMatch) : OfpMatch where
  wildcards := 0
  inPort := c.inPort + 1
  dlSrc := ⟨c.dlSrc.b0 + 1,0,0,0,0,0⟩
  dlDst := ⟨c.dlDst.b0 + 1,0,0,0,0,0⟩
  dlVlan := c.dlVlan + 1
  dlVlanPcp := c.dlVlanPcp + 1
  pad1 := 0
  dlType := c.dlType + 1
  nwTos := c.nwTos + 1
  nwProto := c.nwProto + 1
  pad2 := 0
  nwSrc := ~~~c.nwSrc
  nwDst := ~~~c.nwDst
  tpSrc := c.tpSrc + 1
  tpDst := c.tpDst + 1

theorem compareMatch_commonPacket (x y : OfpMatch) : compareMatch x (commonPacket x y) = true := by
  have hp : exactMatch (commonPacket x y) = true := by simp [exactMatch,commonPacket]
  rw [compareMatch_packet hp]
  simp only [fieldsMatch,Bool.and_eq_true,beq_iff_eq,commonPacket,kept_field,merged_left,and_self]

theorem compareFilterMatch_of_covers (h : Covers c e) : compareFilterMatch c e = true := by
  have hp : exactMatch (commonPacket e (strangerTo c)) = true := by simp [exactMatch,commonPacket]
  have hcovered := h _ hp (compareMatch_commonPacket e (strangerTo c))
  rw [compareMatch_packet hp] at hcovered
  simp only [fieldsMatch,Bool.and_eq_true,beq_iff_eq,commonPacket,strangerTo] at hcovered
  obtain ⟨⟨⟨⟨⟨⟨⟨⟨⟨⟨⟨h1,h2⟩,h3⟩,h4⟩,h5⟩,h6⟩,h7⟩,h8⟩,h9⟩,h10⟩,h11⟩,h12⟩ := hcovered
  obtain ⟨f1,a1⟩ := excluded_field (by simp) h1
  obtain ⟨f2,a2⟩ := excluded_field (by simp) h2
  obtain ⟨f3,a3⟩ := excluded_field (by simp) h3
  obtain ⟨f4,a4⟩ := excluded_field (fun heq => by simpa using congrArg Mac.b0 heq) h4
  obtain ⟨f5,a5⟩ := excluded_field (fun heq => by simpa using congrArg Mac.b0 heq) h5
  obtain ⟨f6,a6⟩ := excluded_field (by simp) h6
  obtain ⟨m7,a7⟩ := excluded_bits h7
  obtain ⟨m8,a8⟩ := excluded_bits h8
  obtain ⟨f9,a9⟩ := excluded_field (by simp) h9
  obtain ⟨f10,a10⟩ := excluded_field (by simp) h10
  obtain ⟨f11,a11⟩ := excluded_field (by simp) h11
  obtain ⟨f12,a12⟩ := excluded_field (by simp) h12
  refine compareFilterMatch_iff.mpr ⟨?_,m7,m8,?_⟩
  · have hall : ofpfwAll &&& ~~~(ofpfwNwSrcMask ||| ofpfwNwDstMask) = ofpfwInPort ||| ofpfwDlVlan |||
        ofpfwDlVlanPcp ||| ofpfwDlSrc ||| ofpfwDlDst ||| ofpfwDlType ||| ofpfwNwTos ||| ofpfwNwProto |||
        ofpfwTpSrc ||| ofpfwTpDst := by decide
    have hpart : ∀ {flag : UInt32} (k : Nat), flag.toNat = 2 ^ k →
        ofpfwAll &&& ~~~(ofpfwNwSrcMask ||| ofpfwNwDstMask) &&& flag = flag →
        (c.wildcards &&& flag = 0 → e.wildcards &&& flag = 0) →
        ~~~fieldFlags c.wildcards &&& fieldFlags e.wildcards &&& flag = 0 := by
      intro flag k hk hf himp
      refine flag_inside k hk ?_
      rw [fieldFlags_and _ hf,fieldFlags_and _ hf]
      exact himp
    have hwhole : ~~~fieldFlags c.wildcards &&& fieldFlags e.wildcards =
        ~~~fieldFlags c.wildcards &&& fieldFlags e.wildcards &&&
          (ofpfwAll &&& ~~~(ofpfwNwSrcMask ||| ofpfwNwDstMask)) := by
      rw [UInt32.and_assoc,fieldFlags_and e.wildcards (by decide),← UInt32.and_assoc e.wildcards]
      rfl
    rw [hwhole,hall]
    simp only [and_or_left,UInt32.or_eq_zero_iff]
    exact ⟨⟨⟨⟨⟨⟨⟨⟨⟨hpart 0 (by decide) (by decide) f1,hpart 1 (by decide) (by decide) f2⟩,
      hpart 20 (by decide) (by decide) f3⟩,hpart 2 (by decide) (by decide) f4⟩,
      hpart 3 (by decide) (by decide) f5⟩,hpart 4 (by decide) (by decide) f6⟩,
      hpart 21 (by decide) (by decide) f9⟩,hpart 5 (by decide) (by decide) f10⟩,
      hpart 6 (by decide) (by decide) f11⟩,hpart 7 (by decide) (by decide) f12⟩
  · simp only [fieldsMatch,Bool.and_eq_true,beq_iff_eq]
    exact ⟨⟨⟨⟨⟨⟨⟨⟨⟨⟨⟨a1,a2⟩,a3⟩,a4⟩,a5⟩,a6⟩,a7⟩,a8⟩,a9⟩,a10⟩,a11⟩,a12⟩

theorem compareFilterMatch_iff_covers : compareFilterMatch c e = true ↔ Covers c e :=
  ⟨covers_of_compareFilterMatch,compareFilterMatch_of_covers⟩

end Inclusion

end Trema.Table
