import Trema.OpenFlow.Protocol

namespace Trema.Table

open Library OpenFlow

def ofpfwInPort : UInt32 := 0x1
def ofpfwDlVlan : UInt32 := 0x2
def ofpfwDlSrc : UInt32 := 0x4
def ofpfwDlDst : UInt32 := 0x8
def ofpfwDlType : UInt32 := 0x10
def ofpfwNwProto : UInt32 := 0x20
def ofpfwTpSrc : UInt32 := 0x40
def ofpfwTpDst : UInt32 := 0x80
def ofpfwNwSrcShift : UInt32 := 8
def ofpfwNwSrcMask : UInt32 := 0x3f00
def ofpfwNwDstShift : UInt32 := 14
def ofpfwNwDstMask : UInt32 := 0xfc000
def ofpfwDlVlanPcp : UInt32 := 0x100000
def ofpfwNwTos : UInt32 := 0x200000

def createNwMask (mask shift w : UInt32) : UInt32 :=
  let m := (w &&& mask) >>> shift
  if 32 ≤ m then 0 else 0xffffffff <<< m

def createNwSrcMask : UInt32 → UInt32 := createNwMask ofpfwNwSrcMask ofpfwNwSrcShift
def createNwDstMask : UInt32 → UInt32 := createNwMask ofpfwNwDstMask ofpfwNwDstShift

def exactMatch (m : OfpMatch) : Bool := m.wildcards &&& ofpfwAll == 0

def fieldMatches (w flag : UInt32) (same : Bool) : Bool := w &&& flag != 0 || same

def fieldsMatch (w sm dm : UInt32) (x y : OfpMatch) : Bool :=
  fieldMatches w ofpfwInPort (x.inPort == y.inPort) &&
  fieldMatches w ofpfwDlVlan (x.dlVlan == y.dlVlan) &&
  fieldMatches w ofpfwDlVlanPcp (x.dlVlanPcp == y.dlVlanPcp) &&
  fieldMatches w ofpfwDlSrc (x.dlSrc == y.dlSrc) &&
  fieldMatches w ofpfwDlDst (x.dlDst == y.dlDst) &&
  fieldMatches w ofpfwDlType (x.dlType == y.dlType) &&
  (x.nwSrc ^^^ y.nwSrc) &&& sm == 0 &&
  (x.nwDst ^^^ y.nwDst) &&& dm == 0 &&
  fieldMatches w ofpfwNwTos (x.nwTos == y.nwTos) &&
  fieldMatches w ofpfwNwProto (x.nwProto == y.nwProto) &&
  fieldMatches w ofpfwTpSrc (x.tpSrc == y.tpSrc) &&
  fieldMatches w ofpfwTpDst (x.tpDst == y.tpDst)

def compareMatch (x y : OfpMatch) : Bool :=
  fieldsMatch (x.wildcards ||| y.wildcards)
    (createNwSrcMask x.wildcards &&& createNwSrcMask y.wildcards)
    (createNwDstMask x.wildcards &&& createNwDstMask y.wildcards) x y

def compareMatchStrict (x y : OfpMatch) : Bool :=
  (x.wildcards ^^^ y.wildcards) &&& ofpfwAll == 0 && compareMatch x y

def compareFilterMatch (x y : OfpMatch) : Bool :=
  let wx := x.wildcards &&& ofpfwAll
  let wy := y.wildcards &&& ofpfwAll
  let smx := createNwSrcMask wx
  let dmx := createNwDstMask wx
  let smy := createNwSrcMask wy
  let dmy := createNwDstMask wy
  let wx := wx &&& ~~~(ofpfwNwSrcMask ||| ofpfwNwDstMask)
  let wy := wy &&& ~~~(ofpfwNwSrcMask ||| ofpfwNwDstMask)
  if ~~~wx &&& wy != 0 then false
  else if smx > smy then false
  else if dmx > dmy then false
  else fieldsMatch wx smx dmx x y

def hashCore (key : Bytes) : UInt32 :=
  key.foldl (fun hashValue c => (hashValue ^^^ c.toUInt32) * 0x01000193) 0x811c9dc5

def hashMac (mac : Mac) : UInt32 := hashCore mac.toBytes

def hashExactMatchEntry (m : OfpMatch) : UInt32 :=
  let dlVlan := if m.dlVlan != 0xffff then m.dlVlan &&& vlanVidMask else m.dlVlan
  let dlVlanPcp := m.dlVlanPcp &&& vlanPcpMask
  let nwTos := m.nwTos &&& 0x3f
  (m.inPort.toUInt32 <<< 16) ^^^ hashMac m.dlSrc ^^^ hashMac m.dlDst ^^^ dlVlan.toUInt32 ^^^
    (dlVlanPcp.toUInt32 <<< 24) ^^^ (m.dlType.toUInt32 <<< 8) ^^^ nwTos.toUInt32 ^^^
    (m.nwProto.toUInt32 <<< 24) ^^^ m.nwSrc ^^^ m.nwDst ^^^ (m.tpSrc.toUInt32 <<< 16) ^^^
    m.tpDst.toUInt32

section Bits

variable {x y v m n : UInt32}

theorem and_xor_distrib (x y m : UInt32) : (x ^^^ y) &&& m = (x &&& m) ^^^ (y &&& m) := by
  apply UInt32.toBitVec_inj.mp
  ext i
  simp [Bool.and_xor_distrib_right]

theorem xor_and_eq_zero : (x ^^^ y) &&& m = 0 ↔ x &&& m = y &&& m := by
  rw [and_xor_distrib,UInt32.xor_eq_zero_iff]

theorem and_of_and {flag : UInt32} (h : x &&& m = y &&& m) (hf : m &&& flag = flag) :
    x &&& flag = y &&& flag := by
  rw [← hf,← UInt32.and_assoc,h,UInt32.and_assoc]

theorem eq_iff_bits {a b : UInt32} :
    a = b ↔ ∀ i < 32, a.toBitVec.getLsbD i = b.toBitVec.getLsbD i := by
  constructor
  · rintro rfl _ _
    rfl
  · intro h
    exact UInt32.toBitVec_inj.mp (BitVec.eq_of_getLsbD_eq h)

theorem or_and_right (x y flag : UInt32) : (x ||| y) &&& flag = x &&& flag ||| y &&& flag := by
  apply UInt32.toBitVec_inj.mp
  ext i
  simp [Bool.and_or_distrib_right]

theorem or_and_of_and {flag : UInt32} (h : x &&& flag = y &&& flag) :
    (x ||| y) &&& flag = x &&& flag := by
  rw [or_and_right,← h,UInt32.or_self]

theorem common_bits (hx : (x ^^^ v) &&& m = 0) (hy : (y ^^^ v) &&& n = 0) :
    (x ^^^ y) &&& (m &&& n) = 0 := by
  rw [eq_iff_bits] at *
  intro i hi
  have hbx := hx i hi
  have hby := hy i hi
  simp only [UInt32.toBitVec_xor,UInt32.toBitVec_and,BitVec.getLsbD_xor,BitVec.getLsbD_and,
    UInt32.toBitVec_zero,BitVec.getLsbD_zero] at *
  grind

theorem merged_bits (h : (x ^^^ y) &&& (m &&& n) = 0) :
    (x ^^^ (x &&& m ||| y &&& ~~~m)) &&& m = 0 ∧ (y ^^^ (x &&& m ||| y &&& ~~~m)) &&& n = 0 := by
  constructor
  all_goals
    rw [eq_iff_bits] at *
    intro i hi
    have hb := h i hi
    simp only [UInt32.toBitVec_xor,UInt32.toBitVec_and,UInt32.toBitVec_or,UInt32.toBitVec_not,
      BitVec.getLsbD_xor,BitVec.getLsbD_and,BitVec.getLsbD_or,BitVec.getLsbD_not,
      UInt32.toBitVec_zero,BitVec.getLsbD_zero,hi] at *
    grind

end Bits

def kept {α : Type} (zero : α) (w flag : UInt32) (a : α) : α := if w &&& flag = 0 then a else zero

def normalized (m : OfpMatch) : OfpMatch where
  wildcards := m.wildcards &&& ofpfwAll
  inPort := kept 0 m.wildcards ofpfwInPort m.inPort
  dlSrc := kept ⟨0,0,0,0,0,0⟩ m.wildcards ofpfwDlSrc m.dlSrc
  dlDst := kept ⟨0,0,0,0,0,0⟩ m.wildcards ofpfwDlDst m.dlDst
  dlVlan := kept 0 m.wildcards ofpfwDlVlan m.dlVlan
  dlVlanPcp := kept 0 m.wildcards ofpfwDlVlanPcp m.dlVlanPcp
  pad1 := 0
  dlType := kept 0 m.wildcards ofpfwDlType m.dlType
  nwTos := kept 0 m.wildcards ofpfwNwTos m.nwTos
  nwProto := kept 0 m.wildcards ofpfwNwProto m.nwProto
  pad2 := 0
  nwSrc := m.nwSrc &&& createNwSrcMask m.wildcards
  nwDst := m.nwDst &&& createNwDstMask m.wildcards
  tpSrc := kept 0 m.wildcards ofpfwTpSrc m.tpSrc
  tpDst := kept 0 m.wildcards ofpfwTpDst m.tpDst

section Strict

variable {x y : OfpMatch}

theorem createNwSrcMask_congr {w w' : UInt32} (h : w &&& ofpfwAll = w' &&& ofpfwAll) :
    createNwSrcMask w = createNwSrcMask w' := by
  rw [createNwSrcMask,createNwMask,createNwMask,and_of_and h (by decide)]

theorem createNwDstMask_congr {w w' : UInt32} (h : w &&& ofpfwAll = w' &&& ofpfwAll) :
    createNwDstMask w = createNwDstMask w' := by
  rw [createNwDstMask,createNwMask,createNwMask,and_of_and h (by decide)]

theorem fieldMatches_iff {α : Type} [DecidableEq α] (zero : α) {w w' flag : UInt32} (a b : α)
    (h : w &&& ofpfwAll = w' &&& ofpfwAll) (hf : ofpfwAll &&& flag = flag) :
    fieldMatches (w ||| w') flag (a == b) = true ↔ kept zero w flag a = kept zero w' flag b := by
  have hflag := and_of_and h hf
  rw [fieldMatches,or_and_of_and hflag,kept,kept,← hflag]
  by_cases hz : w &&& flag = 0
  · simp [hz]
  · simp [hz]

theorem compareMatchStrict_iff : compareMatchStrict x y = true ↔ normalized x = normalized y := by
  rw [compareMatchStrict,Bool.and_eq_true,beq_iff_eq,xor_and_eq_zero]
  by_cases hw : x.wildcards &&& ofpfwAll = y.wildcards &&& ofpfwAll
  · simp only [hw,true_and,compareMatch,fieldsMatch,Bool.and_eq_true,beq_iff_eq,
      createNwSrcMask_congr hw,createNwDstMask_congr hw,UInt32.and_self,xor_and_eq_zero,
      normalized,OfpMatch.mk.injEq,
      fieldMatches_iff 0 x.inPort y.inPort hw (show ofpfwAll &&& ofpfwInPort = _ by decide),
      fieldMatches_iff 0 x.dlVlan y.dlVlan hw (show ofpfwAll &&& ofpfwDlVlan = _ by decide),
      fieldMatches_iff 0 x.dlVlanPcp y.dlVlanPcp hw (show ofpfwAll &&& ofpfwDlVlanPcp = _ by decide),
      fieldMatches_iff ⟨0,0,0,0,0,0⟩ x.dlSrc y.dlSrc hw (show ofpfwAll &&& ofpfwDlSrc = _ by decide),
      fieldMatches_iff ⟨0,0,0,0,0,0⟩ x.dlDst y.dlDst hw (show ofpfwAll &&& ofpfwDlDst = _ by decide),
      fieldMatches_iff 0 x.dlType y.dlType hw (show ofpfwAll &&& ofpfwDlType = _ by decide),
      fieldMatches_iff 0 x.nwTos y.nwTos hw (show ofpfwAll &&& ofpfwNwTos = _ by decide),
      fieldMatches_iff 0 x.nwProto y.nwProto hw (show ofpfwAll &&& ofpfwNwProto = _ by decide),
      fieldMatches_iff 0 x.tpSrc y.tpSrc hw (show ofpfwAll &&& ofpfwTpSrc = _ by decide),
      fieldMatches_iff 0 x.tpDst y.tpDst hw (show ofpfwAll &&& ofpfwTpDst = _ by decide)]
    constructor
    · rintro ⟨⟨⟨⟨⟨⟨⟨⟨⟨⟨⟨hport,hvlan⟩,hpcp⟩,hdlSrc⟩,hdlDst⟩,htype⟩,hnwSrc⟩,hnwDst⟩,htos⟩,hproto⟩,htpSrc⟩,htpDst⟩
      exact ⟨hport,hdlSrc,hdlDst,hvlan,hpcp,htype,htos,hproto,hnwSrc,hnwDst,htpSrc,htpDst⟩
    · rintro ⟨hport,hdlSrc,hdlDst,hvlan,hpcp,htype,htos,hproto,hnwSrc,hnwDst,htpSrc,htpDst⟩
      exact ⟨⟨⟨⟨⟨⟨⟨⟨⟨⟨⟨hport,hvlan⟩,hpcp⟩,hdlSrc⟩,hdlDst⟩,htype⟩,hnwSrc⟩,hnwDst⟩,htos⟩,hproto⟩,htpSrc⟩,htpDst⟩
  · refine iff_of_false (fun h => hw h.1) fun h => hw ?_
    exact congrArg OfpMatch.wildcards h

theorem compareMatchStrict_refl (x : OfpMatch) : compareMatchStrict x x = true := by
  rw [compareMatchStrict_iff]

theorem compareMatchStrict_symm (h : compareMatchStrict x y = true) : compareMatchStrict y x = true := by
  rw [compareMatchStrict_iff] at *
  exact h.symm

theorem compareMatchStrict_trans {z : OfpMatch} (hxy : compareMatchStrict x y = true)
    (hyz : compareMatchStrict y z = true) : compareMatchStrict x z = true := by
  rw [compareMatchStrict_iff] at *
  exact hxy.trans hyz

theorem exactMatch_congr (h : compareMatchStrict x y = true) : exactMatch x = exactMatch y := by
  rw [compareMatchStrict_iff] at h
  have hw := congrArg OfpMatch.wildcards h
  simp only [normalized] at hw
  rw [exactMatch,exactMatch,hw]

theorem and_flag_of_exact {m : OfpMatch} (h : exactMatch m = true) {flag : UInt32}
    (hf : ofpfwAll &&& flag = flag) : m.wildcards &&& flag = 0 := by
  have hw : m.wildcards &&& ofpfwAll = 0 := by simpa [exactMatch] using h
  rw [← hf,← UInt32.and_assoc,hw,UInt32.zero_and]

theorem createNwSrcMask_of_exact {m : OfpMatch} (h : exactMatch m = true) :
    createNwSrcMask m.wildcards = 0xffffffff := by
  rw [createNwSrcMask,createNwMask,and_flag_of_exact h (by decide)]
  decide

theorem createNwDstMask_of_exact {m : OfpMatch} (h : exactMatch m = true) :
    createNwDstMask m.wildcards = 0xffffffff := by
  rw [createNwDstMask,createNwMask,and_flag_of_exact h (by decide)]
  decide

theorem and_ones (x : UInt32) : x &&& 0xffffffff = x := UInt32.and_neg_one

theorem normalized_of_exact {m : OfpMatch} (h : exactMatch m = true) :
    normalized m = { m.unpadded with wildcards := 0 } := by
  simp only [normalized,kept,OfpMatch.unpadded,createNwSrcMask_of_exact h,createNwDstMask_of_exact h,
    and_flag_of_exact h (show ofpfwAll &&& ofpfwInPort = _ by decide),
    and_flag_of_exact h (show ofpfwAll &&& ofpfwDlVlan = _ by decide),
    and_flag_of_exact h (show ofpfwAll &&& ofpfwDlVlanPcp = _ by decide),
    and_flag_of_exact h (show ofpfwAll &&& ofpfwDlSrc = _ by decide),
    and_flag_of_exact h (show ofpfwAll &&& ofpfwDlDst = _ by decide),
    and_flag_of_exact h (show ofpfwAll &&& ofpfwDlType = _ by decide),
    and_flag_of_exact h (show ofpfwAll &&& ofpfwNwTos = _ by decide),
    and_flag_of_exact h (show ofpfwAll &&& ofpfwNwProto = _ by decide),
    and_flag_of_exact h (show ofpfwAll &&& ofpfwTpSrc = _ by decide),
    and_flag_of_exact h (show ofpfwAll &&& ofpfwTpDst = _ by decide),
    and_flag_of_exact h (show ofpfwAll &&& ofpfwAll = _ by decide),if_true,and_ones]

theorem hash_congr (hy : exactMatch y = true) (h : compareMatchStrict x y = true) :
    hashExactMatchEntry x = hashExactMatchEntry y := by
  have hx : exactMatch x = true := by rw [exactMatch_congr h,hy]
  have hn := h
  rw [compareMatchStrict_iff,normalized_of_exact hx,normalized_of_exact hy] at hn
  have hhash : ∀ m : OfpMatch, hashExactMatchEntry m =
      hashExactMatchEntry { m.unpadded with wildcards := 0 } := fun _ => rfl
  rw [hhash x,hhash y,hn]

end Strict

def Covers (e m : OfpMatch) : Prop :=
  ∀ packet, exactMatch packet = true → compareMatch m packet = true → compareMatch e packet = true

def Overlaps (e m : OfpMatch) : Prop :=
  ∃ packet, exactMatch packet = true ∧ compareMatch e packet = true ∧ compareMatch m packet = true

section Packets

variable {x y packet : OfpMatch}

theorem compareMatch_packet (hp : exactMatch packet = true) :
    compareMatch x packet = fieldsMatch x.wildcards (createNwSrcMask x.wildcards)
      (createNwDstMask x.wildcards) x packet := by
  have hflag : ∀ flag, ofpfwAll &&& flag = flag →
      (x.wildcards ||| packet.wildcards) &&& flag = x.wildcards &&& flag := by
    intro flag hf
    rw [or_and_right,and_flag_of_exact hp hf,UInt32.or_zero]
  simp only [compareMatch,fieldsMatch,fieldMatches,createNwSrcMask_of_exact hp,
    createNwDstMask_of_exact hp,and_ones,
    hflag ofpfwInPort (by decide),hflag ofpfwDlVlan (by decide),hflag ofpfwDlVlanPcp (by decide),
    hflag ofpfwDlSrc (by decide),hflag ofpfwDlDst (by decide),hflag ofpfwDlType (by decide),
    hflag ofpfwNwTos (by decide),hflag ofpfwNwProto (by decide),hflag ofpfwTpSrc (by decide),
    hflag ofpfwTpDst (by decide)]

theorem fieldMatches_kept {α : Type} [DecidableEq α] {w w' flag : UInt32} {a b : α}
    (h : fieldMatches (w ||| w') flag (a == b) = true) :
    fieldMatches w flag (a == kept b w flag a) = true ∧
      fieldMatches w' flag (b == kept b w flag a) = true := by
  simp only [fieldMatches,or_and_right,kept] at *
  by_cases hz : w &&& flag = 0
  · simp only [hz,UInt32.zero_or] at h
    simp only [hz,if_true]
    refine ⟨by simp,?_⟩
    rcases Bool.or_eq_true _ _ ▸ h with h | h
    · simp [h]
    · simp [eq_of_beq h]
  · simp [hz]

theorem fieldMatches_meet {α : Type} [DecidableEq α] {w w' flag : UInt32} {a b c : α}
    (ha : fieldMatches w flag (a == c) = true) (hb : fieldMatches w' flag (b == c) = true) :
    fieldMatches (w ||| w') flag (a == b) = true := by
  simp only [fieldMatches,or_and_right,Bool.or_eq_true,bne_iff_ne,beq_iff_eq,ne_eq,
    UInt32.or_eq_zero_iff] at *
  rcases ha with ha | ha
  · exact .inl fun h => ha h.1
  · rcases hb with hb | hb
    · exact .inl fun h => hb h.2
    · exact .inr (ha.trans hb.symm)

def commonPacket (x y : OfpMatch) : OfpMatch where
  wildcards := 0
  inPort := kept y.inPort x.wildcards ofpfwInPort x.inPort
  dlSrc := kept y.dlSrc x.wildcards ofpfwDlSrc x.dlSrc
  dlDst := kept y.dlDst x.wildcards ofpfwDlDst x.dlDst
  dlVlan := kept y.dlVlan x.wildcards ofpfwDlVlan x.dlVlan
  dlVlanPcp := kept y.dlVlanPcp x.wildcards ofpfwDlVlanPcp x.dlVlanPcp
  pad1 := 0
  dlType := kept y.dlType x.wildcards ofpfwDlType x.dlType
  nwTos := kept y.nwTos x.wildcards ofpfwNwTos x.nwTos
  nwProto := kept y.nwProto x.wildcards ofpfwNwProto x.nwProto
  pad2 := 0
  nwSrc := x.nwSrc &&& createNwSrcMask x.wildcards ||| y.nwSrc &&& ~~~createNwSrcMask x.wildcards
  nwDst := x.nwDst &&& createNwDstMask x.wildcards ||| y.nwDst &&& ~~~createNwDstMask x.wildcards
  tpSrc := kept y.tpSrc x.wildcards ofpfwTpSrc x.tpSrc
  tpDst := kept y.tpDst x.wildcards ofpfwTpDst x.tpDst

theorem compareMatch_iff_overlaps : compareMatch x y = true ↔ Overlaps x y := by
  constructor
  · intro h
    have hp : exactMatch (commonPacket x y) = true := by simp [exactMatch,commonPacket]
    refine ⟨commonPacket x y,hp,?_⟩
    rw [compareMatch_packet hp,compareMatch_packet hp]
    simp only [compareMatch,fieldsMatch,Bool.and_eq_true,beq_iff_eq] at *
    obtain ⟨⟨⟨⟨⟨⟨⟨⟨⟨⟨⟨h1,h2⟩,h3⟩,h4⟩,h5⟩,h6⟩,h7⟩,h8⟩,h9⟩,h10⟩,h11⟩,h12⟩ := h
    obtain ⟨a1,b1⟩ := fieldMatches_kept h1
    obtain ⟨a2,b2⟩ := fieldMatches_kept h2
    obtain ⟨a3,b3⟩ := fieldMatches_kept h3
    obtain ⟨a4,b4⟩ := fieldMatches_kept h4
    obtain ⟨a5,b5⟩ := fieldMatches_kept h5
    obtain ⟨a6,b6⟩ := fieldMatches_kept h6
    obtain ⟨a7,b7⟩ := merged_bits h7
    obtain ⟨a8,b8⟩ := merged_bits h8
    obtain ⟨a9,b9⟩ := fieldMatches_kept h9
    obtain ⟨a10,b10⟩ := fieldMatches_kept h10
    obtain ⟨a11,b11⟩ := fieldMatches_kept h11
    obtain ⟨a12,b12⟩ := fieldMatches_kept h12
    exact ⟨⟨⟨⟨⟨⟨⟨⟨⟨⟨⟨⟨a1,a2⟩,a3⟩,a4⟩,a5⟩,a6⟩,a7⟩,a8⟩,a9⟩,a10⟩,a11⟩,a12⟩,
      ⟨⟨⟨⟨⟨⟨⟨⟨⟨⟨⟨b1,b2⟩,b3⟩,b4⟩,b5⟩,b6⟩,b7⟩,b8⟩,b9⟩,b10⟩,b11⟩,b12⟩⟩
  · rintro ⟨packet,hp,hx,hy⟩
    rw [compareMatch_packet hp] at hx hy
    simp only [compareMatch,fieldsMatch,Bool.and_eq_true,beq_iff_eq] at *
    obtain ⟨⟨⟨⟨⟨⟨⟨⟨⟨⟨⟨a1,a2⟩,a3⟩,a4⟩,a5⟩,a6⟩,a7⟩,a8⟩,a9⟩,a10⟩,a11⟩,a12⟩ := hx
    obtain ⟨⟨⟨⟨⟨⟨⟨⟨⟨⟨⟨b1,b2⟩,b3⟩,b4⟩,b5⟩,b6⟩,b7⟩,b8⟩,b9⟩,b10⟩,b11⟩,b12⟩ := hy
    exact ⟨⟨⟨⟨⟨⟨⟨⟨⟨⟨⟨fieldMatches_meet a1 b1,fieldMatches_meet a2 b2⟩,fieldMatches_meet a3 b3⟩,
      fieldMatches_meet a4 b4⟩,fieldMatches_meet a5 b5⟩,fieldMatches_meet a6 b6⟩,common_bits a7 b7⟩,
      common_bits a8 b8⟩,fieldMatches_meet a9 b9⟩,fieldMatches_meet a10 b10⟩,
      fieldMatches_meet a11 b11⟩,fieldMatches_meet a12 b12⟩

theorem compareMatch_refl (x : OfpMatch) : compareMatch x x = true := by
  simp [compareMatch,fieldsMatch,fieldMatches]

theorem compareMatch_congr (hy : exactMatch y = true) (h : compareMatchStrict packet y = true) :
    compareMatch x packet = compareMatch x y := by
  have hp : exactMatch packet = true := by rw [exactMatch_congr h,hy]
  have hn := compareMatchStrict_iff.mp h
  rw [normalized_of_exact hp,normalized_of_exact hy] at hn
  have hfields : ∀ m : OfpMatch, fieldsMatch x.wildcards (createNwSrcMask x.wildcards)
      (createNwDstMask x.wildcards) x m = fieldsMatch x.wildcards (createNwSrcMask x.wildcards)
        (createNwDstMask x.wildcards) x { m.unpadded with wildcards := 0 } := fun _ => rfl
  rw [compareMatch_packet hp,compareMatch_packet hy,hfields packet,hfields y,hn]

theorem fieldMatches_normalized {α : Type} [DecidableEq α] (zero : α) (w : UInt32) {flag : UInt32}
    (a b : α) (hf : ofpfwAll &&& flag = flag) :
    fieldMatches (w &&& ofpfwAll) flag (kept zero w flag a == b) = fieldMatches w flag (a == b) := by
  rw [fieldMatches,fieldMatches,UInt32.and_assoc,hf,kept]
  by_cases hz : w &&& flag = 0
  · simp [hz]
  · rw [bne_iff_ne.mpr hz,Bool.true_or,Bool.true_or]

theorem xor_and_twice (x y m : UInt32) : ((x &&& m) ^^^ y) &&& m = (x ^^^ y) &&& m := by
  rw [and_xor_distrib,and_xor_distrib,UInt32.and_assoc,UInt32.and_self]

theorem compareMatch_normalized (hp : exactMatch packet = true) :
    compareMatch (normalized x) packet = compareMatch x packet := by
  have hall : x.wildcards &&& ofpfwAll &&& ofpfwAll = x.wildcards &&& ofpfwAll := by
    rw [UInt32.and_assoc,UInt32.and_self]
  rw [compareMatch_packet hp,compareMatch_packet hp]
  simp only [fieldsMatch,normalized,createNwSrcMask_congr hall,createNwDstMask_congr hall,
    xor_and_twice,
    fieldMatches_normalized _ x.wildcards _ _ (show ofpfwAll &&& ofpfwInPort = _ by decide),
    fieldMatches_normalized _ x.wildcards _ _ (show ofpfwAll &&& ofpfwDlVlan = _ by decide),
    fieldMatches_normalized _ x.wildcards _ _ (show ofpfwAll &&& ofpfwDlVlanPcp = _ by decide),
    fieldMatches_normalized _ x.wildcards _ _ (show ofpfwAll &&& ofpfwDlSrc = _ by decide),
    fieldMatches_normalized _ x.wildcards _ _ (show ofpfwAll &&& ofpfwDlDst = _ by decide),
    fieldMatches_normalized _ x.wildcards _ _ (show ofpfwAll &&& ofpfwDlType = _ by decide),
    fieldMatches_normalized _ x.wildcards _ _ (show ofpfwAll &&& ofpfwNwTos = _ by decide),
    fieldMatches_normalized _ x.wildcards _ _ (show ofpfwAll &&& ofpfwNwProto = _ by decide),
    fieldMatches_normalized _ x.wildcards _ _ (show ofpfwAll &&& ofpfwTpSrc = _ by decide),
    fieldMatches_normalized _ x.wildcards _ _ (show ofpfwAll &&& ofpfwTpDst = _ by decide)]

theorem compareMatch_congr_left (hp : exactMatch packet = true) (h : compareMatchStrict x y = true) :
    compareMatch x packet = compareMatch y packet := by
  rw [← compareMatch_normalized hp,compareMatchStrict_iff.mp h,compareMatch_normalized hp]

theorem strict_of_exact (hx : exactMatch x = true) (hy : exactMatch y = true)
    (h : compareMatch x y = true) : compareMatchStrict x y = true := by
  rw [compareMatchStrict,h,Bool.and_true,beq_iff_eq,xor_and_eq_zero,
    and_flag_of_exact hx (by decide),and_flag_of_exact hy (by decide)]

theorem compareMatch_iff_covers (hy : exactMatch y = true) : compareMatch x y = true ↔ Covers x y := by
  constructor
  · intro h packet hp hyp
    rwa [compareMatch_congr hy (compareMatchStrict_symm (strict_of_exact hy hp hyp))]
  · intro h
    exact h y hy (compareMatch_refl y)

end Packets

end Trema.Table
