import Trema.OpenFlow.Faults

namespace Trema.OpenFlow

open Library Layout

def Listed (t : OfpType) (e : ValidationError) : Prop := ((errorMaps t).search e).isSome = true

instance (t : OfpType) (e : ValidationError) : Decidable (Listed t e) :=
  inferInstanceAs (Decidable (_ = _))

theorem headerFaults_listed (t : OfpType) : ∀ e ∈ headerFaults, Listed t e := by
  cases t <;> decide

@[simp] theorem validateHeader_listed (t : OfpType) (message : Bytes) (type : OfpType) (lo hi : Nat) :
    FailsOnly (Listed t) (validateHeader message type lo hi) :=
  validateHeader_failsOnly (headerFaults_listed t) message type lo hi

theorem header_listed {α : Type} {t : OfpType} {message : Bytes} {type : OfpType} {lo hi : Nat}
    {f : Unit → Exec α} : FailsOnly (Listed t) (validateHeader message type lo hi >>= f) ↔
      (Headed message type lo hi → FailsOnly (Listed t) (f ())) :=
  validateHeader_bind_failsOnly (headerFaults_listed t)

theorem validateFeaturesReply_listed (message : Bytes) :
    FailsOnly (Listed .featuresReply) (validateFeaturesReply message) ↔
      (Headed message .featuresReply 32 65535 → hostByte message 20 ≠ 0 ∧
        (message.length - 32) % 48 = 0 ∧ ∀ i, i < (message.length - 32) / 48 →
          ValidPhyPort (phyPortAt message (32 + i * 48))) := by
  rw [validateFeaturesReply,header_listed]
  refine forall_congr' fun hh => ?_
  have hl := hh.lower
  have hlen := hh.length
  have hsub : sub16 (be16 message 2).toNat 32 = message.length - 32 := by
    rw [sub16_of_le (by omega) (be16 message 2).toNat_lt,hlen]
  have hport : ∀ i, i < (message.length - 32) / 48 → 32 + i * 48 + 48 ≤ message.length := by
    intro i hi
    omega
  have hfaults : ∀ e ∈ phyPortFaults, ¬ Listed .featuresReply e := by decide
  have htable : ¬ Listed .featuresReply .noTableAvailable := by decide
  have hlength : ¬ Listed .featuresReply .invalidLength := by decide
  simp only [byteAt_bind_failsOnly,net16_bind_failsOnly,hsub,onlyIf_failsOnly,
    rejectIf_bind_unlisted htable,rejectIf_bind_unlisted hlength,validatePhyPorts,not_not]
  rw [validateEach_failsOnly fun i hi => validatePhyPort_ok_of_failsOnly hfaults (hport i hi)]
  constructor
  · intro h
    obtain ⟨htables,hrest⟩ := h (by omega)
    obtain ⟨hmod,hports⟩ := hrest (by omega)
    exact ⟨htables,hmod,fun i hi =>
      (validatePhyPort_failsOnly hfaults (hport i hi)).mp (hports (by omega) i hi)⟩
  · rintro ⟨htables,hmod,hports⟩ _
    exact ⟨htables,fun _ => ⟨hmod,fun _ i hi =>
      (validatePhyPort_failsOnly hfaults (hport i hi)).mpr (hports i hi)⟩⟩

theorem validateGetConfigReply_listed (message : Bytes) :
    FailsOnly (Listed .getConfigReply) (validateGetConfigReply message) ↔
      (Headed message .getConfigReply 12 12 → be16 message 8 ≤ ofpcFragMask) := by
  rw [validateGetConfigReply,validateSwitchConfig,header_listed]
  refine forall_congr' fun hh => ?_
  have hl := hh.lower
  have hflags : ¬ Listed .getConfigReply .invalidSwitchConfig := by decide
  simp only [net16_bind_failsOnly,rejectIf_failsOnly,hflags,imp_false,UInt16.not_lt]
  exact forall_prop_of_true (by omega)

theorem validatePacketIn_listed (message : Bytes) :
    FailsOnly (Listed .packetIn) (validatePacketIn message) ↔
      (Headed message .packetIn 18 65535 → ValidPortNo (be16 message 14)) := by
  rw [validatePacketIn,header_listed]
  refine forall_congr' fun hh => ?_
  have hl := hh.lower
  have hno : ¬ Listed .packetIn .invalidPortNo := by decide
  have hreason : Listed .packetIn .invalidPacketInReason := by decide
  simp only [net16_bind_failsOnly,byteAt_bind_failsOnly,validatePhyPortNo_bind_unlisted hno,
    rejectIf_failsOnly,hreason,implies_true,and_true]
  exact forall_prop_of_true (by omega)

theorem validateFlowRemoved_listed (message : Bytes) :
    FailsOnly (Listed .flowRemoved) (validateFlowRemoved message) ↔
      (Headed message .flowRemoved 88 88 → ValidMatch (matchAt message 8)) := by
  rw [validateFlowRemoved,header_listed]
  refine forall_congr' fun hh => ?_
  have hl := hh.lower
  have hread : readEnd matchFields = 40 := rfl
  have hmatch : ∀ e ∈ matchFaults, ¬ Listed .flowRemoved e := by decide
  have hpriority : Listed .flowRemoved .invalidFlowPriority := by decide
  have hreason : Listed .flowRemoved .invalidFlowRemovedReason := by decide
  simp only [ntohMatch,convert_bind_failsOnly,hread,validateMatch_bind_unlisted hmatch,matchAt]
  refine (forall_prop_of_true (by omega)).trans (and_iff_left ?_)
  simp [validateExactPriority,failsOnly_bind,hpriority,hreason]

theorem validatePortStatus_listed (message : Bytes) :
    FailsOnly (Listed .portStatus) (validatePortStatus message) ↔
      (Headed message .portStatus 64 64 → hostByte message 8 ≤ ofpprModify →
        ValidPhyPort (phyPortAt message 16)) := by
  rw [validatePortStatus,header_listed]
  refine forall_congr' fun hh => ?_
  have hl := hh.lower
  have hreason : Listed .portStatus .invalidPortStatusReason := by decide
  have hfaults : ∀ e ∈ phyPortFaults, ¬ Listed .portStatus e := by decide
  simp only [byteAt_bind_failsOnly,rejectIf_bind_listed hreason,UInt8.not_lt,
    validatePhyPort_failsOnly hfaults (show 16 + 48 ≤ message.length by omega)]
  exact forall_prop_of_true (by omega)

-- A packet-out or a flow-mod is answered with the default for an action shorter than any action
-- and for a type of service that has other bits set.
structure ActionListed (m : Bytes) (p : Nat) : Prop where
  long : p + 4 ≤ m.length → 8 ≤ (be16 m (p + 2)).toNat
  nwTos : p + 5 ≤ m.length → ActionType.ofCode (be16 m p) = some .setNwTos →
    (be16 m (p + 2)).toNat = 8 → hostByte m (p + 4) &&& ~~~nwTosMask = 0

def ActionsListed (m : Bytes) (head length : Nat) : Prop :=
  ∀ lens offset, ActionWalk m head length 0 lens offset → offset < length →
    ActionListed m (head + offset)

theorem validateActions_listed (t : OfpType) (hfaults : ∀ e ∈ actionFaults, Listed t e)
    (hshort : ¬ Listed t .tooShortAction) (htos : ¬ Listed t .invalidNwTos) (m : Bytes)
    (head length : Nat) :
    RejectsOnly (Listed t) (fun n => onlyIf (0 < length) (validateActions n m head length)) ↔
      ActionsListed m head length := by
  rw [onlyIf_actions_rejectsOnly]
  refine forall_congr' fun lens => forall_congr' fun offset => forall_congr' fun _ =>
    forall_congr' fun _ => ?_
  simp only [validateAction_failsOnly hfaults,hshort,htos,imp_false,Nat.not_lt,ne_eq,not_not]
  exact ⟨fun h => ⟨h.1,h.2⟩,fun h => ⟨h.long,h.nwTos⟩⟩

theorem validatePacketOut_listed (message : Bytes) :
    RejectsOnly (Listed .packetOut) (fun n => validatePacketOut n message) ↔
      ∀ length, packetOutFields message = .ok length → ActionsListed message 16 length := by
  have hport : Listed .packetOut .invalidPortNo := by decide
  have hfields : FailsOnly (Listed .packetOut) (packetOutFields message) := by
    simp [packetOutFields,validatePhyPortNo,failsOnly_bind,hport,pure,Except.pure]
  simp only [validatePacketOut]
  rw [rejectsOnly_after fun _ => settled_onlyIf (settled_validateActions _ _ _)]
  simp only [validateActions_listed .packetOut (by decide) (by decide) (by decide),hfields,true_and]

-- The type of service of the match is looked at once the fields before it are found in order.
def MatchTosListed (mtch : OfpMatch) : Prop :=
  mtch.wildcards &&& ~~~ofpfwAll = 0 → mtch.dlVlan = uint16Max ∨ mtch.dlVlan &&& ~~~vlanVidMask = 0 →
    mtch.dlVlanPcp &&& ~~~vlanPcpMask = 0 → mtch.nwTos &&& ~~~nwTosMask = 0

-- The table of the flow-mod ends, as far as the search goes, before its priority and its flags.
structure FlowModOptionsListed (m : Bytes) (mtch : OfpMatch) : Prop where
  priority : exactWildcards mtch → be16 m 62 = uint16Max
  flags : (be16 m 56 = ofpfcDelete ∨ be16 m 56 = ofpfcDeleteStrict → be16 m 68 ≠ ofppNone →
    ValidPortNo (be16 m 68)) → be16 m 70 &&& ~~~flowModFlags = 0

theorem flowModOptions_listed {message : Bytes} (hl : 72 ≤ message.length) (mtch : OfpMatch) :
    FailsOnly (Listed .flowMod) (flowModOptions message mtch (be16 message 56)) ↔
      FlowModOptionsListed message mtch := by
  have hpriority : ¬ Listed .flowMod .invalidFlowPriority := by decide
  have hport : Listed .flowMod .invalidPortNo := by decide
  have hflags : ¬ Listed .flowMod .invalidFlowModFlags := by decide
  have hexact : validateExactPriority message 62 mtch = .ok () ↔
      (exactWildcards mtch → be16 message 62 = uint16Max) := by
    simp (disch := omega) only [validateExactPriority,onlyIf_eq_ok,net16_inside,ok_bind,rejectIf_eq_ok,
      ne_eq,not_not]
  have hout : onlyIf (be16 message 56 = ofpfcDelete ∨ be16 message 56 = ofpfcDeleteStrict) (do
      let outPort ← net16 message 68
      onlyIf (outPort ≠ ofppNone) (validatePhyPortNo outPort)) = .ok () ↔
      (be16 message 56 = ofpfcDelete ∨ be16 message 56 = ofpfcDeleteStrict →
        be16 message 68 ≠ ofppNone → ValidPortNo (be16 message 68)) := by
    simp (disch := omega) only [onlyIf_eq_ok,net16_inside,ok_bind,validatePhyPortNo,rejectIf_eq_ok,
      validPortNo_iff]
  have hpass : FailsOnly (Listed .flowMod) (validateExactPriority message 62 mtch) ↔
      validateExactPriority message 62 mtch = .ok () := by
    rw [hexact]
    simp (disch := omega) only [validateExactPriority,onlyIf_failsOnly,net16_bind_failsOnly,
      rejectIf_failsOnly,hpriority,imp_false,ne_eq,not_not]
    exact forall_congr' fun _ => forall_prop_of_true (by omega)
  have hlisted : FailsOnly (Listed .flowMod) (onlyIf (be16 message 56 = ofpfcDelete ∨
      be16 message 56 = ofpfcDeleteStrict) (do
        let outPort ← net16 message 68
        onlyIf (outPort ≠ ofppNone) (validatePhyPortNo outPort))) := by
    simp [validatePhyPortNo,failsOnly_bind,hport]
  rw [flowModOptions,failsOnly_bind,hpass]
  simp only [failsOnly_bind,hlisted,net16_failsOnly,rejectIf_failsOnly,hflags,imp_false,true_and,
    net16_eq_ok,pure,Except.pure,failsOnly_ok,implies_true,and_true,ne_eq,not_not]
  constructor
  · rintro ⟨hok,h⟩
    exact ⟨hexact.mp hok,fun hvalid => h () hok () (hout.mpr hvalid) _ ⟨by omega,rfl⟩⟩
  · intro h
    refine ⟨hexact.mpr h.priority,fun _ _ _ hok _ hread => ?_⟩
    rw [hread.2]
    exact h.flags (hout.mp hok)

def FlowModListed (message : Bytes) : Prop :=
  MatchTosListed (matchAt message 8) ∧ (ValidMatch (matchAt message 8) →
    be16 message 56 ≤ ofpfcDeleteStrict → FlowModOptionsListed message (matchAt message 8))

theorem flowModFields_listed (message : Bytes) :
    FailsOnly (Listed .flowMod) (flowModFields message) ↔
      (Headed message .flowMod 72 65535 → FlowModListed message) := by
  rw [flowModFields,header_listed]
  refine forall_congr' fun hh => ?_
  have hl := hh.lower
  have hread : readEnd matchFields = 40 := rfl
  have hwildcards : Listed .flowMod .invalidWildcards := by decide
  have hvid : Listed .flowMod .invalidVlanVid := by decide
  have hpcp : Listed .flowMod .invalidVlanPcp := by decide
  have htos : ¬ Listed .flowMod .invalidNwTos := by decide
  rw [ntohMatch,convert_bind_failsOnly,hread,failsOnly_bind]
  refine (forall_prop_of_true (by omega)).trans (and_congr ?_ ?_)
  · simp only [validateMatch,validateWildcards,validateVlanVid,validateVlanPcp,validateNwTos,
      rejectIf_bind_listed hwildcards,rejectIf_bind_listed hvid,rejectIf_bind_listed hpcp,
      rejectIf_failsOnly,htos,imp_false,not_and_or,not_not,ne_eq]
    rfl
  · simp only [net16_bind_failsOnly,skipIf_failsOnly,UInt16.not_lt,flowModOptions_listed hl]
    constructor
    · intro h hmatch
      exact h () (validateMatch_eq_ok.mpr hmatch) (by omega)
    · intro h _ hmatch _
      exact h (validateMatch_eq_ok.mp hmatch)

theorem validateFlowMod_listed (message : Bytes) :
    RejectsOnly (Listed .flowMod) (fun n => validateFlowMod n message) ↔
      (Headed message .flowMod 72 65535 → FlowModListed message) ∧
      ∀ length, flowModFields message = .ok length → ActionsListed message 72 length := by
  simp only [validateFlowMod]
  rw [rejectsOnly_after fun _ => settled_onlyIf (settled_validateActions _ _ _),flowModFields_listed]
  simp only [validateActions_listed .flowMod (by decide) (by decide) (by decide)]

theorem validateSingleStatsReply_listed (hi : Nat) (message : Bytes) :
    FailsOnly (Listed .statsReply) (validateSingleStatsReply hi message) ↔
      (Headed message .statsReply 12 hi → be16 message 10 = 0) := by
  rw [validateSingleStatsReply,header_listed]
  refine forall_congr' fun hh => ?_
  have hl := hh.lower
  have hflags : ¬ Listed .statsReply .invalidStatsReplyFlags := by decide
  simp only [net16_bind_failsOnly,rejectIf_failsOnly,hflags,imp_false,ne_eq,not_not]
  exact forall_prop_of_true (by omega)

theorem statsReplyBody_listed (message : Bytes) :
    FailsOnly (Listed .statsReply) (statsReplyBody message) ↔
      (Headed message .statsReply 12 65535 → be16 message 10 &&& ~~~ofpsfReplyMore = 0) := by
  rw [statsReplyBody,header_listed]
  refine forall_congr' fun hh => ?_
  have hl := hh.lower
  have hflags : ¬ Listed .statsReply .invalidStatsReplyFlags := by decide
  simp only [net16_bind_failsOnly,rejectIf_bind_unlisted hflags,ne_eq,not_not,pure,Except.pure,
    failsOnly_ok,implies_true,and_true]
  exact forall_prop_of_true (by omega)

theorem statsReplyBody_ok_iff {message : Bytes} {body : Nat} :
    statsReplyBody message = .ok body ↔ Headed message .statsReply 12 65535 ∧
      be16 message 10 &&& ~~~ofpsfReplyMore = 0 ∧ body = message.length - 12 := by
  simp only [statsReplyBody,bind_eq_ok,validateHeader_eq_ok,net16_eq_ok,rejectIf_eq_ok,pure,Except.pure]
  constructor
  · rintro ⟨_,hh,_,⟨_,rfl⟩,_,hflags,_,⟨_,rfl⟩,h⟩
    injection h with h
    have hl := hh.lower
    refine ⟨hh,by simpa using hflags,?_⟩
    rw [← h,hh.length,sub16_of_le hl (by rw [← hh.length]; exact UInt16.toNat_lt _)]
  · rintro ⟨hh,hflags,rfl⟩
    have hl := hh.lower
    refine ⟨(),hh,_,⟨by omega,rfl⟩,(),by simpa using hflags,_,⟨by omega,rfl⟩,?_⟩
    rw [hh.length,sub16_of_le hl (by rw [← hh.length]; exact UInt16.toNat_lt _)]

-- A statistics reply with a body: what is asked of it past the header.
def StatsBodyListed (message : Bytes) (Rest : Prop) : Prop :=
  Headed message .statsReply 12 65535 → be16 message 10 &&& ~~~ofpsfReplyMore = 0 ∧ Rest

theorem afterStatsReplyBody_listed {g : Nat → Nat → Exec Unit} (message : Bytes)
    (hg : ∀ body, Settled (fun n => g n body)) :
    RejectsOnly (Listed .statsReply) (fun n => statsReplyBody message >>= g n) ↔
      StatsBodyListed message
        (RejectsOnly (Listed .statsReply) (fun n => g n (message.length - 12))) := by
  rw [rejectsOnly_after hg,statsReplyBody_listed]
  simp only [statsReplyBody_ok_iff]
  constructor
  · rintro ⟨hflags,hrest⟩ hh
    exact ⟨hflags hh,hrest _ ⟨hh,hflags hh,rfl⟩⟩
  · intro h
    refine ⟨fun hh => (h hh).1,?_⟩
    rintro _ ⟨hh,-,rfl⟩
    exact (h hh).2

def StatsEntriesListed (size : Nat) (Valid : Nat → Prop) (message : Bytes) : Prop :=
  StatsBodyListed message ((message.length - 12) % size = 0 ∧
    ∀ i, i < (message.length - 12) / size → Valid (12 + i * size))

theorem validateStatsEntries_listed {size : Nat} {check : Bytes → Nat → Exec Unit}
    {Valid : Nat → Prop} {message : Bytes}
    (hcheck : ∀ p, p + size ≤ message.length →
      (FailsOnly (Listed .statsReply) (check message p) ↔ Valid p))
    (hok : ∀ p, p + size ≤ message.length → Valid p → check message p = .ok ()) :
    FailsOnly (Listed .statsReply) (validateStatsEntries size check message) ↔
      StatsEntriesListed size Valid message := by
  have hlength : ¬ Listed .statsReply .invalidLength := by decide
  have hafter := afterStatsReplyBody_listed (g := fun _ length => do
    rejectIf (length % size ≠ 0) .invalidLength
    validateEach (check message) size 12 (length / size)) message fun _ => settled_const _
  refine rejectsOnly_const.symm.trans (hafter.trans ?_)
  refine forall_congr' fun hh => and_congr_right fun _ => ?_
  rw [rejectsOnly_const,rejectIf_bind_unlisted hlength]
  have hl := hh.lower
  have hfit : ∀ i, i < (message.length - 12) / size → 12 + i * size + size ≤ message.length := by
    intro i hi
    have hle := Nat.div_mul_le_self (message.length - 12) size
    have hmul : (i + 1) * size ≤ (message.length - 12) / size * size := Nat.mul_le_mul_right _ hi
    rw [Nat.succ_mul] at hmul
    omega
  rw [not_not,validateEach_failsOnly fun i hi h => hok _ (hfit i hi) ((hcheck _ (hfit i hi)).mp h)]
  exact and_congr_right fun _ => forall_congr' fun i => forall_congr' fun hi => hcheck _ (hfit i hi)

theorem validateTableStatsReply_listed (message : Bytes) :
    FailsOnly (Listed .statsReply) (validateTableStatsReply message) ↔
      StatsEntriesListed 64 (fun p => be32 message (p + 36) &&& ~~~ofpfwAll = 0) message := by
  have hwildcards : ¬ Listed .statsReply .invalidWildcards := by decide
  refine validateStatsEntries_listed (fun p hp => ?_) fun p hp hv => ?_
  · simp only [net32_bind_failsOnly,validateWildcards,rejectIf_failsOnly,hwildcards,imp_false,ne_eq,
      not_not]
    exact forall_prop_of_true (by omega)
  · rw [net32_inside (by omega)]
    exact rejectIf_eq_ok.mpr (not_not.mpr hv)

theorem portStatsEntries_listed (size : Nat) (hsize : 2 ≤ size) (message : Bytes) :
    FailsOnly (Listed .statsReply) (validateStatsEntries size (fun m p => do
        let portNo ← net16 m p
        validatePhyPortNo portNo) message) ↔
      StatsEntriesListed size (fun p => ValidPortNo (be16 message p)) message := by
  have hport : ¬ Listed .statsReply .invalidPortNo := by decide
  refine validateStatsEntries_listed (fun p hp => ?_) fun p hp hv => ?_
  · simp only [net16_bind_failsOnly,validatePhyPortNo_failsOnly,hport,imp_false,not_not]
    exact forall_prop_of_true (by omega)
  · rw [net16_inside (by omega)]
    exact rejectIf_eq_ok.mpr (validPortNo_iff.mp hv)

theorem validateAction_statsReply (m : Bytes) (p : Nat) :
    FailsOnly (Listed .statsReply) (validateAction m p) ↔
      (ActionReadable m p → validateAction m p = .ok ()) := by
  have hfaults : ∀ e ∈ actionFaults, ¬ Listed .statsReply e := by decide
  have hshort : ¬ Listed .statsReply .tooShortAction := by decide
  have htos : ¬ Listed .statsReply .invalidNwTos := by decide
  rw [← validateAction_outOfBounds]
  refine failsOnly_iff_ok ((validateAction_failsOnly hfaults).mpr ?_) (validateAction_ne_outOfFuel m p)
    (validateAction_ne_aborted m p)
  exact ⟨fun _ _ => hshort,fun _ _ _ _ => htos⟩

-- None of what can be wrong with an entry of a flow statistics reply has an entry in the table.
structure FlowEntryListed (m : Bytes) (p : Nat) : Prop where
  mtch : p + 44 ≤ m.length → ValidMatch (matchAt m (p + 4))
  priority : p + 54 ≤ m.length → exactWildcards (matchAt m (p + 4)) →
    uint16Max ≤ be16 m (p + 52)
  actions : ∀ length, flowStatsHead m p = .ok length → ∀ lens offset,
    ActionWalk m (p + 88) (entryActionsLength length) 0 lens offset →
      offset < entryActionsLength length → ActionReadable m (p + 88 + offset) →
        validateAction m (p + 88 + offset) = .ok ()

theorem flowStatsHead_listed (m : Bytes) (p : Nat) :
    FailsOnly (Listed .statsReply) (flowStatsHead m p) ↔
      (p + 44 ≤ m.length → ValidMatch (matchAt m (p + 4))) ∧
      (p + 54 ≤ m.length → exactWildcards (matchAt m (p + 4)) → uint16Max ≤ be16 m (p + 52)) := by
  have hread : readEnd matchFields = 40 := rfl
  have hmatch : ∀ e ∈ matchFaults, ¬ Listed .statsReply e := by decide
  have hpriority : ¬ Listed .statsReply .invalidFlowPriority := by decide
  by_cases hp : p + 44 ≤ m.length
  · rw [flowStatsHead,ntohMatch,convert_bind_failsOnly,hread,forall_prop_of_true (by omega),
      validateMatch_bind_unlisted hmatch,failsOnly_bind,onlyIf_failsOnly,net16_bind_failsOnly,
      rejectIf_failsOnly,forall_prop_of_true hp]
    simp only [hpriority,imp_false,UInt16.not_lt,failsOnly_bind,net16_failsOnly,pure,Except.pure,
      failsOnly_ok,implies_true,and_true]
    exact and_congr_right fun _ => ⟨fun h hin hx => h hx hin,fun h hx hin => h hin hx⟩
  · rw [flowStatsHead,ntohMatch,convert_bind_failsOnly,hread]
    exact iff_of_true (fun h => absurd h (by omega)) ⟨fun h => absurd h hp,fun h => absurd h (by omega)⟩

theorem flowStatsStep_listed (m : Bytes) (s : Nat × Nat) :
    RejectsOnly (Listed .statsReply) (fun n => flowStatsStep n m s) ↔ FlowEntryListed m s.2 := by
  simp only [flowStatsStep]
  rw [rejectsOnly_after (settled_entryActions m s),flowStatsHead_listed]
  have hacts : ∀ length, RejectsOnly (Listed .statsReply) (fun n => onlyIf (0 < sub16 length 88)
      (validateActions n m (s.2 + 88) (sub16 length 88)) >>= fun _ =>
        (pure (sub16 s.1 length,s.2 + length) : Exec (Nat × Nat))) ↔ ∀ lens offset,
          ActionWalk m (s.2 + 88) (entryActionsLength length) 0 lens offset →
            offset < entryActionsLength length → ActionReadable m (s.2 + 88 + offset) →
              validateAction m (s.2 + 88 + offset) = .ok () := by
    intro length
    rw [rejectsOnly_bind (settled_onlyIf (settled_validateActions _ _ _)) (fun _ => settled_const _),
      onlyIf_actions_rejectsOnly]
    simp only [validateAction_statsReply,rejectsOnly_const,pure,Except.pure,failsOnly_ok,implies_true,
      and_true]
    rfl
  simp only [hacts]
  exact ⟨fun h => ⟨h.1.1,h.1.2,h.2⟩,fun h => ⟨⟨h.mtch,h.priority⟩,h.actions⟩⟩

def FlowStatsListed (message : Bytes) : Prop :=
  StatsBodyListed message (∀ lens s, FlowWalk message (message.length - 12,12) lens s → 0 < s.1 →
    FlowEntryListed message s.2)

theorem validateFlowStatsReply_listed (message : Bytes) :
    RejectsOnly (Listed .statsReply) (fun n => validateFlowStatsReply n message) ↔
      FlowStatsListed message := by
  have hset : ∀ body, Settled (fun n => whileLoop (fun s => decide (0 < s.1))
      (flowStatsStep n message) n (body,12)) :=
    fun body => settled_whileLoop (settled_flowStatsStep message) (body,12)
  refine (afterStatsReplyBody_listed message
    fun body => settled_bind (hset body) (fun _ => settled_const _)).trans ?_
  refine forall_congr' fun _ => and_congr_right fun _ => ?_
  rw [rejectsOnly_bind (hset _) (fun _ => settled_const _),
    whileLoop_rejectsOnly (settled_flowStatsStep message)]
  simp only [flowStatsStep_listed,(follows_flowStats message).reach,decide_eq_true_eq,
    rejectsOnly_const,pure,Except.pure,failsOnly_ok,implies_true,and_true]
  constructor
  · exact fun h lens s hw => h s ⟨lens,hw⟩
  · rintro h s ⟨lens,hw⟩
    exact h lens s hw

def StatsReplyListed (message : Bytes) : StatsType → Prop
  | .desc => Headed message .statsReply 12 (12 + 1056) → be16 message 10 = 0
  | .aggregate => Headed message .statsReply 12 (12 + 24) → be16 message 10 = 0
  | .flow => FlowStatsListed message
  | .table => StatsEntriesListed 64 (fun p => be32 message (p + 36) &&& ~~~ofpfwAll = 0) message
  | .port => StatsEntriesListed 104 (fun p => ValidPortNo (be16 message p)) message
  | .queue => StatsEntriesListed 32 (fun p => ValidPortNo (be16 message p)) message
  | .vendor => Headed message .statsReply 12 65535 → be16 message 10 &&& ~~~ofpsfReplyMore = 0

theorem validateStatsReplyByType_listed (message : Bytes) (t : StatsType) :
    RejectsOnly (Listed .statsReply) (fun n => validateStatsReplyByType n message t) ↔
      StatsReplyListed message t := by
  cases t with
  | desc => exact rejectsOnly_const.trans (validateSingleStatsReply_listed _ message)
  | aggregate => exact rejectsOnly_const.trans (validateSingleStatsReply_listed _ message)
  | flow => exact validateFlowStatsReply_listed message
  | table => exact rejectsOnly_const.trans (validateTableStatsReply_listed message)
  | port => exact rejectsOnly_const.trans (portStatsEntries_listed 104 (by omega) message)
  | queue => exact rejectsOnly_const.trans (portStatsEntries_listed 32 (by omega) message)
  | vendor =>
    refine rejectsOnly_const.trans (Iff.trans ?_ (statsReplyBody_listed message))
    exact failsOnly_bind.trans (and_iff_left fun _ _ => failsOnly_ok ())

theorem validateStatsReply_listed (message : Bytes) :
    RejectsOnly (Listed .statsReply) (fun n => validateStatsReply n message) ↔
      (10 ≤ message.length → ∃ t, StatsType.ofCode (be16 message 8) = some t ∧
        StatsReplyListed message t) := by
  have htype : ¬ Listed .statsReply .unsupportedStatsType := by decide
  simp only [validateStatsReply]
  rw [rejectsOnly_after fun _ => settled_dispatch _ _ (settled_validateStatsReplyByType message)]
  simp only [net16_failsOnly,true_and,net16_eq_ok]
  have hdispatch : ∀ type : Option StatsType, RejectsOnly (Listed .statsReply) (fun n =>
      dispatch type .unsupportedStatsType (validateStatsReplyByType n message)) ↔
        ∃ t, type = some t ∧ StatsReplyListed message t := by
    intro type
    cases type with
    | none => simp [dispatch,rejectsOnly_const,htype]
    | some t => simpa [dispatch] using validateStatsReplyByType_listed message t
  simp only [hdispatch]
  constructor
  · intro h hin
    exact h _ ⟨by omega,rfl⟩
  · rintro h _ ⟨hin,rfl⟩
    exact h (by omega)

def ValidProperty (m : Bytes) (p : Nat) : Prop :=
  (be16 m p = ofpqtNone ∧ (be16 m (p + 2)).toNat = 8) ∨
    (be16 m p = ofpqtMinRate ∧ (be16 m (p + 2)).toNat = 16)

theorem validateQueueProperty_listed (m : Bytes) (p : Nat) :
    FailsOnly (Listed .queueGetConfigReply) (validateQueueProperty m p) ↔
      (p + 4 ≤ m.length → ValidProperty m p) := by
  have hshort : ¬ Listed .queueGetConfigReply .tooShortQueueProperty := by decide
  have hlong : ¬ Listed .queueGetConfigReply .tooLongQueueProperty := by decide
  have hproperty : ¬ Listed .queueGetConfigReply .undefinedQueueProperty := by decide
  have hfaults : FailsOnly (fun e => ¬ Listed .queueGetConfigReply e) (validateQueueProperty m p) := by
    rw [validateQueueProperty]
    simp only [failsOnly_bind,net16_failsOnly,rejectIf_failsOnly,hshort,not_false_eq_true,implies_true,
      true_and]
    intro len _ _ _ property _
    split
    · simp [validatePropertySize,failsOnly_bind,hshort,hlong]
    · split
      · simp [validatePropertySize,failsOnly_bind,hshort,hlong]
      · simpa using hproperty
  rw [failsOnly_iff_ok hfaults (validateQueueProperty_ne_outOfFuel m p)
    (validateQueueProperty_ne_aborted m p),validateQueueProperty_outOfBounds,validateQueueProperty_eq_ok]
  exact forall_congr' fun hp => and_iff_right hp

structure QueueListed (m : Bytes) (p : Nat) : Prop where
  long : p + 6 ≤ m.length → 16 ≤ (be16 m (p + 4)).toNat
  properties : p + 6 ≤ m.length → ∀ lens offset,
    PropertyWalk m (p + 8) ((be16 m (p + 4)).toNat - 8) 0 lens offset →
      offset < (be16 m (p + 4)).toNat - 8 → p + 8 + offset + 4 ≤ m.length →
        ValidProperty m (p + 8 + offset)

theorem validatePacketQueue_listed (m : Bytes) (p : Nat) :
    RejectsOnly (Listed .queueGetConfigReply) (fun n => validatePacketQueue n m p) ↔
      QueueListed m p := by
  have hshort : ¬ Listed .queueGetConfigReply .tooShortQueueDescription := by decide
  simp only [validatePacketQueue]
  rw [rejectsOnly_after fun _ => settled_bind (settled_const _)
    (fun _ => settled_validateQueueProperties _ _ _)]
  have hrest : ∀ len : UInt16, RejectsOnly (Listed .queueGetConfigReply) (fun n =>
      rejectIf (len.toNat < 16) .tooShortQueueDescription >>= fun _ =>
        validateQueueProperties n m (p + 8) (sub16 len.toNat 8)) ↔ 16 ≤ len.toNat ∧
      ∀ lens offset, PropertyWalk m (p + 8) (len.toNat - 8) 0 lens offset →
        offset < len.toNat - 8 → p + 8 + offset + 4 ≤ m.length → ValidProperty m (p + 8 + offset) := by
    intro len
    rw [rejectsOnly_after fun _ => settled_validateQueueProperties _ _ _,rejectIf_failsOnly]
    simp only [hshort,imp_false,Nat.not_lt,rejectIf_eq_ok]
    refine and_congr_right fun hlen => ?_
    rw [sub16_of_le (by omega) len.toNat_lt]
    simp only [hlen,forall_const,← validateQueueProperty_listed]
    exact validateElements_rejectsOnly (fun _ _ h => (validateQueueProperty_reads h).1) m _ _
  simp only [hrest,net16_failsOnly,true_and,net16_eq_ok]
  constructor
  · intro h
    exact ⟨fun hin => (h _ ⟨by omega,rfl⟩).1,fun hin => (h _ ⟨by omega,rfl⟩).2⟩
  · rintro ⟨hlong,hprops⟩ _ ⟨hin,rfl⟩
    exact ⟨hlong (by omega),hprops (by omega)⟩

theorem validatePacketQueues_listed (m : Bytes) (p k : Nat) :
    RejectsOnly (Listed .queueGetConfigReply) (fun n => validatePacketQueues n m p k) ↔
      ∀ lens q, CheckedWalk m p lens q → lens.length < k → QueueListed m q := by
  induction k generalizing p with
  | zero => simp [validatePacketQueues,rejectsOnly_const]
  | succ k ih =>
    simp only [validatePacketQueues]
    rw [rejectsOnly_bind (settled_validatePacketQueue m p) (fun _ => settled_bind (settled_const _)
      (fun len : UInt16 => settled_validatePacketQueues m (p + len.toNat) k)),validatePacketQueue_listed]
    have hrest : RejectsOnly (Listed .queueGetConfigReply) (fun n => net16 m (p + 4) >>= fun len =>
        validatePacketQueues n m (p + len.toNat) k) ↔ (p + 6 ≤ m.length → ∀ lens q,
          CheckedWalk m (p + (be16 m (p + 4)).toNat) lens q → lens.length < k → QueueListed m q) := by
      rw [rejectsOnly_after fun len : UInt16 => settled_validatePacketQueues m (p + len.toNat) k]
      simp only [net16_failsOnly,true_and,ih,net16_eq_ok]
      constructor
      · intro h hin
        exact h _ ⟨by omega,rfl⟩
      · rintro h _ ⟨hin,rfl⟩
        exact h (by omega)
    simp only [hrest]
    constructor
    · rintro ⟨hq,hqueues⟩ lens q hw hlt
      cases hw with
      | nil => exact hq
      | cons he rest =>
        obtain ⟨hok,rfl⟩ := he
        have hin := ((validatePacketQueue_noFault m p).mp
          ((settled_validatePacketQueue m p).safe hok).2).header
        exact hqueues () hok hin _ q rest (by simpa using hlt)
    · intro h
      refine ⟨h [] p (.nil p) (by simp),fun _ hok _ lens q hw hlt => ?_⟩
      exact h (_ :: lens) q (.cons ⟨hok,rfl⟩ hw) (by simpa using hlt)

structure QueuesListed (message : Bytes) (body : Nat) : Prop where
  whole : ∀ lens s, QueueWalk message ⟨body,16,0⟩ lens s → s.remaining ≤ 8 → s.remaining = 0
  checked : ∀ lens s, QueueWalk message ⟨body,16,0⟩ lens s → s.remaining = 0 →
    ∀ ks q, CheckedWalk message 16 ks q → ks.length < lens.length → QueueListed message q

theorem queueConfigFields_eq_ok {message : Bytes} {body : Nat} :
    queueConfigFields message = .ok body ↔ Headed message .queueGetConfigReply 24 65535 ∧
      ValidPortNo (be16 message 8) ∧ body = message.length - 16 := by
  simp only [queueConfigFields,bind_eq_ok,validateHeader_eq_ok,net16_eq_ok,validatePhyPortNo,
    rejectIf_eq_ok,pure,Except.pure,← validPortNo_iff]
  constructor
  · rintro ⟨_,hh,_,⟨_,rfl⟩,_,hport,_,⟨_,rfl⟩,h⟩
    injection h with h
    have hl := hh.lower
    refine ⟨hh,hport,?_⟩
    rw [← h,hh.length,sub16_of_le (by omega) (by rw [← hh.length]; exact UInt16.toNat_lt _)]
  · rintro ⟨hh,hport,rfl⟩
    have hl := hh.lower
    refine ⟨(),hh,_,⟨by omega,rfl⟩,(),hport,_,⟨by omega,rfl⟩,?_⟩
    rw [hh.length,sub16_of_le (by omega) (by rw [← hh.length]; exact UInt16.toNat_lt _)]

theorem queueConfigFields_listed (message : Bytes) :
    FailsOnly (Listed .queueGetConfigReply) (queueConfigFields message) ↔
      (Headed message .queueGetConfigReply 24 65535 → ValidPortNo (be16 message 8)) := by
  rw [queueConfigFields,header_listed]
  refine forall_congr' fun hh => ?_
  have hl := hh.lower
  have hport : ¬ Listed .queueGetConfigReply .invalidPortNo := by decide
  simp only [net16_bind_failsOnly,validatePhyPortNo_bind_unlisted hport,pure,Except.pure,failsOnly_ok,
    implies_true,and_true]
  exact forall_prop_of_true (by omega)

theorem validateQueueGetConfigReply_listed (message : Bytes) :
    RejectsOnly (Listed .queueGetConfigReply) (fun n => validateQueueGetConfigReply n message) ↔
      (Headed message .queueGetConfigReply 24 65535 → ValidPortNo (be16 message 8) ∧
        QueuesListed message (message.length - 16)) := by
  have hlength : ¬ Listed .queueGetConfigReply .invalidLength := by decide
  simp only [validateQueueGetConfigReply]
  rw [rejectsOnly_after (settled_queues message),queueConfigFields_listed]
  have hcount : ∀ s, FailsOnly (Listed .queueGetConfigReply) (countQueue message s) := fun s => by
    simp [countQueue,failsOnly_bind,pure,Except.pure]
  have hafter : ∀ s : QueueCount, RejectsOnly (Listed .queueGetConfigReply) (fun n =>
      rejectIf (s.remaining ≠ 0) .invalidLength >>= fun _ =>
        onlyIf (0 < s.queues) (validatePacketQueues n message 16 s.queues)) ↔ s.remaining = 0 ∧
      ∀ ks q, CheckedWalk message 16 ks q → ks.length < s.queues → QueueListed message q := by
    intro s
    rw [rejectsOnly_after fun _ => settled_onlyIf (settled_validatePacketQueues _ _ _),
      rejectIf_failsOnly,onlyIf_rejectsOnly,validatePacketQueues_listed]
    simp only [hlength,imp_false,rejectIf_eq_ok,ne_eq,not_not]
    refine and_congr_right fun hr => ?_
    simp only [hr,forall_const]
    exact ⟨fun h ks q hw hlt => h (by omega) ks q hw hlt,fun h _ => h⟩
  have hloop : ∀ body, RejectsOnly (Listed .queueGetConfigReply) (fun n =>
      whileLoop (fun s => decide (8 < s.remaining)) (countQueue message) n ⟨body,16,0⟩ >>= fun counted =>
        rejectIf (counted.remaining ≠ 0) .invalidLength >>= fun _ =>
          onlyIf (0 < counted.queues) (validatePacketQueues n message 16 counted.queues)) ↔
      QueuesListed message body := by
    intro body
    rw [rejectsOnly_bind (settled_queuesLoop message body) (settled_queuesAfter message),
      whileLoop_rejectsOnly fun s => settled_const (countQueue message s)]
    simp only [rejectsOnly_const,hcount,implies_true,true_and,hafter,
      whileLoop_yields_ok (fun s => settled_const (countQueue message s)),(follows_queues message).reach,
      decide_eq_false_iff_not,Nat.not_lt]
    constructor
    · intro h
      refine ⟨fun lens s hw hr => (h s ⟨⟨lens,hw⟩,hr⟩).1,fun lens s hw hr ks q hq hlt => ?_⟩
      refine (h s ⟨⟨lens,hw⟩,by omega⟩).2 ks q hq ?_
      rw [queueWalk_queues hw]
      simpa using hlt
    · rintro ⟨hwhole,hchecked⟩ s ⟨⟨lens,hw⟩,hr⟩
      refine ⟨hwhole lens s hw hr,fun ks q hq hlt => hchecked lens s hw (hwhole lens s hw hr) ks q hq ?_⟩
      rw [queueWalk_queues hw] at hlt
      simpa using hlt
  simp only [hloop,queueConfigFields_eq_ok]
  constructor
  · rintro ⟨hport,hqueues⟩ hh
    exact ⟨hport hh,hqueues _ ⟨hh,hport hh,rfl⟩⟩
  · intro h
    refine ⟨fun hh => (h hh).1,?_⟩
    rintro _ ⟨hh,-,rfl⟩
    exact (h hh).2

-- By type, the messages whose every fault has an entry. The table is complete for the other types.
def FaultsListed (message : Bytes) : OfpType → Prop
  | .featuresReply => Headed message .featuresReply 32 65535 → hostByte message 20 ≠ 0 ∧
      (message.length - 32) % 48 = 0 ∧ ∀ i, i < (message.length - 32) / 48 →
        ValidPhyPort (phyPortAt message (32 + i * 48))
  | .getConfigReply => Headed message .getConfigReply 12 12 → be16 message 8 ≤ ofpcFragMask
  | .packetIn => Headed message .packetIn 18 65535 → ValidPortNo (be16 message 14)
  | .flowRemoved => Headed message .flowRemoved 88 88 → ValidMatch (matchAt message 8)
  | .portStatus => Headed message .portStatus 64 64 → hostByte message 8 ≤ ofpprModify →
      ValidPhyPort (phyPortAt message 16)
  | .packetOut => ∀ length, packetOutFields message = .ok length → ActionsListed message 16 length
  | .flowMod => (Headed message .flowMod 72 65535 → FlowModListed message) ∧
      ∀ length, flowModFields message = .ok length → ActionsListed message 72 length
  | .statsReply => 10 ≤ message.length → ∃ t, StatsType.ofCode (be16 message 8) = some t ∧
      StatsReplyListed message t
  | .queueGetConfigReply => Headed message .queueGetConfigReply 24 65535 →
      ValidPortNo (be16 message 8) ∧ QueuesListed message (message.length - 16)
  | _ => True

theorem statsRequest_listed (message : Bytes) :
    FailsOnly (Listed .statsRequest) (validateStatsRequest message) := by
  have hunsupported : Listed .statsRequest .unsupportedStatsType := by decide
  have htype : Listed .statsRequest .invalidStatsType := by decide
  have hflags : Listed .statsRequest .invalidStatsRequestFlags := by decide
  have hport : Listed .statsRequest .invalidPortNo := by decide
  have hwildcards : Listed .statsRequest .invalidWildcards := by decide
  have hvid : Listed .statsRequest .invalidVlanVid := by decide
  have hpcp : Listed .statsRequest .invalidVlanPcp := by decide
  have htos : Listed .statsRequest .invalidNwTos := by decide
  have hof : ∀ (type : StatsType) (lo hi : Nat),
      FailsOnly (Listed .statsRequest) (validateStatsRequestOf type lo hi message) := fun type lo hi => by
    simp [validateStatsRequestOf,failsOnly_bind,htype,hflags]
  simp only [validateStatsRequest,failsOnly_bind,net16_failsOnly,dispatch_failsOnly,hunsupported,
    implies_true,true_and]
  intro _ _ t _
  cases t <;>
    simp [validateStatsRequestByType,validateDescStatsRequest,validateFlowStatsRequest,
      validateAggregateStatsRequest,validateTableStatsRequest,validatePortStatsRequest,
      validateQueueStatsRequest,validateVendorStatsRequest,validateFlowStatsRequestOf,ntohMatch,
      validateMatch,validateWildcards,validateVlanVid,validateVlanPcp,validateNwTos,validatePhyPortNo,
      failsOnly_bind,hof,hport,hwildcards,hvid,hpcp,htos]

theorem validateSized_listed (t type : OfpType) (lo : Nat) (message : Bytes) :
    FailsOnly (Listed t) (validateSized type lo message) := by
  rw [validateSized,header_listed]
  intro hh
  simp [failsOnly_bind,net16_eq_ok,hh.length]

theorem setConfig_listed (message : Bytes) :
    FailsOnly (Listed .setConfig) (validateSetConfig message) := by
  have hconfig : Listed .setConfig .invalidSwitchConfig := by decide
  simp [validateSetConfig,validateSwitchConfig,failsOnly_bind,hconfig]

theorem portMod_listed (message : Bytes) : FailsOnly (Listed .portMod) (validatePortMod message) := by
  have hport : Listed .portMod .invalidPortNo := by decide
  have hconfig : Listed .portMod .invalidPortConfig := by decide
  have hmask : Listed .portMod .invalidPortMask := by decide
  have hfeatures : Listed .portMod .invalidPortFeatures := by decide
  simp [validatePortMod,validatePhyPortNo,failsOnly_bind,hport,hconfig,hmask,hfeatures]

theorem queueGetConfigRequest_listed (message : Bytes) :
    FailsOnly (Listed .queueGetConfigRequest) (validateQueueGetConfigRequest message) := by
  have hport : Listed .queueGetConfigRequest .invalidPortNo := by decide
  simp [validateQueueGetConfigRequest,validatePhyPortNo,failsOnly_bind,hport]

theorem validateByType_listed (message : Bytes) (t : OfpType) :
    RejectsOnly (Listed t) (fun n => validateByType n message t) ↔ FaultsListed message t := by
  cases t with
  | featuresReply => exact rejectsOnly_const.trans (validateFeaturesReply_listed message)
  | getConfigReply => exact rejectsOnly_const.trans (validateGetConfigReply_listed message)
  | packetIn => exact rejectsOnly_const.trans (validatePacketIn_listed message)
  | flowRemoved => exact rejectsOnly_const.trans (validateFlowRemoved_listed message)
  | portStatus => exact rejectsOnly_const.trans (validatePortStatus_listed message)
  | packetOut => exact validatePacketOut_listed message
  | flowMod => exact validateFlowMod_listed message
  | statsReply => exact validateStatsReply_listed message
  | queueGetConfigReply => exact validateQueueGetConfigReply_listed message
  | statsRequest => exact iff_of_true (rejectsOnly_const.mpr (statsRequest_listed message)) trivial
  | setConfig => exact iff_of_true (rejectsOnly_const.mpr (setConfig_listed message)) trivial
  | portMod => exact iff_of_true (rejectsOnly_const.mpr (portMod_listed message)) trivial
  | queueGetConfigRequest =>
    exact iff_of_true (rejectsOnly_const.mpr (queueGetConfigRequest_listed message)) trivial
  | echoRequest => exact iff_of_true (rejectsOnly_const.mpr (validateSized_listed _ _ 8 message)) trivial
  | echoReply => exact iff_of_true (rejectsOnly_const.mpr (validateSized_listed _ _ 8 message)) trivial
  | vendor => exact iff_of_true (rejectsOnly_const.mpr (validateSized_listed _ _ 12 message)) trivial
  | _ => exact iff_of_true (rejectsOnly_const.mpr (validateHeader_listed _ message _ _ _)) trivial

theorem named_iff (message : Bytes) :
    (∀ e, Rejects message e → ∃ code, errorEntry (hostByte message 1) e = some code) ↔
      ∀ t, OfpType.ofCode (hostByte message 1) = some t → 8 ≤ message.length →
        FaultsListed message t := by
  have hlisted : ∀ t, OfpType.ofCode (hostByte message 1) = some t → ∀ e,
      (∃ code, errorEntry (hostByte message 1) e = some code) ↔ Listed t e := by
    intro t ht e
    rw [errorEntry,ht,Listed,Option.isSome_iff_exists]
  by_cases hm : 8 ≤ message.length
  · have hrun : (fun n => validateOpenflowMessage n message) =
        fun n => dispatch (OfpType.ofCode (hostByte message 1)) .undefinedType
          (validateByType n message) := by
      funext n
      simp (disch := omega) only [validateOpenflowMessage,load_ok,byteAt_inside,ok_bind]
    simp only [Rejects,hrun,hm,forall_const]
    cases ht : OfpType.ofCode (hostByte message 1) with
    | none => simp [errorEntry,ht]
    | some t =>
      simp only [Option.some.injEq,forall_eq',hlisted t ht,dispatch]
      exact validateByType_listed message t
  · have hshort : ∀ e, ¬ Rejects message e := by
      rintro e ⟨-,n,hn⟩
      simp [validateOpenflowMessage,bind_eq_error,load_eq_error,load_eq_ok,hm] at hn
    exact iff_of_true (fun e he => absurd he (hshort e)) fun _ _ h => absurd h hm

-- The answer sent is the entry found, and else the one that the caller has set.
theorem fault_named_iff (message : Bytes) :
    ((∀ e, Rejects message e → ∃ code, errorEntry (hostByte message 1) e = some code) ↔
      ∀ t, OfpType.ofCode (hostByte message 1) = some t → 8 ≤ message.length →
        FaultsListed message t) ∧
    ∀ e default, getErrorTypeAndCode (hostByte message 1) e default =
      (errorEntry (hostByte message 1) e).getD default :=
  ⟨named_iff message,getErrorTypeAndCode_eq (hostByte message 1)⟩

def portlessPacketIn : Bytes := [1,10,0,18] ++ List.replicate 14 0

theorem fault_unnamed :
    Rejects portlessPacketIn .invalidPortNo ∧
      errorEntry (hostByte portlessPacketIn 1) .invalidPortNo = none ∧
      getErrorTypeAndCode (hostByte portlessPacketIn 1) .invalidPortNo badType = badType ∧
      ¬ ∀ e, Rejects portlessPacketIn e →
        ∃ code, errorEntry (hostByte portlessPacketIn 1) e = some code := by
  have hrejects : Rejects portlessPacketIn .invalidPortNo := ⟨by simp,0,by decide⟩
  have hnone : errorEntry (hostByte portlessPacketIn 1) .invalidPortNo = none := by decide
  refine ⟨hrejects,hnone,by decide,fun h => ?_⟩
  obtain ⟨code,hcode⟩ := h _ hrejects
  simp [hnone] at hcode

end Trema.OpenFlow
