import Trema.OpenFlow.Termination

namespace Trema.OpenFlow

open Library Layout

theorem validateHeader_ne_outOfBounds (message : Bytes) (type : OfpType) (lo hi : Nat) :
    validateHeader message type lo hi ≠ .error .outOfBounds := by
  intro h
  obtain ⟨r,hr⟩ := validateHeader_eq_error h
  simp at hr

attribute [local simp] bind_eq_error rejectIf_eq_error rejectIf_eq_ok onlyIf_eq_error
  byteAt_eq_error net16_eq_error net32_eq_error convert_eq_error load_eq_error dispatch_eq_error
  validateHeader_ne_outOfBounds

theorem validatePhyPortNo_ne_outOfBounds (portNo : UInt16) :
    validatePhyPortNo portNo ≠ .error .outOfBounds := by simp [validatePhyPortNo]

theorem validateMatch_ne_outOfBounds (mtch : OfpMatch) :
    validateMatch mtch ≠ .error .outOfBounds := by
  simp [validateMatch,validateWildcards,validateVlanVid,validateVlanPcp,validateNwTos]

attribute [local simp] validatePhyPortNo_ne_outOfBounds validateMatch_ne_outOfBounds

structure ActionReadable (m : Bytes) (p : Nat) : Prop where
  header : p + 4 ≤ m.length
  fields : ∀ t, 8 ≤ (be16 m (p + 2)).toNat → ActionType.ofCode (be16 m p) = some t →
    t ≠ .vendor → p + readEnd (actionFields t) ≤ m.length

theorem validateActionAs_outOfBounds {type : ActionType} {size : Nat}
    {tooShort tooLong : ValidationError} {check : Bytes → Exec Unit} {m : Bytes} {p : Nat}
    (hcheck : ∀ b, check b ≠ .error .outOfBounds) :
    validateActionAs type size tooShort tooLong check m p ≠ .error .outOfBounds ↔
      p + readEnd (actionFields type) ≤ m.length := by
  simp [validateActionAs,hcheck]

theorem validateActionOf_outOfBounds (t : ActionType) (m : Bytes) (p : Nat) (hp : p + 4 ≤ m.length) :
    validateActionOf t m p ≠ .error .outOfBounds ↔
      (t ≠ .vendor → p + readEnd (actionFields t) ≤ m.length) := by
  cases t with
  | vendor =>
    simp [validateActionOf,validateActionVendor]
    omega
  | _ =>
    refine (validateActionAs_outOfBounds fun b => ?_).trans (by simp)
    simp [validateVlanVid,validateVlanPcp,validateNwTos]

theorem validateAction_outOfBounds (m : Bytes) (p : Nat) :
    validateAction m p ≠ .error .outOfBounds ↔ ActionReadable m p := by
  simp only [validateAction,bind_eq_error,net16_eq_error,net16_eq_ok,rejectIf_eq_error,
    rejectIf_eq_ok,dispatch_eq_error,ne_eq,not_or,not_exists,not_and]
  constructor
  · rintro ⟨h1,h2⟩
    have hp : p + 4 ≤ m.length := by
      by_contra hlt
      exact h1 (by omega) trivial
    refine ⟨hp,fun t hlen ht => ?_⟩
    have h3 := (((h2 _ ⟨by omega,rfl⟩).2 () (by omega)).2 _ ⟨by omega,rfl⟩).2 t ht
    exact (validateActionOf_outOfBounds t m p hp).mp h3
  · rintro ⟨hp,hf⟩
    refine ⟨by omega,?_⟩
    rintro _ ⟨_,rfl⟩
    refine ⟨by simp,fun _ hlen => ⟨by omega,?_⟩⟩
    rintro _ ⟨_,rfl⟩
    refine ⟨by simp,fun t ht => ?_⟩
    exact (validateActionOf_outOfBounds t m p hp).mpr (hf t (by omega) ht)

def ActionsInside (m : Bytes) (head length : Nat) : Prop :=
  ∀ lens offset, ActionWalk m head length 0 lens offset → offset < length →
    ActionReadable m (head + offset)

def PropertiesInside (m : Bytes) (head length : Nat) : Prop :=
  ∀ lens offset, PropertyWalk m head length 0 lens offset → offset < length →
    head + offset + 4 ≤ m.length

theorem validateQueueProperty_outOfBounds (m : Bytes) (p : Nat) :
    validateQueueProperty m p ≠ .error .outOfBounds ↔ p + 4 ≤ m.length := by
  simp only [validateQueueProperty,bind_eq_error,net16_eq_error,net16_eq_ok,rejectIf_eq_error,
    rejectIf_eq_ok,ne_eq,not_or,not_exists,not_and]
  constructor
  · rintro ⟨h,_⟩
    by_contra hlt
    exact h (by omega) trivial
  · intro hp
    refine ⟨by omega,?_⟩
    rintro _ ⟨_,rfl⟩
    refine ⟨by simp,fun _ hlen => ⟨by omega,?_⟩⟩
    rintro property ⟨_,rfl⟩
    split
    · simp [validatePropertySize]
    · split <;> simp [validatePropertySize]

theorem validateElements_noFault {check : Bytes → Nat → Exec Unit}
    (hread : ∀ m p, check m p = .ok () → p + 4 ≤ m.length) (m : Bytes) (head length : Nat) :
    NoFault (fun n => validateElements check n m head length) ↔
      ∀ lens offset, ElementWalk check m head length 0 lens offset → offset < length →
        check m (head + offset) ≠ .error .outOfBounds := by
  have hset : ∀ s, Settled (fun _ : Nat => elementStep check m head s) := fun _ => settled_const _
  have hstep : ∀ s, elementStep check m head s ≠ .error .outOfBounds ↔
      check m (head + s) ≠ .error .outOfBounds := by
    intro s
    simp only [elementStep,bind_eq_error,net16_eq_error,ne_eq,not_or,not_exists,not_and]
    refine ⟨fun h => h.1,fun h => ⟨h,fun _ hok => ?_⟩⟩
    have := hread m (head + s) hok
    exact ⟨by omega,fun _ _ => by simp [pure,Except.pure]⟩
  simp only [validateElements]
  rw [noFault_bind (settled_whileLoop hset 0) (fun _ => settled_const _),whileLoop_noFault hset]
  simp only [noFault_const,hstep,decide_eq_true_eq,(follows_elements hread m head length).reach]
  constructor
  · rintro ⟨h,_⟩ lens offset hw hlt
    exact h offset ⟨lens,hw⟩ hlt
  · intro h
    refine ⟨?_,fun _ _ => by simp [pure,Except.pure]⟩
    rintro t ⟨lens,hw⟩ hlt
    exact h lens t hw hlt

theorem validateActions_noFault (m : Bytes) (head length : Nat) :
    NoFault (fun n => validateActions n m head length) ↔ ActionsInside m head length := by
  refine (validateElements_noFault (fun _ _ h => (validateAction_reads h).1) m head length).trans ?_
  simp only [validateAction_outOfBounds,ActionsInside]

theorem validateQueueProperties_noFault (m : Bytes) (head length : Nat) :
    NoFault (fun n => validateQueueProperties n m head length) ↔ PropertiesInside m head length := by
  refine (validateElements_noFault (fun _ _ h => (validateQueueProperty_reads h).1)
    m head length).trans ?_
  simp only [validateQueueProperty_outOfBounds,PropertiesInside]

theorem noFault_onlyIf_actions (m : Bytes) (head length : Nat) :
    NoFault (fun n => onlyIf (0 < length) (validateActions n m head length)) ↔
      ActionsInside m head length := by
  rw [← validateActions_noFault]
  simp only [noFault_iff,yields_onlyIf_actions]

theorem packetOutFields_ne_outOfBounds (message : Bytes) :
    packetOutFields message ≠ .error .outOfBounds := by
  simp only [packetOutFields,bind_eq_error,ne_eq,not_or,not_exists,not_and,validateHeader_eq_ok]
  refine ⟨by simp,fun _ hh => ?_⟩
  have hl := hh.lower
  simp (disch := omega) [net16_inside,pure,Except.pure]

theorem flowModOptions_ne_outOfBounds {message : Bytes} (hl : 72 ≤ message.length) (mtch : OfpMatch)
    (command : UInt16) : flowModOptions message mtch command ≠ .error .outOfBounds := by
  simp (disch := omega) [flowModOptions,net16_inside,validateExactPriority,pure,Except.pure]

theorem flowModFields_ne_outOfBounds (message : Bytes) :
    flowModFields message ≠ .error .outOfBounds := by
  simp only [flowModFields,ntohMatch,bind_eq_error,ne_eq,not_or,not_exists,not_and,
    validateHeader_eq_ok,skipIf_eq_error]
  refine ⟨by simp,fun _ hh => ?_⟩
  have hl := hh.lower
  have hread : readEnd matchFields = 40 := rfl
  simp (disch := omega) [net16_inside,convert_inside,flowModOptions_ne_outOfBounds hl]

theorem statsReplyBody_ne_outOfBounds (message : Bytes) :
    statsReplyBody message ≠ .error .outOfBounds := by
  simp only [statsReplyBody,bind_eq_error,ne_eq,not_or,not_exists,not_and,validateHeader_eq_ok]
  refine ⟨by simp,fun _ hh => ?_⟩
  have hl := hh.lower
  simp (disch := omega) [net16_inside,pure,Except.pure]

theorem queueConfigFields_ne_outOfBounds (message : Bytes) :
    queueConfigFields message ≠ .error .outOfBounds := by
  simp only [queueConfigFields,bind_eq_error,ne_eq,not_or,not_exists,not_and,validateHeader_eq_ok]
  refine ⟨by simp,fun _ hh => ?_⟩
  have hl := hh.lower
  simp (disch := omega) [net16_inside,pure,Except.pure]

theorem validatePacketOut_noFault (message : Bytes) :
    NoFault (fun n => validatePacketOut n message) ↔
      ∀ length, packetOutFields message = .ok length → ActionsInside message 16 length := by
  simp only [validatePacketOut]
  rw [noFault_after (fun _ => settled_onlyIf (settled_validateActions _ _ _))]
  simp only [noFault_onlyIf_actions]
  exact and_iff_right (packetOutFields_ne_outOfBounds message)

theorem validateFlowMod_noFault (message : Bytes) :
    NoFault (fun n => validateFlowMod n message) ↔
      ∀ length, flowModFields message = .ok length → ActionsInside message 72 length := by
  simp only [validateFlowMod]
  rw [noFault_after (fun _ => settled_onlyIf (settled_validateActions _ _ _))]
  simp only [noFault_onlyIf_actions]
  exact and_iff_right (flowModFields_ne_outOfBounds message)

def matchAt (m : Bytes) (p : Nat) : OfpMatch := OfpMatch.ofHost (cells matchFields (m.drop p))

structure FlowEntryReadable (m : Bytes) (p : Nat) : Prop where
  mtch : p + 44 ≤ m.length
  priority : validateMatch (matchAt m (p + 4)) = .ok () → exactWildcards (matchAt m (p + 4)) →
    p + 54 ≤ m.length

theorem flowStatsHead_outOfBounds (m : Bytes) (p : Nat) :
    flowStatsHead m p ≠ .error .outOfBounds ↔ FlowEntryReadable m p := by
  have hread : readEnd matchFields = 40 := rfl
  simp only [flowStatsHead,ntohMatch,bind_eq_error,convert_eq_error,convert_eq_ok,onlyIf_eq_error,
    net16_eq_error,rejectIf_eq_error,ne_eq,not_or,not_exists,not_and,hread]
  constructor
  · rintro ⟨h1,h2⟩
    have hp : p + 44 ≤ m.length := by
      by_contra hlt
      exact h1 (by omega) trivial
    refine ⟨hp,fun hv hx => ?_⟩
    by_contra hlt
    exact ((h2 _ ⟨by omega,rfl⟩).2 () hv).1 hx |>.1 (by omega) trivial
  · rintro ⟨hp,hpri⟩
    refine ⟨by omega,?_⟩
    rintro _ ⟨_,rfl⟩
    refine ⟨validateMatch_ne_outOfBounds _,fun _ hv => ⟨fun hx => ?_,fun _ _ => ?_⟩⟩
    · have := hpri hv hx
      exact ⟨by omega,by simp⟩
    · exact ⟨by omega,fun _ _ => by simp [pure,Except.pure]⟩

structure FlowEntryInside (m : Bytes) (p : Nat) : Prop where
  readable : FlowEntryReadable m p
  actions : ∀ length, flowStatsHead m p = .ok length →
    ActionsInside m (p + 88) (entryActionsLength length)

theorem flowStatsStep_noFault (m : Bytes) (s : Nat × Nat) :
    NoFault (fun n => flowStatsStep n m s) ↔ FlowEntryInside m s.2 := by
  simp only [flowStatsStep]
  rw [noFault_after (settled_entryActions m s),flowStatsHead_outOfBounds]
  have hacts : ∀ length, NoFault (fun n => onlyIf (0 < sub16 length 88)
      (validateActions n m (s.2 + 88) (sub16 length 88)) >>= fun _ =>
        (pure (sub16 s.1 length,s.2 + length) : Exec (Nat × Nat))) ↔
      ActionsInside m (s.2 + 88) (entryActionsLength length) := by
    intro length
    rw [noFault_bind (settled_onlyIf (settled_validateActions _ _ _)) (fun _ => settled_const _),
      noFault_onlyIf_actions]
    exact and_iff_left fun _ _ => (noFault_const _).mpr (by simp [pure,Except.pure])
  simp only [hacts]
  exact ⟨fun h => ⟨h.1,h.2⟩,fun h => ⟨h.1,h.2⟩⟩

def FlowStatsInside (message : Bytes) : Prop :=
  ∀ body lens s, statsReplyBody message = .ok body → FlowWalk message (body,12) lens s →
    0 < s.1 → FlowEntryInside message s.2

theorem validateFlowStatsReply_noFault (message : Bytes) :
    NoFault (fun n => validateFlowStatsReply n message) ↔ FlowStatsInside message := by
  have hset : ∀ body, Settled (fun n => whileLoop (fun s => decide (0 < s.1))
      (flowStatsStep n message) n (body,12)) :=
    fun body => settled_whileLoop (settled_flowStatsStep message) (body,12)
  simp only [validateFlowStatsReply]
  rw [noFault_after (fun body => settled_bind (hset body) (fun _ => settled_const _))]
  have hloop : ∀ body, NoFault (fun n => whileLoop (fun s => decide (0 < s.1))
      (flowStatsStep n message) n (body,12) >>= fun _ => (pure () : Exec Unit)) ↔
      ∀ lens s, FlowWalk message (body,12) lens s → 0 < s.1 → FlowEntryInside message s.2 := by
    intro body
    rw [noFault_bind (hset body) (fun _ => settled_const _),
      whileLoop_noFault (settled_flowStatsStep message)]
    simp only [flowStatsStep_noFault,(follows_flowStats message).reach,decide_eq_true_eq]
    constructor
    · rintro ⟨h,_⟩ lens s hw
      exact h s ⟨lens,hw⟩
    · intro h
      refine ⟨?_,fun _ _ => (noFault_const _).mpr (by simp [pure,Except.pure])⟩
      rintro s ⟨lens,hw⟩
      exact h lens s hw
  simp only [hloop,FlowStatsInside]
  constructor
  · rintro ⟨_,h⟩ body lens s hbody
    exact h body hbody lens s
  · intro h
    exact ⟨statsReplyBody_ne_outOfBounds message,fun body hbody lens s => h body lens s hbody⟩

structure QueueInside (m : Bytes) (p : Nat) : Prop where
  header : p + 6 ≤ m.length
  properties : 16 ≤ (be16 m (p + 4)).toNat →
    PropertiesInside m (p + 8) ((be16 m (p + 4)).toNat - 8)

theorem validatePacketQueue_noFault (m : Bytes) (p : Nat) :
    NoFault (fun n => validatePacketQueue n m p) ↔ QueueInside m p := by
  simp only [validatePacketQueue]
  rw [noFault_bind (settled_const _) (fun _ => settled_bind (settled_const _)
    (fun _ => settled_validateQueueProperties _ _ _)),noFault_const]
  have hrest : ∀ len : UInt16, NoFault (fun n => rejectIf (len.toNat < 16) .tooShortQueueDescription
      >>= fun _ => validateQueueProperties n m (p + 8) (sub16 len.toNat 8)) ↔
      (16 ≤ len.toNat → PropertiesInside m (p + 8) (len.toNat - 8)) := by
    intro len
    have hsub : 16 ≤ len.toNat → sub16 len.toNat 8 = len.toNat - 8 :=
      fun h => sub16_of_le (by omega) len.toNat_lt
    rw [noFault_after (fun _ => settled_validateQueueProperties _ _ _)]
    simp only [validateQueueProperties_noFault,rejectIf_eq_ok,Nat.not_lt]
    constructor
    · rintro ⟨_,h⟩ hlen
      exact hsub hlen ▸ h () hlen
    · exact fun h => ⟨by simp,fun _ hlen => (hsub hlen).symm ▸ h hlen⟩
  simp only [hrest,yields_const,net16_eq_error,ne_eq,not_and]
  constructor
  · rintro ⟨h,hprops⟩
    have hp : p + 6 ≤ m.length := by
      by_contra hlt
      exact h (by omega) trivial
    exact ⟨hp,hprops _ ⟨(net16_inside (by omega)).symm,by simp⟩⟩
  · rintro ⟨hp,hprops⟩
    refine ⟨by omega,fun len hlen => ?_⟩
    obtain ⟨_,rfl⟩ := net16_eq_ok.mp hlen.1.symm
    exact hprops

structure CheckedQueue (m : Bytes) (p len : Nat) : Prop where
  accepted : Yields (fun n => validatePacketQueue n m p) (.ok ())
  len : (be16 m (p + 4)).toNat = len

abbrev CheckedWalk (m : Bytes) := Walk (CheckedQueue m) (fun p len => p + len)

theorem validatePacketQueues_noFault (m : Bytes) (p k : Nat) :
    NoFault (fun n => validatePacketQueues n m p k) ↔
      ∀ lens q, CheckedWalk m p lens q → lens.length < k → QueueInside m q := by
  induction k generalizing p with
  | zero => simp [validatePacketQueues,noFault_const]
  | succ k ih =>
    simp only [validatePacketQueues]
    rw [noFault_bind (settled_validatePacketQueue m p) (fun _ => settled_bind (settled_const _)
      (fun len : UInt16 => settled_validatePacketQueues m (p + len.toNat) k)),
      validatePacketQueue_noFault,
      noFault_after (fun len : UInt16 => settled_validatePacketQueues m (p + len.toNat) k)]
    simp only [ih]
    constructor
    · rintro ⟨hq,hrest⟩ lens q hw hlt
      cases hw with
      | nil => exact hq
      | @cons _ _ len ls he rest =>
        obtain ⟨hok,rfl⟩ := he
        have hin := hq.header
        exact (hrest () hok).2 _ (net16_inside (by omega)) ls q rest (by simpa using hlt)
    · intro h
      have hq := h [] p (.nil p) (by simp)
      refine ⟨hq,fun _ hok => ⟨?_,fun len hlen ls q hw hlt => ?_⟩⟩
      · have hin := hq.header
        simp [net16_inside (show p + 4 + 2 ≤ m.length by omega)]
      · obtain ⟨_,rfl⟩ := net16_eq_ok.mp hlen
        exact h (_ :: ls) q (.cons ⟨hok,rfl⟩ hw) (by simpa using hlt)

structure QueuesInside (message : Bytes) (body : Nat) : Prop where
  counted : ∀ lens s, QueueWalk message ⟨body,16,0⟩ lens s → 8 < s.remaining →
    s.queue + 6 ≤ message.length
  checked : ∀ lens s, QueueWalk message ⟨body,16,0⟩ lens s → s.remaining = 0 →
    ∀ ks q, CheckedWalk message 16 ks q → ks.length < lens.length → QueueInside message q

theorem validateQueueGetConfigReply_noFault (message : Bytes) :
    NoFault (fun n => validateQueueGetConfigReply n message) ↔
      ∀ body, queueConfigFields message = .ok body → QueuesInside message body := by
  simp only [validateQueueGetConfigReply]
  rw [noFault_after (settled_queues message)]
  refine (and_iff_right (queueConfigFields_ne_outOfBounds message)).trans ?_
  refine forall_congr' fun body => imp_congr_right fun _ => ?_
  have hcount : ∀ s, countQueue message s ≠ .error .outOfBounds ↔
      s.queue + 6 ≤ message.length := by
    intro s
    simp [countQueue,pure,Except.pure]
  have hafter : ∀ s : QueueCount, NoFault (fun n => rejectIf (s.remaining ≠ 0) .invalidLength
      >>= fun _ => onlyIf (0 < s.queues) (validatePacketQueues n message 16 s.queues)) ↔
      (s.remaining = 0 → ∀ ks q, CheckedWalk message 16 ks q → ks.length < s.queues →
        QueueInside message q) := by
    intro s
    rw [noFault_after (fun _ => settled_onlyIf (settled_validatePacketQueues _ _ _)),
      ← validatePacketQueues_noFault]
    simp only [rejectIf_eq_ok,not_not]
    have honly : NoFault (fun n => onlyIf (0 < s.queues)
        (validatePacketQueues n message 16 s.queues)) ↔
        NoFault (fun n => validatePacketQueues n message 16 s.queues) := by
      by_cases hq : 0 < s.queues
      · simp [onlyIf,hq]
      · obtain hq0 : s.queues = 0 := by omega
        simp [onlyIf,hq0,validatePacketQueues]
    rw [honly]
    exact ⟨fun h hr => h.2 () hr,fun h => ⟨by simp,fun _ hr => h hr⟩⟩
  rw [noFault_bind (settled_queuesLoop message body) (settled_queuesAfter message),
    whileLoop_noFault (fun s => settled_const (countQueue message s))]
  simp only [noFault_const,hcount,hafter,(follows_queues message).reach,decide_eq_true_eq,
    whileLoop_yields_ok (fun s => settled_const (countQueue message s)),decide_eq_false_iff_not]
  constructor
  · rintro ⟨hc,hk⟩
    refine ⟨fun lens s hw hr => hc s ⟨lens,hw⟩ hr,fun lens s hw hr ks q hq hlt => ?_⟩
    refine hk s ⟨⟨lens,hw⟩,by omega⟩ hr ks q hq ?_
    rw [queueWalk_queues hw]
    simpa using hlt
  · rintro ⟨hc,hk⟩
    constructor
    · rintro s ⟨lens,hw⟩ hr
      exact hc lens s hw hr
    · rintro s ⟨⟨lens,hw⟩,_⟩ hr ks q hq hlt
      rw [queueWalk_queues hw] at hlt
      exact hk lens s hw hr ks q hq (by simpa using hlt)

theorem validateEach_ne_outOfBounds {check : Nat → Exec Unit} {size stop : Nat}
    (h : ∀ p, p + size ≤ stop → check p ≠ .error .outOfBounds) (p n : Nat)
    (hp : p + n * size ≤ stop) : validateEach check size p n ≠ .error .outOfBounds := by
  induction n generalizing p with
  | zero => simp [validateEach]
  | succ n ih =>
    rw [Nat.succ_mul] at hp
    simp only [validateEach,bind_eq_error,ne_eq,not_or,not_exists,not_and]
    exact ⟨h p (by omega),fun _ _ => ih (p + size) (by omega)⟩

theorem validatePhyPort_ne_outOfBounds {m : Bytes} {p : Nat} (hp : p + 48 ≤ m.length) :
    validatePhyPort m p ≠ .error .outOfBounds := by
  have hread : readEnd phyPortFields = 48 := rfl
  simp (disch := omega) [validatePhyPort,ntohPhyPort,convert_inside]

theorem validateFeaturesReply_ne_outOfBounds (message : Bytes) :
    validateFeaturesReply message ≠ .error .outOfBounds := by
  simp only [validateFeaturesReply,bind_eq_error,ne_eq,not_or,not_exists,not_and,
    validateHeader_eq_ok]
  refine ⟨by simp,fun _ hh => ?_⟩
  have hl := hh.lower
  have hlen := hh.length
  have hlt := (be16 message 2).toNat_lt
  simp (disch := omega) only [byteAt_inside,net16_inside,reduceCtorEq,not_false_eq_true,true_and,
    rejectIf_eq_error,and_false,onlyIf_eq_error,rejectIf_eq_ok,validatePhyPorts,Except.ok.injEq,
    forall_eq',not_not,not_and]
  have hsub := sub16_of_le (show 32 ≤ (be16 message 2).toNat by omega) hlt
  intro _ _ _ hmod _
  exact validateEach_ne_outOfBounds (fun p hp => validatePhyPort_ne_outOfBounds hp) 32 _ (by omega)

theorem validateStatsEntries_ne_outOfBounds {size : Nat} {check : Bytes → Nat → Exec Unit}
    (hcheck : ∀ m p, p + size ≤ m.length → check m p ≠ .error .outOfBounds) (message : Bytes) :
    validateStatsEntries size check message ≠ .error .outOfBounds := by
  simp only [validateStatsEntries,bind_eq_error,ne_eq,not_or,not_exists,not_and]
  refine ⟨statsReplyBody_ne_outOfBounds message,fun body hbody => ⟨by simp,fun _ hmod => ?_⟩⟩
  refine validateEach_ne_outOfBounds (hcheck message) 12 _ ?_
  simp only [statsReplyBody,bind_eq_ok,validateHeader_eq_ok] at hbody
  obtain ⟨_,hh,_,_,_,_,_,hlen,h⟩ := hbody
  obtain ⟨_,rfl⟩ := net16_eq_ok.mp hlen
  injection h with h
  have h1 := hh.length
  have h2 := hh.lower
  have h3 := hh.upper
  have hsub := sub16_of_le (show 12 ≤ (be16 message 2).toNat by omega) (by omega)
  have := Nat.div_mul_le_self body size
  omega

theorem validateStatsReplyByType_ne_outOfBounds (n : Nat) (message : Bytes) {t : StatsType}
    (ht : t ≠ .flow) : validateStatsReplyByType n message t ≠ .error .outOfBounds := by
  cases t with
  | flow => exact absurd rfl ht
  | table =>
    rw [validateStatsReplyByType,validateTableStatsReply]
    refine validateStatsEntries_ne_outOfBounds (fun m p hp => ?_) message
    simp (disch := omega) [net32_inside,validateWildcards]
  | port =>
    rw [validateStatsReplyByType,validatePortStatsReply]
    refine validateStatsEntries_ne_outOfBounds (fun m p hp => ?_) message
    simp (disch := omega) [net16_inside]
  | queue =>
    rw [validateStatsReplyByType,validateQueueStatsReply]
    refine validateStatsEntries_ne_outOfBounds (fun m p hp => ?_) message
    simp (disch := omega) [net16_inside]
  | vendor =>
    simp [validateStatsReplyByType,validateVendorStatsReply,statsReplyBody_ne_outOfBounds,pure,
      Except.pure]
  | _ =>
    simp only [validateStatsReplyByType,validateDescStatsReply,validateAggregateStatsReply,
      validateSingleStatsReply,bind_eq_error,ne_eq,not_or,not_exists,not_and,validateHeader_eq_ok]
    refine ⟨by simp,fun _ hh => ?_⟩
    have hl := hh.lower
    simp (disch := omega) [net16_inside]

theorem validateStatsReplyByType_noFault (message : Bytes) (t : StatsType) :
    NoFault (fun n => validateStatsReplyByType n message t) ↔
      (t = .flow → FlowStatsInside message) := by
  by_cases ht : t = .flow
  · subst ht
    simpa [validateStatsReplyByType] using validateFlowStatsReply_noFault message
  · simp only [ht,false_implies,iff_true]
    exact fun n => validateStatsReplyByType_ne_outOfBounds n message ht

theorem validateStatsRequestOf_ne_outOfBounds (type : StatsType) {lo hi : Nat} (hlo : 12 ≤ lo)
    (message : Bytes) : validateStatsRequestOf type lo hi message ≠ .error .outOfBounds := by
  simp only [validateStatsRequestOf,bind_eq_error,ne_eq,not_or,not_exists,not_and,
    validateHeader_eq_ok]
  refine ⟨by simp,fun _ hh => ?_⟩
  have hl := hh.lower
  simp (disch := omega) [net16_inside]

theorem headed_of_statsRequest {type : StatsType} {lo hi : Nat} {message : Bytes} {u : Unit}
    (h : validateStatsRequestOf type lo hi message = .ok u) : Headed message .statsRequest lo hi := by
  simp only [validateStatsRequestOf,bind_eq_ok,validateHeader_eq_ok] at h
  exact h.choose_spec.1

theorem validateStatsRequestByType_ne_outOfBounds (message : Bytes) (t : StatsType) :
    validateStatsRequestByType message t ≠ .error .outOfBounds := by
  have hread : readEnd matchFields = 40 := rfl
  cases t with
  | desc => exact validateStatsRequestOf_ne_outOfBounds _ (by omega) message
  | table => exact validateStatsRequestOf_ne_outOfBounds _ (by omega) message
  | vendor => exact validateStatsRequestOf_ne_outOfBounds _ (by omega) message
  | _ =>
    simp only [validateStatsRequestByType,validateFlowStatsRequest,validateAggregateStatsRequest,
      validateFlowStatsRequestOf,validatePortStatsRequest,validateQueueStatsRequest,ntohMatch,
      bind_eq_error,ne_eq,not_or,not_exists,not_and]
    refine ⟨validateStatsRequestOf_ne_outOfBounds _ (by omega) message,fun _ h => ?_⟩
    have hl := (headed_of_statsRequest h).lower
    simp (disch := omega) [net16_inside,convert_inside]

theorem validateStatsReply_noFault (message : Bytes) :
    NoFault (fun n => validateStatsReply n message) ↔ 10 ≤ message.length ∧
      (StatsType.ofCode (be16 message 8) = some .flow → FlowStatsInside message) := by
  simp only [validateStatsReply]
  rw [noFault_after (fun _ => settled_dispatch _ _ (settled_validateStatsReplyByType message))]
  have hdispatch : ∀ type : Option StatsType, NoFault (fun n => dispatch type .unsupportedStatsType
      (validateStatsReplyByType n message)) ↔ (type = some .flow → FlowStatsInside message) := by
    intro type
    cases type with
    | none => simp [dispatch,noFault_const]
    | some t => simpa [dispatch] using validateStatsReplyByType_noFault message t
  simp only [hdispatch,net16_eq_error,net16_eq_ok,ne_eq,not_and]
  constructor
  · rintro ⟨h,hf⟩
    have hl : 10 ≤ message.length := by
      by_contra hlt
      exact h (by omega) trivial
    exact ⟨hl,hf _ ⟨by omega,rfl⟩⟩
  · rintro ⟨hl,hf⟩
    refine ⟨by omega,?_⟩
    rintro _ ⟨_,rfl⟩
    exact hf

theorem validateStatsRequest_ne_outOfBounds (message : Bytes) :
    validateStatsRequest message ≠ .error .outOfBounds ↔ 10 ≤ message.length := by
  simp [validateStatsRequest,validateStatsRequestByType_ne_outOfBounds]

def InsideByType (message : Bytes) : OfpType → Prop
  | .packetOut => ∀ length, packetOutFields message = .ok length → ActionsInside message 16 length
  | .flowMod => ∀ length, flowModFields message = .ok length → ActionsInside message 72 length
  | .statsRequest => 10 ≤ message.length
  | .statsReply => 10 ≤ message.length ∧
      (StatsType.ofCode (be16 message 8) = some .flow → FlowStatsInside message)
  | .queueGetConfigReply =>
      ∀ body, queueConfigFields message = .ok body → QueuesInside message body
  | _ => True

theorem validateByType_noFault (message : Bytes) (t : OfpType) :
    NoFault (fun n => validateByType n message t) ↔ InsideByType message t := by
  cases t with
  | packetOut => exact validatePacketOut_noFault message
  | flowMod => exact validateFlowMod_noFault message
  | statsReply => exact validateStatsReply_noFault message
  | statsRequest => exact (noFault_const _).trans (validateStatsRequest_ne_outOfBounds message)
  | queueGetConfigReply => exact validateQueueGetConfigReply_noFault message
  | featuresReply =>
    exact iff_of_true (fun _ => validateFeaturesReply_ne_outOfBounds message) trivial
  | _ =>
    simp only [validateByType,InsideByType,noFault_const,iff_true]
    simp only [validateHello,validateError,validateEchoRequest,validateEchoReply,validateVendor,
      validateSized,validateFeaturesRequest,validateGetConfigRequest,validateGetConfigReply,
      validateSetConfig,validateSwitchConfig,validatePacketIn,validateFlowRemoved,ntohMatch,
      validatePortStatus,validatePortMod,validateBarrierRequest,validateBarrierReply,
      validateQueueGetConfigRequest,bind_eq_error,ne_eq,not_or,not_exists,not_and,
      validateHeader_eq_ok]
    first
      | exact validateHeader_ne_outOfBounds _ _ _ _
      | (refine ⟨by simp,fun _ hh => ?_⟩
         have hl := hh.lower
         have hread : readEnd matchFields = 40 := rfl
         simp (disch := omega) [net16_inside,net32_inside,byteAt_inside,convert_inside,
           validateExactPriority,validatePhyPort_ne_outOfBounds])

theorem validateOpenflowMessage_noFault {message : Bytes} (hm : 8 ≤ message.length) :
    NoFault (fun n => validateOpenflowMessage n message) ↔
      ∀ t, OfpType.ofCode (hostByte message 1) = some t → InsideByType message t := by
  simp (disch := omega) only [validateOpenflowMessage,load_ok,byteAt_inside,ok_bind]
  cases OfpType.ofCode (hostByte message 1) with
  | none => simp [dispatch,noFault_const]
  | some t => simpa [dispatch] using validateByType_noFault message t

def ReadsInside (message : Bytes) : Prop :=
  ∀ t, OfpType.ofCode (hostByte message 1) = some t → InsideByType message t

theorem validation_reads_inside_iff (message : Bytes) (hm : 8 ≤ message.length) :
    NoFault (fun n => validateOpenflowMessage n message) ↔ ReadsInside message :=
  validateOpenflowMessage_noFault hm

-- A packet_out that outputs to port 2 and enqueues at port 3.
def twoActions : Bytes :=
  [1,13,0,40,0,0,0,0,255,255,255,255,0,1,0,24,0,0,0,8,0,2,0,100,0,11,0,16,0,3,0,0,0,0,0,0,0,0,0,1]

theorem actionsInside_two : ActionsInside twoActions 16 24 := by
  have houtput : ActionType.ofCode (be16 twoActions 16) = some .output := by decide
  have henqueue : ActionType.ofCode (be16 twoActions 24) = some .enqueue := by decide
  intro lens offset hwalk hlt
  cases hwalk with
  | nil =>
    refine ⟨by decide,fun t _ ht _ => ?_⟩
    obtain rfl : t = .output := Option.some.inj (ht.symm.trans houtput)
    decide
  | cons hfirst hwalk =>
    obtain rfl : _ = 8 := hfirst.len.symm.trans (by decide)
    cases hwalk with
    | nil =>
      refine ⟨by decide,fun t _ ht _ => ?_⟩
      obtain rfl : t = .enqueue := Option.some.inj (ht.symm.trans henqueue)
      decide
    | cons hsecond hwalk =>
      obtain rfl : _ = 16 := hsecond.len.symm.trans (by decide)
      cases hwalk with
      | nil => exact absurd hlt (by decide)
      | cons hthird _ => exact absurd hthird.inside (by decide)

theorem validation_reads_inside_two : NoFault (fun n => validateOpenflowMessage n twoActions) := by
  refine (validation_reads_inside_iff twoActions (by decide)).mpr ?_
  intro t ht
  have htype : OfpType.ofCode (hostByte twoActions 1) = some .packetOut := by decide
  obtain rfl : t = .packetOut := Option.some.inj (ht.symm.trans htype)
  intro length hlength
  have hfields : packetOutFields twoActions = .ok 24 := by decide
  obtain rfl : length = 24 := Except.ok.inj (hlength.symm.trans hfields)
  exact actionsInside_two

def bareStatsRequest : Bytes := [1,16,0,8,0,0,0,0]

def overrunningPacketOut : Bytes := [1,13,0,16,0,0,0,0,0,0,0,0,0,1,0,8]

theorem validation_reads_outside :
    8 ≤ bareStatsRequest.length ∧
    ¬ NoFault (fun n => validateOpenflowMessage n bareStatsRequest) ∧
    8 ≤ overrunningPacketOut.length ∧
    ¬ NoFault (fun n => validateOpenflowMessage n overrunningPacketOut) :=
  ⟨by decide,fun h => h 0 (by decide),by decide,fun h => h 1 (by decide)⟩

end Trema.OpenFlow
