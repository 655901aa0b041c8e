import Trema.OpenFlow.ReadBounds

namespace Trema.OpenFlow

open Library Layout

section Abortion

theorem whileLoop_ne_aborted {σ : Type} {cond : σ → Bool} {body : σ → Exec σ}
    (h : ∀ s, body s ≠ .error .aborted) (fuel : Nat) (s : σ) :
    whileLoop cond body fuel s ≠ .error .aborted := by
  induction fuel generalizing s with
  | zero => simp [whileLoop]
  | succ fuel ih =>
    rw [whileLoop]
    split
    · simp [bind_eq_error,h,ih]
    · simp

theorem validateHeader_ne_aborted (message : Bytes) (type : OfpType) (lo hi : Nat) :
    validateHeader message type lo hi ≠ .error .aborted := by
  intro h
  obtain ⟨r,hr⟩ := validateHeader_eq_error h
  simp at hr

theorem validateEach_ne_aborted {check : Nat → Exec Unit} (size : Nat)
    (h : ∀ p, check p ≠ .error .aborted) (p n : Nat) :
    validateEach check size p n ≠ .error .aborted := by
  induction n generalizing p with
  | zero => simp [validateEach]
  | succ n ih => simp [validateEach,bind_eq_error,h,ih]

attribute [local simp] bind_eq_error rejectIf_eq_error onlyIf_eq_error byteAt_eq_error
  net16_eq_error net32_eq_error convert_eq_error load_eq_error dispatch_eq_error
  validateHeader_ne_aborted validateEach_ne_aborted whileLoop_ne_aborted

theorem validatePhyPortNo_ne_aborted (portNo : UInt16) :
    validatePhyPortNo portNo ≠ .error .aborted := by simp [validatePhyPortNo]

theorem validateMatch_ne_aborted (mtch : OfpMatch) : validateMatch mtch ≠ .error .aborted := by
  simp [validateMatch,validateWildcards,validateVlanVid,validateVlanPcp,validateNwTos]

theorem validateExactPriority_ne_aborted (m : Bytes) (p : Nat) (mtch : OfpMatch) :
    validateExactPriority m p mtch ≠ .error .aborted := by simp [validateExactPriority]

attribute [local simp] validatePhyPortNo_ne_aborted validateMatch_ne_aborted
  validateExactPriority_ne_aborted

theorem validatePhyPort_ne_aborted (m : Bytes) (p : Nat) :
    validatePhyPort m p ≠ .error .aborted := by
  simp [validatePhyPort,ntohPhyPort]

theorem validateActionOf_ne_aborted (t : ActionType) (m : Bytes) (p : Nat) :
    validateActionOf t m p ≠ .error .aborted := by
  cases t <;>
    simp [validateActionOf,validateActionOutput,validateActionSetVlanVid,validateActionSetVlanPcp,
      validateActionStripVlan,validateActionSetDlSrc,validateActionSetDlDst,
      validateActionSetNwSrc,validateActionSetNwDst,validateActionSetNwTos,
      validateActionSetTpSrc,validateActionSetTpDst,validateActionEnqueue,validateActionVendor,
      validateActionAs,validateVlanVid,validateVlanPcp,validateNwTos]

theorem validateElements_ne_aborted {check : Bytes → Nat → Exec Unit}
    (h : ∀ m p, check m p ≠ .error .aborted) (fuel : Nat) (m : Bytes) (head length : Nat) :
    validateElements check fuel m head length ≠ .error .aborted := by
  have hstep : ∀ s, elementStep check m head s ≠ .error .aborted := by
    intro s
    simp [elementStep,h,pure,Except.pure]
  simp [validateElements,hstep,pure,Except.pure]

theorem validateAction_ne_aborted (m : Bytes) (p : Nat) : validateAction m p ≠ .error .aborted := by
  simp [validateAction,validateActionOf_ne_aborted]

theorem validateActions_ne_aborted (fuel : Nat) (m : Bytes) (head length : Nat) :
    validateActions fuel m head length ≠ .error .aborted := by
  exact validateElements_ne_aborted validateAction_ne_aborted fuel m head length

theorem validateQueueProperty_ne_aborted (m : Bytes) (p : Nat) :
    validateQueueProperty m p ≠ .error .aborted := by
  simp only [validateQueueProperty,ne_eq,bind_eq_error,net16_eq_error,rejectIf_eq_error,not_or,
    not_exists,not_and]
  refine ⟨by simp,fun len _ => ⟨by simp,fun _ _ => ⟨by simp,fun property _ => ?_⟩⟩⟩
  split
  · simp [validatePropertySize]
  · split <;> simp [validatePropertySize]

theorem validateQueueProperties_ne_aborted (fuel : Nat) (m : Bytes) (head length : Nat) :
    validateQueueProperties fuel m head length ≠ .error .aborted :=
  validateElements_ne_aborted validateQueueProperty_ne_aborted fuel m head length

theorem validatePacketQueues_ne_aborted (fuel : Nat) (m : Bytes) (p n : Nat) :
    validatePacketQueues fuel m p n ≠ .error .aborted := by
  induction n generalizing p with
  | zero => simp [validatePacketQueues]
  | succ n ih => simp [validatePacketQueues,validatePacketQueue,validateQueueProperties_ne_aborted,ih]

theorem statsReplyBody_ne_aborted (message : Bytes) : statsReplyBody message ≠ .error .aborted := by
  simp [statsReplyBody,pure,Except.pure]

attribute [local simp] validatePhyPort_ne_aborted validateActions_ne_aborted
  validatePacketQueues_ne_aborted statsReplyBody_ne_aborted

theorem flowStatsHead_ne_aborted (m : Bytes) (p : Nat) : flowStatsHead m p ≠ .error .aborted := by
  simp [flowStatsHead,ntohMatch,pure,Except.pure]

theorem validateFlowStatsReply_ne_aborted (fuel : Nat) (message : Bytes) :
    validateFlowStatsReply fuel message ≠ .error .aborted := by
  have hstep : ∀ s, flowStatsStep fuel message s ≠ .error .aborted := by
    intro s
    simp [flowStatsStep,flowStatsHead_ne_aborted,pure,Except.pure]
  simp [validateFlowStatsReply,hstep,pure,Except.pure]

theorem validateStatsReplyByType_ne_aborted (fuel : Nat) (message : Bytes) (t : StatsType) :
    validateStatsReplyByType fuel message t ≠ .error .aborted := by
  cases t <;>
    simp [validateStatsReplyByType,validateDescStatsReply,validateSingleStatsReply,
      validateFlowStatsReply_ne_aborted,validateAggregateStatsReply,validateTableStatsReply,
      validateStatsEntries,validateWildcards,validatePortStatsReply,validateQueueStatsReply,
      validateVendorStatsReply,pure,Except.pure]

theorem validateStatsRequestByType_ne_aborted (message : Bytes) (t : StatsType) :
    validateStatsRequestByType message t ≠ .error .aborted := by
  cases t <;>
    simp [validateStatsRequestByType,validateDescStatsRequest,validateFlowStatsRequest,
      validateAggregateStatsRequest,validateTableStatsRequest,validatePortStatsRequest,
      validateQueueStatsRequest,validateVendorStatsRequest,validateStatsRequestOf,
      validateFlowStatsRequestOf,ntohMatch]

theorem validateQueueGetConfigReply_ne_aborted (fuel : Nat) (message : Bytes) :
    validateQueueGetConfigReply fuel message ≠ .error .aborted := by
  have hstep : ∀ s, countQueue message s ≠ .error .aborted := by
    intro s
    simp [countQueue,pure,Except.pure]
  simp [validateQueueGetConfigReply,queueConfigFields,hstep,pure,Except.pure]

theorem flowModOptions_ne_aborted (message : Bytes) (mtch : OfpMatch) (command : UInt16) :
    flowModOptions message mtch command ≠ .error .aborted := by
  simp [flowModOptions,pure,Except.pure]

theorem flowModFields_ne_aborted (message : Bytes) : flowModFields message ≠ .error .aborted := by
  simp [flowModFields,ntohMatch,skipIf_eq_error,flowModOptions_ne_aborted]

theorem packetOutFields_ne_aborted (message : Bytes) :
    packetOutFields message ≠ .error .aborted := by
  simp [packetOutFields,pure,Except.pure]

theorem validateByType_ne_aborted (fuel : Nat) (message : Bytes) (t : OfpType) :
    validateByType fuel message t ≠ .error .aborted := by
  cases t <;>
    simp [validateByType,validateHello,validateError,validateEchoRequest,validateEchoReply,
      validateVendor,validateSized,validateFeaturesRequest,validateFeaturesReply,validatePhyPorts,
      validateGetConfigRequest,validateGetConfigReply,validateSetConfig,validateSwitchConfig,
      validatePacketIn,validateFlowRemoved,ntohMatch,validatePortStatus,validatePacketOut,
      packetOutFields_ne_aborted,validateFlowMod,flowModFields_ne_aborted,validatePortMod,
      validateStatsRequest,
      validateStatsRequestByType_ne_aborted,validateStatsReply,validateStatsReplyByType_ne_aborted,
      validateBarrierRequest,validateBarrierReply,validateQueueGetConfigRequest,
      validateQueueGetConfigReply_ne_aborted]

theorem validateOpenflowMessage_ne_aborted (fuel : Nat) (message : Bytes) :
    validateOpenflowMessage fuel message ≠ .error .aborted := by
  simp [validateOpenflowMessage,validateByType_ne_aborted]

end Abortion

def Accepts (message : Bytes) : Prop := Yields (fun n => validateOpenflowMessage n message) (.ok ())

def Rejects (message : Bytes) (error : ValidationError) : Prop :=
  Yields (fun n => validateOpenflowMessage n message) (.error (.rejected error))

theorem Accepts.not_rejects {message : Bytes} (h : Accepts message) (error : ValidationError) :
    ¬ Rejects message error := by
  intro hr
  have := (settled_validateOpenflowMessage message).yields_unique h hr
  simp at this

-- A message that is neither accepted nor rejected is one that validation never ends on, or reads past.
theorem judged_iff {message : Bytes} (hm : 8 ≤ message.length) :
    (Accepts message ∨ ∃ error, Rejects message error) ↔ ¬ Endless message ∧ ReadsInside message := by
  rw [← validateOpenflowMessage_terminates,ReadsInside,← validateOpenflowMessage_noFault hm,terminates_iff,
    noFault_iff]
  constructor
  · rintro (h | ⟨error,h⟩)
    · refine ⟨⟨_,h⟩,fun hf => ?_⟩
      have := (settled_validateOpenflowMessage message).yields_unique h hf
      simp at this
    · refine ⟨⟨_,h⟩,fun hf => ?_⟩
      have := (settled_validateOpenflowMessage message).yields_unique h hf
      simp at this
  · rintro ⟨⟨r,hr⟩,hf⟩
    cases r with
    | ok u => exact .inl hr
    | error e =>
      cases e with
      | outOfFuel => exact absurd rfl hr.1
      | outOfBounds => exact absurd hr hf
      | aborted =>
        obtain ⟨_,n,hn⟩ := hr
        exact absurd hn (validateOpenflowMessage_ne_aborted n message)
      | rejected error => exact .inr ⟨error,hr⟩

theorem Accepts.type {message : Bytes} (h : Accepts message) :
    ∃ t, OfpType.ofCode (hostByte message 1) = some t ∧
      Yields (fun n => validateByType n message t) (.ok ()) := by
  obtain ⟨hne,n,hn⟩ := h
  simp only [validateOpenflowMessage,bind_eq_ok,byteAt_eq_ok,dispatch_eq_ok] at hn
  obtain ⟨_,_,_,⟨_,rfl⟩,t,ht,hn⟩ := hn
  exact ⟨t,ht,hne,n,hn⟩

end Trema.OpenFlow
