import Trema.OpenFlow.Checks

namespace Trema.OpenFlow

open Library Layout

theorem validateHeader_ne_outOfFuel (message : Bytes) (type : OfpType) (lo hi : Nat) :
    validateHeader message type lo hi ≠ .error .outOfFuel := by
  intro h
  obtain ⟨r,hr⟩ := validateHeader_eq_error h
  simp at hr

theorem validateEach_ne_outOfFuel {check : Nat → Exec Unit} (size : Nat)
    (h : ∀ p, check p ≠ .error .outOfFuel) (p n : Nat) :
    validateEach check size p n ≠ .error .outOfFuel := by
  induction n generalizing p with
  | zero => simp [validateEach]
  | succ n ih => simp [validateEach,bind_eq_error,h,ih]

attribute [local simp] bind_eq_error rejectIf_eq_error onlyIf_eq_error byteAt_eq_error
  net16_eq_error net32_eq_error convert_eq_error load_eq_error dispatch_eq_error
  validateHeader_ne_outOfFuel validateEach_ne_outOfFuel

theorem validatePhyPortNo_ne_outOfFuel (portNo : UInt16) :
    validatePhyPortNo portNo ≠ .error .outOfFuel := by simp [validatePhyPortNo]

theorem validateMatch_ne_outOfFuel (mtch : OfpMatch) :
    validateMatch mtch ≠ .error .outOfFuel := by
  simp [validateMatch,validateWildcards,validateVlanVid,validateVlanPcp,validateNwTos]

theorem validateExactPriority_ne_outOfFuel (m : Bytes) (p : Nat) (mtch : OfpMatch) :
    validateExactPriority m p mtch ≠ .error .outOfFuel := by simp [validateExactPriority]

theorem validatePhyPort_ne_outOfFuel (m : Bytes) (p : Nat) :
    validatePhyPort m p ≠ .error .outOfFuel := by
  simp [validatePhyPort,ntohPhyPort,validatePhyPortNo_ne_outOfFuel]

attribute [local simp] validatePhyPortNo_ne_outOfFuel validateMatch_ne_outOfFuel
  validateExactPriority_ne_outOfFuel validatePhyPort_ne_outOfFuel

theorem validateActionOf_ne_outOfFuel (t : ActionType) (m : Bytes) (p : Nat) :
    validateActionOf t m p ≠ .error .outOfFuel := by
  cases t <;>
    simp [validateActionOf,validateActionOutput,validateActionSetVlanVid,validateActionSetVlanPcp,
      validateActionStripVlan,validateActionSetDlSrc,validateActionSetDlDst,
      validateActionSetNwSrc,validateActionSetNwDst,validateActionSetNwTos,
      validateActionSetTpSrc,validateActionSetTpDst,validateActionEnqueue,validateActionVendor,
      validateActionAs,validateVlanVid,validateVlanPcp,validateNwTos]

theorem validateAction_ne_outOfFuel (m : Bytes) (p : Nat) :
    validateAction m p ≠ .error .outOfFuel := by
  simp [validateAction,validateActionOf_ne_outOfFuel]

structure ElementAt (check : Bytes → Nat → Exec Unit) (m : Bytes) (head length offset len : Nat) :
    Prop where
  inside : offset < length
  accepted : check m (head + offset) = .ok ()
  len : (be16 m (head + offset + 2)).toNat = len

def wrapOffset (offset len : Nat) : Nat := (offset + len) % 65536

abbrev ElementWalk (check : Bytes → Nat → Exec Unit) (m : Bytes) (head length : Nat) :=
  Walk (ElementAt check m head length) wrapOffset

abbrev ActionWalk := ElementWalk validateAction

abbrev PropertyWalk := ElementWalk validateQueueProperty

section Elements

variable {check : Bytes → Nat → Exec Unit}

theorem settled_validateElements (check : Bytes → Nat → Exec Unit) (m : Bytes)
    (head length : Nat) : Settled (fun n => validateElements check n m head length) :=
  settled_bind (settled_whileLoop (fun s => settled_const (elementStep check m head s)) 0)
    (fun _ => settled_const _)

theorem elementStep_ne_outOfFuel (hcheck : ∀ m p, check m p ≠ .error .outOfFuel) (m : Bytes)
    (head offset : Nat) : elementStep check m head offset ≠ .error .outOfFuel := by
  simp [elementStep,hcheck,pure,Except.pure]

theorem follows_elements (hread : ∀ m p, check m p = .ok () → p + 4 ≤ m.length) (m : Bytes)
    (head length : Nat) :
    Follows (fun offset => decide (offset < length)) (fun _ => elementStep check m head)
      (ElementAt check m head length) wrapOffset := by
  intro s t
  simp only [Next,yields_const,decide_eq_true_eq]
  constructor
  · rintro ⟨hs,h,_⟩
    obtain ⟨u,hv,h⟩ := bind_eq_ok.mp h.symm
    obtain ⟨len,hlen,h⟩ := bind_eq_ok.mp h
    obtain ⟨_,rfl⟩ := net16_eq_ok.mp hlen
    injection h with h
    exact ⟨_,⟨hs,hv,rfl⟩,h.symm⟩
  · rintro ⟨len,⟨hs,hv,rfl⟩,rfl⟩
    have hin := hread m (head + s) hv
    have hstep : elementStep check m head s =
        .ok (wrapOffset s (be16 m (head + s + 2)).toNat) := by
      rw [elementStep,hv,net16_eq_ok.mpr ⟨by omega,rfl⟩]
      rfl
    exact ⟨hs,hstep.symm,by simp [hstep]⟩

theorem validateElements_terminates_iff_loop (check : Bytes → Nat → Exec Unit) (m : Bytes)
    (head length : Nat) :
    Terminates (fun n => validateElements check n m head length) ↔
      Terminates (fun n => whileLoop (fun offset => decide (offset < length))
        (elementStep check m head) n 0) := by
  simp only [validateElements]
  rw [terminates_bind (settled_whileLoop (fun s => settled_const (elementStep check m head s)) 0)
    (fun _ => settled_const _)]
  simp [terminates_const,pure,Except.pure]

end Elements

def EndlessActions (m : Bytes) (head length : Nat) : Prop :=
  ∃ lens loop offset, ActionWalk m head length 0 (lens ++ loop) offset ∧ loop ≠ [] ∧
    loop.sum % 65536 = 0

theorem validateAction_reads {m : Bytes} {p : Nat} (h : validateAction m p = .ok ()) :
    p + 4 ≤ m.length ∧ 8 ≤ (be16 m (p + 2)).toNat :=
  ⟨(validateAction_eq_ok.mp h).1,(validateAction_eq_ok.mp h).2.1⟩

theorem follows_actions (m : Bytes) (head length : Nat) :
    Follows (fun offset => decide (offset < length)) (fun _ => elementStep validateAction m head)
      (ElementAt validateAction m head length) wrapOffset :=
  follows_elements (fun _ _ h => (validateAction_reads h).1) m head length

theorem settled_validateActions (m : Bytes) (head length : Nat) :
    Settled (fun n => validateActions n m head length) :=
  settled_validateElements validateAction m head length

theorem foldl_wrapOffset (ls : List Nat) (s : Nat) :
    ls.foldl wrapOffset s % 65536 = (s + ls.sum) % 65536 := by
  induction ls generalizing s with
  | nil => simp
  | cons l ls ih =>
    simp only [List.foldl_cons,ih,wrapOffset,List.sum_cons]
    omega

theorem foldl_wrapOffset_lt (ls : List Nat) {s : Nat} (hs : s < 65536) :
    ls.foldl wrapOffset s < 65536 := by
  induction ls generalizing s with
  | nil => exact hs
  | cons l ls ih => exact ih (Nat.mod_lt _ (by omega))

theorem validateActions_terminates (m : Bytes) (head length : Nat) :
    Terminates (fun n => validateActions n m head length) ↔ ¬ EndlessActions m head length := by
  have hset : ∀ s, Settled (fun _ : Nat => elementStep validateAction m head s) :=
    fun _ => settled_const _
  have hlt : ∀ {ls t}, ActionWalk m head length 0 ls t → t < 65536 := by
    intro ls t hw
    rw [hw.fold]
    exact foldl_wrapOffset_lt ls (by omega)
  rw [validateActions,validateElements_terminates_iff_loop]
  constructor
  · rintro hterm ⟨lens,loop,offset,hw,hne,hsum⟩
    obtain ⟨t,ht,hu⟩ := hw.split
    have hback : offset = t := by
      have h := hu.fold
      have hmod := foldl_wrapOffset loop t
      rw [← h] at hmod
      have h1 := hlt hw
      have h2 := hlt ht
      omega
    subst hback
    exact not_terminates_of_cycle hset ((follows_actions m head length).reach 0 offset |>.mpr ⟨lens,ht⟩)
      ((follows_actions m head length).transGen offset offset |>.mpr ⟨loop,hne,hu⟩) hterm
  · intro hno
    refine terminates_of_acyclic hset 0
      (fun t _ _ => (terminates_const _).mpr
        (elementStep_ne_outOfFuel validateAction_ne_outOfFuel m head t)) ?_ ?_
    · refine (Set.finite_lt_nat 65536).subset fun t ht => ?_
      obtain ⟨ls,hls⟩ := ((follows_actions m head length).reach 0 t).mp ht
      exact hlt hls
    · intro t ht hcycle
      obtain ⟨lens,hlens⟩ := ((follows_actions m head length).reach 0 t).mp ht
      obtain ⟨loop,hne,hw⟩ := ((follows_actions m head length).transGen t t).mp hcycle
      refine hno ⟨lens,loop,t,hlens.append hw,hne,?_⟩
      have h := foldl_wrapOffset loop t
      rw [← hw.fold] at h
      omega

theorem settled_onlyIf {c : Prop} [Decidable c] {f : Nat → Exec Unit} (hf : Settled f) :
    Settled (fun n => onlyIf c (f n)) := settled_ite hf (settled_const _)

theorem yields_onlyIf_actions (m : Bytes) (head length : Nat) (r : Exec Unit) :
    Yields (fun n => onlyIf (0 < length) (validateActions n m head length)) r ↔
      Yields (fun n => validateActions n m head length) r := by
  by_cases hl : 0 < length
  · simp [onlyIf,hl]
  · obtain rfl : length = 0 := by omega
    have hempty : Yields (fun n => validateActions n m head 0) (.ok ()) :=
      ⟨by simp,1,by simp [validateActions,validateElements,whileLoop,pure,Except.pure]⟩
    simp only [onlyIf,Nat.lt_irrefl,if_false,yields_const]
    constructor
    · rintro ⟨rfl,_⟩
      exact hempty
    · intro h
      exact ⟨(settled_validateActions m head 0).yields_unique h hempty,by simp⟩

theorem terminates_onlyIf_actions (m : Bytes) (head length : Nat) :
    Terminates (fun n => onlyIf (0 < length) (validateActions n m head length)) ↔
      ¬ EndlessActions m head length := by
  rw [← validateActions_terminates]
  simp only [terminates_iff,yields_onlyIf_actions]

def EndlessPacketOut (message : Bytes) : Prop :=
  ∃ length, packetOutFields message = .ok length ∧ EndlessActions message 16 length

def EndlessFlowMod (message : Bytes) : Prop :=
  ∃ length, flowModFields message = .ok length ∧ EndlessActions message 72 length

theorem packetOutFields_ne_outOfFuel (message : Bytes) :
    packetOutFields message ≠ .error .outOfFuel := by
  simp [packetOutFields,pure,Except.pure]

theorem flowModOptions_ne_outOfFuel (message : Bytes) (mtch : OfpMatch) (command : UInt16) :
    flowModOptions message mtch command ≠ .error .outOfFuel := by
  simp [flowModOptions,pure,Except.pure]

theorem flowModFields_ne_outOfFuel (message : Bytes) :
    flowModFields message ≠ .error .outOfFuel := by
  simp [flowModFields,ntohMatch,skipIf_eq_error,flowModOptions_ne_outOfFuel]

theorem statsReplyBody_ne_outOfFuel (message : Bytes) :
    statsReplyBody message ≠ .error .outOfFuel := by
  simp [statsReplyBody,pure,Except.pure]

theorem flowStatsHead_ne_outOfFuel (m : Bytes) (p : Nat) :
    flowStatsHead m p ≠ .error .outOfFuel := by
  simp [flowStatsHead,ntohMatch,pure,Except.pure]

theorem validatePacketOut_terminates (message : Bytes) :
    Terminates (fun n => validatePacketOut n message) ↔ ¬ EndlessPacketOut message := by
  simp only [validatePacketOut]
  rw [terminates_after (fun _ => settled_onlyIf (settled_validateActions _ _ _))]
  simp only [terminates_onlyIf_actions,EndlessPacketOut,not_exists,not_and]
  exact and_iff_right (packetOutFields_ne_outOfFuel message)

theorem validateFlowMod_terminates (message : Bytes) :
    Terminates (fun n => validateFlowMod n message) ↔ ¬ EndlessFlowMod message := by
  simp only [validateFlowMod]
  rw [terminates_after (fun _ => settled_onlyIf (settled_validateActions _ _ _))]
  simp only [terminates_onlyIf_actions,EndlessFlowMod,not_exists,not_and]
  exact and_iff_right (flowModFields_ne_outOfFuel message)

def entryActionsLength (length : Nat) : Nat := sub16 length 88

structure FlowEntryAt (m : Bytes) (s : Nat × Nat) (length : Nat) : Prop where
  remains : 0 < s.1
  head : flowStatsHead m s.2 = .ok length
  actions : Yields (fun n => validateActions n m (s.2 + 88) (entryActionsLength length)) (.ok ())

def nextEntry (s : Nat × Nat) (length : Nat) : Nat × Nat :=
  (sub16 s.1 length,s.2 + length)

abbrev FlowWalk (m : Bytes) := Walk (FlowEntryAt m) nextEntry

def EndlessFlowStats (message : Bytes) : Prop :=
  ∃ body lens s, statsReplyBody message = .ok body ∧ FlowWalk message (body,12) lens s ∧
    (0 ∈ lens ∨ ∃ length, 0 < s.1 ∧ flowStatsHead message s.2 = .ok length ∧
      EndlessActions message (s.2 + 88) (entryActionsLength length))

theorem settled_entryActions (m : Bytes) (s : Nat × Nat) (length : Nat) :
    Settled (fun n => onlyIf (0 < sub16 length 88)
        (validateActions n m (s.2 + 88) (sub16 length 88)) >>= fun _ =>
      (pure (sub16 s.1 length,s.2 + length) : Exec (Nat × Nat))) :=
  settled_bind (settled_onlyIf (settled_validateActions _ _ _)) (fun _ => settled_const _)

theorem settled_flowStatsStep (m : Bytes) (s : Nat × Nat) :
    Settled (fun n => flowStatsStep n m s) :=
  settled_bind (settled_const _) (settled_entryActions m s)

theorem flowStatsStep_terminates {m : Bytes} {s : Nat × Nat} :
    Terminates (fun n => flowStatsStep n m s) ↔ ∀ length, flowStatsHead m s.2 = .ok length →
      ¬ EndlessActions m (s.2 + 88) (entryActionsLength length) := by
  simp only [flowStatsStep]
  rw [terminates_after (settled_entryActions m s)]
  simp only [flowStatsHead_ne_outOfFuel,ne_eq,not_false_eq_true,true_and]
  refine forall_congr' fun length => imp_congr_right fun _ => ?_
  rw [terminates_bind (settled_onlyIf (settled_validateActions _ _ _)) (fun _ => settled_const _),
    terminates_onlyIf_actions]
  simp [terminates_const,entryActionsLength,pure,Except.pure]

theorem follows_flowStats (m : Bytes) :
    Follows (fun s => decide (0 < s.1)) (fun n => flowStatsStep n m) (FlowEntryAt m)
      nextEntry := by
  intro s t
  simp only [Next,flowStatsStep,decide_eq_true_eq]
  rw [yields_after (settled_entryActions m s)]
  constructor
  · rintro ⟨hs,⟨length,hl,h⟩ | ⟨e,_,_,h⟩⟩
    · rw [yields_bind (settled_onlyIf (settled_validateActions _ _ _))
        (fun _ => settled_const _)] at h
      rcases h with ⟨u,hu,h⟩ | ⟨e,_,h⟩
      · simp only [pure,Except.pure,yields_const] at h
        obtain ⟨h,_⟩ := h
        injection h with h
        exact ⟨length,⟨hs,hl,(yields_onlyIf_actions _ _ _ _).mp hu⟩,h⟩
      · simp at h
    · simp at h
  · rintro ⟨length,⟨hs,hl,hu⟩,rfl⟩
    refine ⟨hs,.inl ⟨length,hl,?_⟩⟩
    rw [yields_bind (settled_onlyIf (settled_validateActions _ _ _)) (fun _ => settled_const _)]
    refine .inl ⟨(),(yields_onlyIf_actions _ _ _ _).mpr hu,?_⟩
    simp [pure,Except.pure,nextEntry]

theorem flowStatsHead_reads {m : Bytes} {p length : Nat} (h : flowStatsHead m p = .ok length) :
    p + 44 ≤ m.length ∧ length = (be16 m p).toNat := by
  simp only [flowStatsHead,ntohMatch,bind_eq_ok,convert_eq_ok,net16_eq_ok] at h
  obtain ⟨_,⟨hm,rfl⟩,_,_,_,_,_,⟨_,rfl⟩,h⟩ := h
  injection h with h
  have hread : readEnd matchFields = 40 := rfl
  exact ⟨by omega,h.symm⟩

theorem flowWalk_remaining_lt {m : Bytes} {s t : Nat × Nat} {lens : List Nat}
    (h : FlowWalk m s lens t) (hs : s.1 < 65536) : t.1 < 65536 := by
  induction h with
  | nil s => exact hs
  | cons _ _ ih => exact ih (Nat.mod_lt _ (by omega))

theorem statsReplyBody_lt {message : Bytes} {body : Nat} (h : statsReplyBody message = .ok body) :
    body < 65536 := by
  simp only [statsReplyBody,bind_eq_ok] at h
  obtain ⟨_,_,_,_,_,_,_,_,h⟩ := h
  injection h with h
  exact h ▸ sub16_lt _ _

theorem flowStatsLoop_terminates (message : Bytes) {body : Nat} (hbody : body < 65536) :
    Terminates (fun n => whileLoop (fun s => decide (0 < s.1)) (flowStatsStep n message) n
      (body,12)) ↔ ∀ lens s, FlowWalk message (body,12) lens s → 0 ∉ lens ∧
        ∀ length, 0 < s.1 → flowStatsHead message s.2 = .ok length →
          ¬ EndlessActions message (s.2 + 88) (entryActionsLength length) := by
  have hset := settled_flowStatsStep message
  have hreach := (follows_flowStats message).reach
  constructor
  · intro hterm lens s hw
    refine ⟨fun hzero => ?_,fun length hs hl hend => ?_⟩
    · obtain ⟨pre,u,hu,he⟩ := hw.mem hzero
      have hfix : nextEntry u 0 = u := by
        have hlt := flowWalk_remaining_lt hu hbody
        obtain ⟨remaining,pos⟩ := u
        simp only [nextEntry,Prod.mk.injEq]
        exact ⟨sub16_of_le (by omega) hlt,by omega⟩
      refine not_terminates_of_cycle hset ((hreach _ _).mpr ⟨pre,hu⟩) (.single ?_) hterm
      exact (follows_flowStats message u u).mpr ⟨0,he,hfix.symm⟩
    · refine not_terminates_of_stuck hset ((hreach _ _).mpr ⟨lens,hw⟩) (by simpa using hs) ?_ hterm
      exact fun h => flowStatsStep_terminates.mp h length hl hend
  · intro h
    refine terminates_of_bounded hset _ ?_ (fun s => s.2) message.length ?_
    · intro t ht hc
      obtain ⟨lens,hw⟩ := (hreach _ _).mp ht
      exact flowStatsStep_terminates.mpr fun length hl =>
        (h lens t hw).2 length (by simpa using hc) hl
    · intro t u ht hn
      obtain ⟨lens,hw⟩ := (hreach _ _).mp ht
      obtain ⟨length,he,rfl⟩ := (follows_flowStats message t u).mp hn
      have hpos := (h _ _ (hw.snoc he)).1
      have hin := (flowStatsHead_reads he.head).1
      have hne : length ≠ 0 := by
        rintro rfl
        simp at hpos
      simp only [nextEntry]
      omega

theorem validateFlowStatsReply_terminates (message : Bytes) :
    Terminates (fun n => validateFlowStatsReply n message) ↔ ¬ EndlessFlowStats message := by
  have hset : ∀ body, Settled (fun n => whileLoop (fun s => decide (0 < s.1))
      (flowStatsStep n message) n (body,12)) :=
    fun body => settled_whileLoop (settled_flowStatsStep message) (body,12)
  simp only [validateFlowStatsReply]
  rw [terminates_after (fun body => settled_bind (hset body) (fun _ => settled_const _))]
  simp only [statsReplyBody_ne_outOfFuel,ne_eq,not_false_eq_true,true_and]
  constructor
  · rintro h ⟨body,lens,s,hbody,hw,hbad⟩
    have hterm := ((terminates_bind (hset body) (fun _ => settled_const _)).mp (h body hbody)).1
    obtain ⟨hzero,hacts⟩ := (flowStatsLoop_terminates message (statsReplyBody_lt hbody)).mp
      hterm lens s hw
    rcases hbad with hz | ⟨length,hs,hl,hend⟩
    · exact hzero hz
    · exact hacts length hs hl hend
  · intro h body hbody
    refine (terminates_bind (hset body) (fun _ => settled_const _)).mpr ⟨?_,fun _ _ => ?_⟩
    · refine (flowStatsLoop_terminates message (statsReplyBody_lt hbody)).mpr fun lens s hw => ?_
      refine ⟨fun hz => h ⟨body,lens,s,hbody,hw,.inl hz⟩,fun length hs hl hend => ?_⟩
      exact h ⟨body,lens,s,hbody,hw,.inr ⟨length,hs,hl,hend⟩⟩
    · exact (terminates_const _).mpr (by simp [pure,Except.pure])

theorem validateQueueProperty_ne_outOfFuel (m : Bytes) (p : Nat) :
    validateQueueProperty m p ≠ .error .outOfFuel := by
  simp only [validateQueueProperty,bind_eq_error,net16_eq_error,rejectIf_eq_error,ne_eq,not_or,
    not_exists,not_and]
  refine ⟨by simp,fun _ _ => ⟨by simp,fun _ _ => ⟨by simp,fun property _ => ?_⟩⟩⟩
  split
  · simp [validatePropertySize]
  · split <;> simp [validatePropertySize]

theorem validateQueueProperty_reads {m : Bytes} {p : Nat}
    (h : validateQueueProperty m p = .ok ()) :
    p + 4 ≤ m.length ∧ 8 ≤ (be16 m (p + 2)).toNat ∧ (be16 m (p + 2)).toNat ≤ 16 := by
  obtain ⟨hp,⟨_,hl⟩ | ⟨_,hl⟩⟩ := validateQueueProperty_eq_ok.mp h
  · exact ⟨hp,by omega,by omega⟩
  · exact ⟨hp,by omega,by omega⟩

theorem settled_validateQueueProperties (m : Bytes) (head length : Nat) :
    Settled (fun n => validateQueueProperties n m head length) :=
  settled_validateElements validateQueueProperty m head length

theorem follows_properties (m : Bytes) (head length : Nat) :
    Follows (fun offset => decide (offset < length))
      (fun _ => elementStep validateQueueProperty m head)
      (ElementAt validateQueueProperty m head length) wrapOffset :=
  follows_elements (fun _ _ h => (validateQueueProperty_reads h).1) m head length

theorem validateQueueProperties_terminates {m : Bytes} {head : Nat} (length : Nat)
    (hm : m.length < 65536) (hhead : 16 ≤ head) :
    Terminates (fun n => validateQueueProperties n m head length) := by
  rw [validateQueueProperties,validateElements_terminates_iff_loop]
  have hset : ∀ s, Settled (fun _ : Nat => elementStep validateQueueProperty m head s) :=
    fun _ => settled_const _
  refine terminates_of_bounded hset 0 (fun t _ _ => (terminates_const _).mpr
    (elementStep_ne_outOfFuel validateQueueProperty_ne_outOfFuel m head t)) id m.length ?_
  intro t u _ hn
  obtain ⟨len,⟨_,hv,rfl⟩,rfl⟩ := (follows_properties m head length t u).mp hn
  obtain ⟨hin,hmin,hmax⟩ := validateQueueProperty_reads hv
  simp only [id_eq,wrapOffset]
  omega

theorem settled_validatePacketQueue (m : Bytes) (p : Nat) :
    Settled (fun n => validatePacketQueue n m p) :=
  settled_bind (settled_const _) (fun _ => settled_bind (settled_const _)
    (fun _ => settled_validateQueueProperties _ _ _))

theorem validatePacketQueue_terminates {m : Bytes} {p : Nat} (hm : m.length < 65536)
    (hp : 16 ≤ p) : Terminates (fun n => validatePacketQueue n m p) := by
  simp only [validatePacketQueue]
  refine (terminates_bind (settled_const _) (fun _ => settled_bind (settled_const _)
    (fun _ => settled_validateQueueProperties _ _ _))).mpr ⟨?_,fun len _ => ?_⟩
  · exact (terminates_const _).mpr (by simp)
  · refine (terminates_bind (settled_const _)
      (fun _ => settled_validateQueueProperties _ _ _)).mpr ⟨?_,fun _ _ => ?_⟩
    · exact (terminates_const _).mpr (by simp)
    · exact validateQueueProperties_terminates _ hm (by omega)

theorem settled_validatePacketQueues (m : Bytes) (p k : Nat) :
    Settled (fun n => validatePacketQueues n m p k) := by
  induction k generalizing p with
  | zero => exact settled_const _
  | succ k ih =>
    exact settled_bind (settled_validatePacketQueue m p)
      (fun _ => settled_bind (settled_const _) (fun len => ih (p + len.toNat)))

theorem validatePacketQueues_terminates {m : Bytes} (k : Nat) {p : Nat} (hm : m.length < 65536)
    (hp : 16 ≤ p) : Terminates (fun n => validatePacketQueues n m p k) := by
  induction k generalizing p with
  | zero => exact (terminates_const _).mpr (by simp)
  | succ k ih =>
    simp only [validatePacketQueues]
    refine (terminates_bind (settled_validatePacketQueue m p) (fun _ => settled_bind
      (settled_const _) (fun len : UInt16 => settled_validatePacketQueues m (p + len.toNat) k))).mpr
      ⟨validatePacketQueue_terminates hm hp,fun _ _ => ?_⟩
    refine (terminates_bind (settled_const _)
      (fun len : UInt16 => settled_validatePacketQueues m (p + len.toNat) k)).mpr ⟨?_,fun len _ => ?_⟩
    · exact (terminates_const _).mpr (by simp)
    · exact ih (by omega)

structure QueueAt (m : Bytes) (s : QueueCount) (len : Nat) : Prop where
  remains : 8 < s.remaining
  inside : s.queue + 6 ≤ m.length
  len : (be16 m (s.queue + 4)).toNat = len

def nextQueue (s : QueueCount) (len : Nat) : QueueCount :=
  ⟨sub16 s.remaining len,s.queue + len,s.queues + 1⟩

abbrev QueueWalk (m : Bytes) := Walk (QueueAt m) nextQueue

def EndlessQueues (message : Bytes) : Prop :=
  ∃ body lens s, queueConfigFields message = .ok body ∧
    QueueWalk message ⟨body,16,0⟩ lens s ∧ 0 ∈ lens

theorem countQueue_ne_outOfFuel (m : Bytes) (s : QueueCount) :
    countQueue m s ≠ .error .outOfFuel := by simp [countQueue,pure,Except.pure]

theorem follows_queues (m : Bytes) :
    Follows (fun s => decide (8 < s.remaining)) (fun _ => countQueue m) (QueueAt m) nextQueue := by
  intro s t
  simp only [Next,countQueue,yields_const,decide_eq_true_eq]
  constructor
  · rintro ⟨hs,h,_⟩
    obtain ⟨len,hlen,h⟩ := bind_eq_ok.mp h.symm
    obtain ⟨hread,rfl⟩ := net16_eq_ok.mp hlen
    injection h with h
    exact ⟨_,⟨hs,by omega,rfl⟩,h.symm⟩
  · rintro ⟨len,⟨hs,hin,rfl⟩,rfl⟩
    refine ⟨hs,?_,by simpa [countQueue] using countQueue_ne_outOfFuel m s⟩
    rw [net16_eq_ok.mpr ⟨by omega,rfl⟩]
    rfl

theorem queueWalk_remaining_lt {m : Bytes} {s t : QueueCount} {lens : List Nat}
    (h : QueueWalk m s lens t) (hs : s.remaining < 65536) : t.remaining < 65536 := by
  induction h with
  | nil s => exact hs
  | cons _ _ ih => exact ih (Nat.mod_lt _ (by omega))

theorem queueWalk_queues {m : Bytes} {s t : QueueCount} {lens : List Nat}
    (h : QueueWalk m s lens t) : t.queues = s.queues + lens.length := by
  induction h with
  | nil s => rfl
  | cons _ _ ih =>
    rw [ih]
    simp only [nextQueue,List.length_cons]
    omega

theorem countLoop_terminates (message : Bytes) {body : Nat} (hbody : body < 65536) :
    Terminates (fun n => whileLoop (fun s => decide (8 < s.remaining)) (countQueue message) n
      ⟨body,16,0⟩) ↔ ∀ lens s, QueueWalk message ⟨body,16,0⟩ lens s → 0 ∉ lens := by
  have hset : ∀ s, Settled (fun _ : Nat => countQueue message s) := fun _ => settled_const _
  have hreach := (follows_queues message).reach
  constructor
  · intro hterm lens s hw hzero
    obtain ⟨pre,u,hu,he⟩ := hw.mem hzero
    have hlt := queueWalk_remaining_lt hu hbody
    refine not_terminates_of_forever hset (fun v => v.remaining = u.remaining ∧ v.queue = u.queue)
      ((hreach _ _).mpr ⟨pre,hu⟩) ⟨rfl,rfl⟩ ?_ hterm
    rintro v ⟨hr,hq⟩
    refine ⟨nextQueue v 0,(follows_queues message _ _).mpr ⟨0,?_,rfl⟩,?_⟩
    · exact ⟨hr ▸ he.remains,hq ▸ he.inside,hq ▸ he.len⟩
    · simp only [nextQueue]
      exact ⟨by rw [hr,sub16_of_le (by omega) hlt]; rfl,by omega⟩
  · intro h
    refine terminates_of_bounded hset _
      (fun t _ _ => (terminates_const _).mpr (countQueue_ne_outOfFuel message t))
      (fun s => s.queue) message.length ?_
    intro t u ht hn
    obtain ⟨lens,hw⟩ := (hreach _ _).mp ht
    obtain ⟨len,he,rfl⟩ := (follows_queues message t u).mp hn
    have hpos := h _ _ (hw.snoc he)
    have hin := he.inside
    have hne : len ≠ 0 := by
      rintro rfl
      simp at hpos
    simp only [nextQueue]
    omega

theorem queueConfigFields_ne_outOfFuel (message : Bytes) :
    queueConfigFields message ≠ .error .outOfFuel := by
  simp [queueConfigFields,pure,Except.pure]

theorem queueConfigFields_bounds {message : Bytes} {body : Nat}
    (h : queueConfigFields message = .ok body) : message.length < 65536 ∧ body < 65536 := by
  simp only [queueConfigFields,bind_eq_ok,validateHeader_eq_ok] at h
  obtain ⟨_,hh,_,_,_,_,_,_,h⟩ := h
  injection h with h
  have := hh.upper
  exact ⟨by omega,h ▸ sub16_lt _ _⟩

theorem settled_queuesAfter (message : Bytes) (s : QueueCount) :
    Settled (fun n => rejectIf (s.remaining ≠ 0) .invalidLength >>= fun _ =>
      onlyIf (0 < s.queues) (validatePacketQueues n message 16 s.queues)) :=
  settled_bind (settled_const _)
    (fun _ => settled_onlyIf (settled_validatePacketQueues _ _ _))

theorem settled_queuesLoop (message : Bytes) (body : Nat) :
    Settled (fun n => whileLoop (fun s => decide (8 < s.remaining)) (countQueue message) n
      ⟨body,16,0⟩) :=
  settled_whileLoop (fun s => settled_const (countQueue message s)) _

theorem settled_queues (message : Bytes) (body : Nat) :
    Settled (fun n => whileLoop (fun s => decide (8 < s.remaining)) (countQueue message) n
      ⟨body,16,0⟩ >>= fun counted => rejectIf (counted.remaining ≠ 0) .invalidLength >>= fun _ =>
        onlyIf (0 < counted.queues) (validatePacketQueues n message 16 counted.queues)) :=
  settled_bind (settled_queuesLoop message body) (settled_queuesAfter message)

theorem validateQueueGetConfigReply_terminates (message : Bytes) :
    Terminates (fun n => validateQueueGetConfigReply n message) ↔ ¬ EndlessQueues message := by
  simp only [validateQueueGetConfigReply]
  rw [terminates_after (settled_queues message)]
  simp only [queueConfigFields_ne_outOfFuel,ne_eq,not_false_eq_true,true_and]
  constructor
  · rintro h ⟨body,lens,s,hbody,hw,hzero⟩
    have hloop := ((terminates_bind (settled_queuesLoop message body)
      (settled_queuesAfter message)).mp (h body hbody)).1
    exact (countLoop_terminates message (queueConfigFields_bounds hbody).2).mp hloop lens s hw hzero
  · intro h body hbody
    obtain ⟨hm,hlt⟩ := queueConfigFields_bounds hbody
    refine (terminates_bind (settled_queuesLoop message body)
      (settled_queuesAfter message)).mpr ⟨?_,fun s _ => ?_⟩
    · exact (countLoop_terminates message hlt).mpr fun lens s hw hz =>
        h ⟨body,lens,s,hbody,hw,hz⟩
    · refine (terminates_after
        (fun _ => settled_onlyIf (settled_validatePacketQueues _ _ _))).mpr ⟨by simp,fun _ _ => ?_⟩
      by_cases hq : 0 < s.queues
      · simp only [onlyIf,hq,if_true]
        exact validatePacketQueues_terminates _ hm (by omega)
      · simp only [onlyIf,hq,if_false]
        exact (terminates_const _).mpr (by simp)

def EndlessStatsReply (message : Bytes) : Prop :=
  StatsType.ofCode (be16 message 8) = some .flow ∧ EndlessFlowStats message

theorem settled_validateFlowStatsReply (message : Bytes) :
    Settled (fun n => validateFlowStatsReply n message) :=
  settled_bind (settled_const _) (fun body => settled_bind
    (settled_whileLoop (settled_flowStatsStep message) (body,12)) (fun _ => settled_const _))

theorem validateStatsReplyByType_ne_outOfFuel (n : Nat) (message : Bytes) {t : StatsType}
    (ht : t ≠ .flow) : validateStatsReplyByType n message t ≠ .error .outOfFuel := by
  cases t with
  | flow => exact absurd rfl ht
  | desc => simp [validateStatsReplyByType,validateDescStatsReply,validateSingleStatsReply]
  | aggregate =>
    simp [validateStatsReplyByType,validateAggregateStatsReply,validateSingleStatsReply]
  | table =>
    simp [validateStatsReplyByType,validateTableStatsReply,validateStatsEntries,
      statsReplyBody_ne_outOfFuel,validateWildcards]
  | port =>
    simp [validateStatsReplyByType,validatePortStatsReply,validateStatsEntries,
      statsReplyBody_ne_outOfFuel]
  | queue =>
    simp [validateStatsReplyByType,validateQueueStatsReply,validateStatsEntries,
      statsReplyBody_ne_outOfFuel]
  | vendor =>
    simp [validateStatsReplyByType,validateVendorStatsReply,statsReplyBody_ne_outOfFuel,pure,
      Except.pure]

theorem settled_validateStatsReplyByType (message : Bytes) (t : StatsType) :
    Settled (fun n => validateStatsReplyByType n message t) := by
  cases t with
  | flow => exact settled_validateFlowStatsReply message
  | _ => exact settled_const _

theorem validateStatsReplyByType_terminates (message : Bytes) (t : StatsType) :
    Terminates (fun n => validateStatsReplyByType n message t) ↔
      (t = .flow → ¬ EndlessFlowStats message) := by
  by_cases ht : t = .flow
  · subst ht
    simpa [validateStatsReplyByType] using validateFlowStatsReply_terminates message
  · simp only [ht,false_implies,iff_true]
    exact ⟨0,validateStatsReplyByType_ne_outOfFuel 0 message ht⟩

theorem settled_dispatch {τ : Type} (type : Option τ) (unknown : ValidationError)
    {check : Nat → τ → Exec Unit} (h : ∀ t, Settled (fun n => check n t)) :
    Settled (fun n => dispatch type unknown (check n)) := by
  cases type with
  | none => exact settled_const _
  | some t => exact h t

theorem dispatch_terminates {τ : Type} (type : Option τ) (unknown : ValidationError)
    (check : Nat → τ → Exec Unit) :
    Terminates (fun n => dispatch type unknown (check n)) ↔
      ∀ t, type = some t → Terminates (fun n => check n t) := by
  cases type with
  | none => simp [dispatch,terminates_const]
  | some t => simp [dispatch]

theorem endlessFlowStats_length {message : Bytes} (h : EndlessFlowStats message) :
    12 ≤ message.length := by
  obtain ⟨body,_,_,hbody,_⟩ := h
  simp only [statsReplyBody,bind_eq_ok,validateHeader_eq_ok] at hbody
  obtain ⟨_,hh,_⟩ := hbody
  exact hh.lower

theorem validateStatsReply_terminates (message : Bytes) :
    Terminates (fun n => validateStatsReply n message) ↔ ¬ EndlessStatsReply message := by
  simp only [validateStatsReply]
  rw [terminates_after (fun _ => settled_dispatch _ _ (settled_validateStatsReplyByType message))]
  simp only [dispatch_terminates,validateStatsReplyByType_terminates,EndlessStatsReply,not_and,
    net16_eq_ok]
  constructor
  · rintro ⟨_,h⟩ htype hend
    have hlen := endlessFlowStats_length hend
    exact h _ ⟨by omega,rfl⟩ _ htype rfl hend
  · intro h
    refine ⟨by simp,?_⟩
    rintro _ ⟨_,rfl⟩ t ht rfl
    exact h ht

theorem validateStatsRequestByType_ne_outOfFuel (message : Bytes) (t : StatsType) :
    validateStatsRequestByType message t ≠ .error .outOfFuel := by
  cases t <;>
    simp [validateStatsRequestByType,validateDescStatsRequest,validateFlowStatsRequest,
      validateAggregateStatsRequest,validateTableStatsRequest,validatePortStatsRequest,
      validateQueueStatsRequest,validateVendorStatsRequest,validateStatsRequestOf,
      validateFlowStatsRequestOf,ntohMatch]

def EndlessByType (message : Bytes) : OfpType → Prop
  | .packetOut => EndlessPacketOut message
  | .flowMod => EndlessFlowMod message
  | .statsReply => EndlessStatsReply message
  | .queueGetConfigReply => EndlessQueues message
  | _ => False

def Endless (message : Bytes) : Prop :=
  ∃ t, OfpType.ofCode (hostByte message 1) = some t ∧ EndlessByType message t

theorem settled_validateByType (message : Bytes) (t : OfpType) :
    Settled (fun n => validateByType n message t) := by
  cases t with
  | packetOut =>
    exact settled_bind (settled_const _) (fun _ => settled_onlyIf (settled_validateActions _ _ _))
  | flowMod =>
    exact settled_bind (settled_const _) (fun _ => settled_onlyIf (settled_validateActions _ _ _))
  | statsReply =>
    exact settled_bind (settled_const _)
      (fun _ => settled_dispatch _ _ (settled_validateStatsReplyByType message))
  | queueGetConfigReply => exact settled_bind (settled_const _) (settled_queues message)
  | _ => exact settled_const _

theorem validateByType_terminates (message : Bytes) (t : OfpType) :
    Terminates (fun n => validateByType n message t) ↔ ¬ EndlessByType message t := by
  cases t with
  | packetOut => exact validatePacketOut_terminates message
  | flowMod => exact validateFlowMod_terminates message
  | statsReply => exact validateStatsReply_terminates message
  | queueGetConfigReply => exact validateQueueGetConfigReply_terminates message
  | _ =>
    simp only [validateByType,EndlessByType,terminates_const,not_false_eq_true,iff_true]
    simp [validateHello,validateError,validateEchoRequest,validateEchoReply,validateVendor,
      validateSized,validateFeaturesRequest,validateFeaturesReply,validatePhyPorts,
      validateGetConfigRequest,validateGetConfigReply,validateSetConfig,validateSwitchConfig,
      validatePacketIn,validateFlowRemoved,ntohMatch,validatePortStatus,validatePortMod,
      validateStatsRequest,validateStatsRequestByType_ne_outOfFuel,validateBarrierRequest,
      validateBarrierReply,validateQueueGetConfigRequest]

theorem endlessByType_length {message : Bytes} {t : OfpType} (h : EndlessByType message t) :
    8 ≤ message.length := by
  cases t with
  | packetOut =>
    obtain ⟨_,h,_⟩ := h
    simp only [packetOutFields,bind_eq_ok,validateHeader_eq_ok] at h
    obtain ⟨_,hh,_⟩ := h
    exact hh.fits
  | flowMod =>
    obtain ⟨_,h,_⟩ := h
    simp only [flowModFields,bind_eq_ok,validateHeader_eq_ok] at h
    obtain ⟨_,hh,_⟩ := h
    exact hh.fits
  | statsReply =>
    have := endlessFlowStats_length h.2
    omega
  | queueGetConfigReply =>
    obtain ⟨_,_,_,h,_⟩ := h
    simp only [queueConfigFields,bind_eq_ok,validateHeader_eq_ok] at h
    obtain ⟨_,hh,_⟩ := h
    exact hh.fits
  | _ => exact absurd h id

theorem settled_validateOpenflowMessage (message : Bytes) :
    Settled (fun n => validateOpenflowMessage n message) :=
  settled_bind (settled_const _) (fun _ => settled_bind (settled_const _)
    (fun _ => settled_dispatch _ _ (settled_validateByType message)))

theorem validateOpenflowMessage_terminates (message : Bytes) :
    Terminates (fun n => validateOpenflowMessage n message) ↔ ¬ Endless message := by
  have hset := fun type => settled_dispatch (OfpType.ofCode type) .undefinedType
    (settled_validateByType message)
  by_cases hm : 8 ≤ message.length
  · simp only [validateOpenflowMessage,load_ok (show 0 + 8 ≤ message.length by omega),ok_bind]
    rw [terminates_after hset]
    simp only [dispatch_terminates,validateByType_terminates,Endless,not_exists,not_and,
      byteAt_eq_ok]
    constructor
    · rintro ⟨_,h⟩
      exact h _ ⟨by omega,rfl⟩
    · intro h
      refine ⟨by simp,?_⟩
      rintro _ ⟨_,rfl⟩
      exact h
  · have hshort : ¬ Endless message := by
      rintro ⟨_,_,h⟩
      exact hm (endlessByType_length h)
    have hload : (load message 0 8 : Exec Bytes) = .error .outOfBounds := if_neg (by omega)
    simp only [hshort,not_false_eq_true,iff_true]
    exact ⟨0,by simp [validateOpenflowMessage,hload]⟩

theorem validation_terminates_iff (message : Bytes) :
    (Terminates (fun n => validateOpenflowMessage n message) ↔ ¬ Endless message) ∧
    (∀ t, Terminates (fun n => validateByType n message t) ↔ ¬ EndlessByType message t) ∧
    (∀ head length, Terminates (fun n => validateActions n message head length) ↔
      ¬ EndlessActions message head length) ∧
    (Terminates (fun n => validateFlowStatsReply n message) ↔ ¬ EndlessFlowStats message) :=
  ⟨validateOpenflowMessage_terminates message,validateByType_terminates message,
    validateActions_terminates message,validateFlowStatsReply_terminates message⟩

def wrappingFlowMod : Bytes :=
  [1,14,0,88,0,0,0,0,0,0x3f,0xff,0xff] ++ List.replicate 60 0 ++
    [0,3,0,8,0,0,0,0] ++ [0xff,0xff,0xff,0xf8,0,0,0,0]

def emptyFlowStats : Bytes :=
  [1,17,0,108,0,0,0,0,0,1,0,0,0,0,0,0,0,0x3f,0xff,0xff] ++ List.replicate 80 0 ++
    [0xff,0xff,0xff,0xa8,0,0,0,0]

def emptyQueue : Bytes := [1,21,0,32,0,0,0,0,0,1] ++ List.replicate 22 0

theorem wrappingFlowMod_endless : Endless wrappingFlowMod := by
  refine ⟨.flowMod,by decide,16,by decide,[],[8,65528],0,?_,by simp,by decide⟩
  exact .cons ⟨by decide,by decide,by decide⟩ (.cons ⟨by decide,by decide,by decide⟩ (.nil 0))

theorem emptyFlowStats_endless : Endless emptyFlowStats := by
  refine ⟨.statsReply,by decide,by decide,96,[0],(96,12),by decide,?_,.inl (by simp)⟩
  refine .cons ⟨by decide,by decide,⟨by simp,2,by decide⟩⟩ (.nil _)

theorem emptyQueue_endless : Endless emptyQueue := by
  refine ⟨.queueGetConfigReply,by decide,16,[0],⟨16,16,1⟩,by decide,?_,by simp⟩
  exact .cons ⟨by decide,by decide,by decide⟩ (.nil _)

theorem validation_not_terminating :
    ¬ Terminates (fun n => validateOpenflowMessage n wrappingFlowMod) ∧
    ¬ Terminates (fun n => validateOpenflowMessage n emptyFlowStats) ∧
    ¬ Terminates (fun n => validateOpenflowMessage n emptyQueue) := by
  simp only [validateOpenflowMessage_terminates,not_not]
  exact ⟨wrappingFlowMod_endless,emptyFlowStats_endless,emptyQueue_endless⟩

end Trema.OpenFlow
