import Trema.OpenFlow.ErrorMaps
import Trema.OpenFlow.Verdict
import Trema.Library.Rejection

namespace Trema.OpenFlow

open Library Layout

section Checks

variable {P : ValidationError → Prop}

@[simp] theorem rejectIf_failsOnly {bad : Prop} [Decidable bad] {error : ValidationError} :
    FailsOnly P (rejectIf bad error) ↔ (bad → P error) := by
  unfold rejectIf
  split <;> simp_all

theorem rejectIf_bind_failsOnly {α : Type} {bad : Prop} [Decidable bad] {error : ValidationError}
    {f : Unit → Exec α} : FailsOnly P (rejectIf bad error >>= f) ↔
      (bad → P error) ∧ (¬ bad → FailsOnly P (f ())) := by
  simp only [failsOnly_bind,rejectIf_failsOnly,rejectIf_eq_ok]
  exact and_congr_right fun _ => ⟨fun hf => hf (),fun hf _ => hf⟩

theorem rejectIf_bind_listed {α : Type} {bad : Prop} [Decidable bad] {error : ValidationError}
    {f : Unit → Exec α} (h : P error) :
    FailsOnly P (rejectIf bad error >>= f) ↔ (¬ bad → FailsOnly P (f ())) := by
  simp [rejectIf_bind_failsOnly,h]

theorem rejectIf_bind_unlisted {α : Type} {bad : Prop} [Decidable bad] {error : ValidationError}
    {f : Unit → Exec α} (h : ¬ P error) :
    FailsOnly P (rejectIf bad error >>= f) ↔ ¬ bad ∧ FailsOnly P (f ()) := by
  rw [rejectIf_bind_failsOnly]
  simp only [h,imp_false]
  exact and_congr_right fun hbad => forall_prop_of_true hbad

@[simp] theorem onlyIf_failsOnly {c : Prop} [Decidable c] {act : Exec Unit} :
    FailsOnly P (onlyIf c act) ↔ (c → FailsOnly P act) := by
  unfold onlyIf
  split <;> simp_all

theorem onlyIf_rejectsOnly {c : Prop} [Decidable c] {f : Nat → Exec Unit} :
    RejectsOnly P (fun n => onlyIf c (f n)) ↔ (c → RejectsOnly P f) := by
  by_cases hc : c
  · simp [onlyIf,hc]
  · simp [onlyIf,hc,rejectsOnly_const]

theorem skipIf_failsOnly {α : Type} {c : Prop} [Decidable c] {a : α} {act : Exec α} :
    FailsOnly P (if c then pure a else act) ↔ (¬ c → FailsOnly P act) := by
  split <;> simp_all [pure,Except.pure]

@[simp] theorem dispatch_failsOnly {τ : Type} {type : Option τ} {unknown : ValidationError}
    {check : τ → Exec Unit} : FailsOnly P (dispatch type unknown check) ↔
      (type = none → P unknown) ∧ ∀ t, type = some t → FailsOnly P (check t) := by
  cases type <;> simp [dispatch]

@[simp] theorem byteAt_failsOnly (m : Bytes) (p : Nat) :
    FailsOnly P (byteAt m p : Exec UInt8) := fun _ h => by simp [byteAt_eq_error] at h

@[simp] theorem net16_failsOnly (m : Bytes) (p : Nat) :
    FailsOnly P (net16 m p : Exec UInt16) := fun _ h => by simp [net16_eq_error] at h

@[simp] theorem net32_failsOnly (m : Bytes) (p : Nat) :
    FailsOnly P (net32 m p : Exec UInt32) := fun _ h => by simp [net32_eq_error] at h

@[simp] theorem convert_failsOnly (fields : List Field) (m : Bytes) (p : Nat) :
    FailsOnly P (convert fields m p : Exec Bytes) := fun _ h => by simp [convert_eq_error] at h

theorem byteAt_bind_failsOnly {α : Type} {m : Bytes} {p : Nat} {f : UInt8 → Exec α} :
    FailsOnly P (byteAt m p >>= f) ↔ (p + 1 ≤ m.length → FailsOnly P (f (hostByte m p))) := by
  by_cases h : p + 1 ≤ m.length <;> simp [byteAt,within,h]

theorem net16_bind_failsOnly {α : Type} {m : Bytes} {p : Nat} {f : UInt16 → Exec α} :
    FailsOnly P (net16 m p >>= f) ↔ (p + 2 ≤ m.length → FailsOnly P (f (be16 m p))) := by
  by_cases h : p + 2 ≤ m.length <;> simp [net16,within,h]

theorem net32_bind_failsOnly {α : Type} {m : Bytes} {p : Nat} {f : UInt32 → Exec α} :
    FailsOnly P (net32 m p >>= f) ↔ (p + 4 ≤ m.length → FailsOnly P (f (be32 m p))) := by
  by_cases h : p + 4 ≤ m.length <;> simp [net32,within,h]

theorem convert_bind_failsOnly {α : Type} {fields : List Field} {m : Bytes} {p : Nat}
    {f : Bytes → Exec α} : FailsOnly P (convert fields m p >>= f) ↔
      (p + readEnd fields ≤ m.length → FailsOnly P (f (cells fields (m.drop p)))) := by
  by_cases h : p + readEnd fields ≤ m.length <;> simp [convert,within,h]

def headerFaults : List ValidationError :=
  [.unsupportedVersion,.tooShortMessage,.tooLongMessage,.undefinedType,.invalidType]

theorem validateHeader_failsOnly (h : ∀ e ∈ headerFaults, P e) (message : Bytes) (type : OfpType)
    (lo hi : Nat) : FailsOnly P (validateHeader message type lo hi) := by
  simp only [headerFaults,List.forall_mem_cons] at h
  simp [validateHeader,failsOnly_bind,h]

theorem validateHeader_bind_failsOnly {α : Type} (h : ∀ e ∈ headerFaults, P e) {message : Bytes}
    {type : OfpType} {lo hi : Nat} {f : Unit → Exec α} :
    FailsOnly P (validateHeader message type lo hi >>= f) ↔
      (Headed message type lo hi → FailsOnly P (f ())) := by
  simp only [failsOnly_bind,validateHeader_failsOnly h,validateHeader_eq_ok,true_and]
  exact ⟨fun hf => hf (),fun hf _ => hf⟩

theorem validateEach_failsOnly {check : Nat → Exec Unit} {size p n : Nat}
    (hok : ∀ i, i < n → FailsOnly P (check (p + i * size)) → check (p + i * size) = .ok ()) :
    FailsOnly P (validateEach check size p n) ↔
      ∀ i, i < n → FailsOnly P (check (p + i * size)) := by
  induction n generalizing p with
  | zero => simp [validateEach]
  | succ n ih =>
    have hshift : ∀ i, p + size + i * size = p + (i + 1) * size := fun i => by
      rw [Nat.succ_mul]
      omega
    have hfirst := hok 0 (by omega)
    rw [Nat.zero_mul,Nat.add_zero] at hfirst
    rw [validateEach,failsOnly_bind,ih (fun i hi => by rw [hshift]; exact hok _ (by omega)),
      Nat.forall_lt_succ_left,Nat.zero_mul,Nat.add_zero]
    simp only [hshift]
    exact and_congr_right fun hv => ⟨fun h => h () (hfirst hv),fun h _ _ => h⟩

def ValidPortNo (portNo : UInt16) : Prop :=
  portNo ≠ 0 ∧ (portNo ≤ ofppMax ∨ ofppInPort ≤ portNo)

theorem validPortNo_iff {portNo : UInt16} :
    ValidPortNo portNo ↔ ¬ (portNo = 0 ∨ (ofppMax < portNo ∧ portNo < ofppInPort)) := by
  rw [ValidPortNo,not_or,not_and_or,UInt16.not_lt,UInt16.not_lt]

theorem validatePhyPortNo_failsOnly (portNo : UInt16) :
    FailsOnly P (validatePhyPortNo portNo) ↔ (¬ ValidPortNo portNo → P .invalidPortNo) := by
  rw [validatePhyPortNo,rejectIf_failsOnly,validPortNo_iff,not_not]

theorem validatePhyPortNo_bind_unlisted {α : Type} {f : Unit → Exec α} (h : ¬ P .invalidPortNo)
    (portNo : UInt16) : FailsOnly P (validatePhyPortNo portNo >>= f) ↔
      ValidPortNo portNo ∧ FailsOnly P (f ()) := by
  rw [validatePhyPortNo,rejectIf_bind_unlisted h,validPortNo_iff]

structure ValidPhyPort (port : Bytes) : Prop where
  portNo : ValidPortNo (host16 port 0)
  config : host32 port 24 &&& ~~~portConfig = 0
  state : host32 port 28 &&& ~~~portState = 0
  features : ∀ off ∈ [32,36,40,44], host32 port off &&& ~~~portFeatures = 0

def phyPortAt (m : Bytes) (p : Nat) : Bytes := cells phyPortFields (m.drop p)

def phyPortFaults : List ValidationError :=
  [.invalidPortNo,.invalidPortConfig,.invalidPortState,.invalidPortFeatures]

theorem validatePhyPort_blames (hP : ∀ e ∈ phyPortFaults, P e) (m : Bytes) (p : Nat) :
    FailsOnly P (validatePhyPort m p) := by
  simp only [phyPortFaults,List.forall_mem_cons] at hP
  simp [validatePhyPort,ntohPhyPort,validatePhyPortNo,failsOnly_bind,hP]

theorem validatePhyPort_failsOnly (hP : ∀ e ∈ phyPortFaults, ¬ P e) {m : Bytes} {p : Nat}
    (hp : p + 48 ≤ m.length) :
    FailsOnly P (validatePhyPort m p) ↔ ValidPhyPort (phyPortAt m p) := by
  have hread : readEnd phyPortFields = 48 := rfl
  simp only [phyPortFaults,List.forall_mem_cons] at hP
  simp only [validatePhyPort,ntohPhyPort,convert_bind_failsOnly,hread,hp,
    validatePhyPortNo_bind_unlisted,rejectIf_bind_unlisted,rejectIf_failsOnly,hP,not_false_eq_true,
    imp_false,not_or,not_not,ne_eq,forall_const]
  constructor
  · rintro ⟨hno,hconfig,hstate,h32,h36,h40,h44⟩
    refine ⟨hno,hconfig,hstate,?_⟩
    simp only [List.forall_mem_cons]
    exact ⟨h32,h36,h40,h44,by simp⟩
  · rintro ⟨hno,hconfig,hstate,hfeatures⟩
    exact ⟨hno,hconfig,hstate,hfeatures 32 (by simp),hfeatures 36 (by simp),hfeatures 40 (by simp),
      hfeatures 44 (by simp)⟩

theorem validatePhyPort_ok_of_failsOnly (hP : ∀ e ∈ phyPortFaults, ¬ P e) {m : Bytes} {p : Nat}
    (hp : p + 48 ≤ m.length) (h : FailsOnly P (validatePhyPort m p)) : validatePhyPort m p = .ok () :=
  (failsOnly_iff_ok (validatePhyPort_blames hP m p) (validatePhyPort_ne_outOfFuel m p)
    (validatePhyPort_ne_aborted m p)).mp h (validatePhyPort_ne_outOfBounds hp)

structure ValidMatch (mtch : OfpMatch) : Prop where
  wildcards : mtch.wildcards &&& ~~~ofpfwAll = 0
  dlVlan : mtch.dlVlan = uint16Max ∨ mtch.dlVlan &&& ~~~vlanVidMask = 0
  dlVlanPcp : mtch.dlVlanPcp &&& ~~~vlanPcpMask = 0
  nwTos : mtch.nwTos &&& ~~~nwTosMask = 0

def matchFaults : List ValidationError :=
  [.invalidWildcards,.invalidVlanVid,.invalidVlanPcp,.invalidNwTos]

theorem validateMatch_failsOnly (hP : ∀ e ∈ matchFaults, ¬ P e) (mtch : OfpMatch) :
    FailsOnly P (validateMatch mtch) ↔ ValidMatch mtch := by
  simp only [matchFaults,List.forall_mem_cons] at hP
  simp only [validateMatch,validateWildcards,validateVlanVid,validateVlanPcp,validateNwTos,
    rejectIf_bind_unlisted,rejectIf_failsOnly,hP,not_false_eq_true,imp_false,not_and_or,not_not,ne_eq]
  exact ⟨fun h => ⟨h.1,h.2.1,h.2.2.1,h.2.2.2⟩,fun h => ⟨h.wildcards,h.dlVlan,h.dlVlanPcp,h.nwTos⟩⟩

theorem validateMatch_eq_ok {mtch : OfpMatch} : validateMatch mtch = .ok () ↔ ValidMatch mtch := by
  simp only [validateMatch,validateWildcards,validateVlanVid,validateVlanPcp,validateNwTos,bind_eq_ok,
    rejectIf_eq_ok,exists_const,not_and_or,not_not,ne_eq]
  exact ⟨fun h => ⟨h.1,h.2.1,h.2.2.1,h.2.2.2⟩,fun h => ⟨h.wildcards,h.dlVlan,h.dlVlanPcp,h.nwTos⟩⟩

theorem validateMatch_bind_unlisted {α : Type} {f : Unit → Exec α} (hP : ∀ e ∈ matchFaults, ¬ P e)
    (mtch : OfpMatch) : FailsOnly P (validateMatch mtch >>= f) ↔
      ValidMatch mtch ∧ FailsOnly P (f ()) := by
  rw [failsOnly_bind,validateMatch_failsOnly hP]
  exact and_congr_right fun hv => ⟨fun h => h () (validateMatch_eq_ok.mpr hv),fun h _ _ => h⟩

def actionFaults : List ValidationError := actionErrors.map Prod.fst

theorem validateActionAs_failsOnly {type : ActionType} {n : Nat} {short long : ValidationError}
    {check : Bytes → Exec Unit} (htype : P .invalidActionType) (hshort : P short) (hlong : P long)
    {m : Bytes} {p : Nat} : FailsOnly P (validateActionAs type n short long check m p) ↔
      (p + readEnd (actionFields type) ≤ m.length → be16 m p = type.code →
        (be16 m (p + 2)).toNat = n → FailsOnly P (check (cells (actionFields type) (m.drop p)))) := by
  rw [validateActionAs,convert_bind_failsOnly]
  refine forall_congr' fun hin => ?_
  have hdrop : readEnd (actionFields type) ≤ (m.drop p).length := by
    rw [List.length_drop]
    omega
  have hcode := host16_cells (actionFields_head type).1 hdrop
  have hlen := host16_cells (actionFields_head type).2 hdrop
  rw [be16_drop,Nat.add_zero] at hcode
  rw [be16_drop] at hlen
  simp only [rejectIf_bind_listed,htype,hshort,hlong,hcode,hlen,ne_eq,not_not,Nat.not_lt]
  exact forall_congr' fun _ => ⟨fun h heq => h (by omega) (by omega),fun h _ _ => h (by omega)⟩

theorem validateActionOf_failsOnly (hP : ∀ e ∈ actionFaults, P e) (t : ActionType) {m : Bytes}
    {p : Nat} : FailsOnly P (validateActionOf t m p) ↔
      (t = .setNwTos → p + 5 ≤ m.length → be16 m p = t.code → (be16 m (p + 2)).toNat = 8 →
        hostByte m (p + 4) &&& ~~~nwTosMask ≠ 0 → P .invalidNwTos) := by
  simp only [actionFaults,actionErrors,List.map_cons,List.map_nil,List.forall_mem_cons] at hP
  cases t with
  | setNwTos =>
    have hread : readEnd (actionFields .setNwTos) = 5 := rfl
    rw [validateActionOf,validateActionSetNwTos,validateActionAs_failsOnly (by simp [hP])
      (by simp [hP]) (by simp [hP]),hread]
    simp only [forall_const]
    refine forall_congr' fun hin => ?_
    have hcell : hostByte (cells (actionFields .setNwTos) (m.drop p)) 4 = hostByte m (p + 4) := by
      rw [hostByte_cells rfl (by rw [hread,List.length_drop]; omega),hostByte_drop]
    rw [hcell,validateNwTos,rejectIf_failsOnly]
  | vendor =>
    simp [validateActionOf,validateActionVendor,failsOnly_bind,hP]
  | _ =>
    simp only [reduceCtorEq,false_implies,iff_true]
    refine (validateActionAs_failsOnly (by simp [hP]) (by simp [hP]) (by simp [hP])).mpr ?_
    simp [validatePhyPortNo,validateVlanVid,validateVlanPcp,hP]

theorem validateAction_failsOnly (hP : ∀ e ∈ actionFaults, P e) {m : Bytes} {p : Nat} :
    FailsOnly P (validateAction m p) ↔
      (p + 4 ≤ m.length → (be16 m (p + 2)).toNat < 8 → P .tooShortAction) ∧
      (p + 5 ≤ m.length → ActionType.ofCode (be16 m p) = some .setNwTos →
        (be16 m (p + 2)).toNat = 8 → hostByte m (p + 4) &&& ~~~nwTosMask ≠ 0 → P .invalidNwTos) := by
  have hunknown : P .undefinedActionType := hP _ (by decide)
  simp only [validateAction,net16_bind_failsOnly,rejectIf_bind_failsOnly,dispatch_failsOnly,
    hunknown,implies_true,true_and,validateActionOf_failsOnly hP,Nat.not_lt]
  constructor
  · intro h
    exact ⟨fun hin => (h (by omega)).1,fun hin ht hlen =>
      (h (by omega)).2 (by omega) (by omega) _ ht rfl hin (ActionType.code_of_ofCode ht) hlen⟩
  · rintro ⟨hlong,htos⟩ hin
    exact ⟨hlong (by omega),fun _ _ t ht hs hin' _ hlen => htos hin' (hs ▸ ht) hlen⟩

theorem validateElements_rejectsOnly {check : Bytes → Nat → Exec Unit}
    (hread : ∀ m p, check m p = .ok () → p + 4 ≤ m.length) (m : Bytes) (head length : Nat) :
    RejectsOnly P (fun n => validateElements check n m head length) ↔
      ∀ lens offset, ElementWalk check m head length 0 lens offset → offset < length →
        FailsOnly P (check m (head + offset)) := by
  have hset : ∀ s, Settled (fun _ : Nat => elementStep check m head s) := fun _ => settled_const _
  have hstep : ∀ s, FailsOnly P (elementStep check m head s) ↔ FailsOnly P (check m (head + s)) := by
    intro s
    rw [elementStep,failsOnly_bind]
    simp [net16_bind_failsOnly,pure,Except.pure]
  simp only [validateElements]
  rw [rejectsOnly_bind (settled_whileLoop hset 0) (fun _ => settled_const _),
    whileLoop_rejectsOnly hset]
  simp only [rejectsOnly_const,hstep,decide_eq_true_eq,(follows_elements hread m head length).reach]
  constructor
  · rintro ⟨h,-⟩ lens offset hw hlt
    exact h offset ⟨lens,hw⟩ hlt
  · intro h
    refine ⟨?_,fun _ _ => by simp [pure,Except.pure]⟩
    rintro t ⟨lens,hw⟩ hlt
    exact h lens t hw hlt

theorem onlyIf_actions_rejectsOnly (m : Bytes) (head length : Nat) :
    RejectsOnly P (fun n => onlyIf (0 < length) (validateActions n m head length)) ↔
      ∀ lens offset, ActionWalk m head length 0 lens offset → offset < length →
        FailsOnly P (validateAction m (head + offset)) := by
  rw [onlyIf_rejectsOnly]
  refine (forall_congr' fun _ =>
    validateElements_rejectsOnly (fun _ _ h => (validateAction_reads h).1) m head length).trans ?_
  exact ⟨fun h lens offset hw hlt => h (by omega) lens offset hw hlt,fun h _ => h⟩

end Checks

end Trema.OpenFlow
