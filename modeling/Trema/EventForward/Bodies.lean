import Trema.EventForward.Runs

namespace Trema.EventForward

open Library
open Management (managementRequestSucceeded)
open OpenFlow (Exec abortIf subSize)
open PacketinFilter (CString)
open Table (appendToTail)

section Splitting

variable {m : Bytes} {requested k i nameBegin : Nat} {acc : List Nat}

theorem mem_drop_of_le {x : UInt8} {a b : Nat} (hab : a ≤ b) (h : x ∈ m.drop b) : x ∈ m.drop a := by
  obtain ⟨n,rfl⟩ := Nat.exists_eq_add_of_le hab
  rw [← List.drop_drop] at h
  exact List.mem_of_mem_drop h

theorem splitNames_inside (hk : 8 + i + k ≤ m.length) (hbegin : nameBegin ≤ 8 + i) (hacc : acc.length < requested)
    (hterm : ∀ b ∈ acc, 0 ∈ m.drop b) : ∃ names, splitNames m requested k i nameBegin acc = .ok names ∧
      ∀ b ∈ names, 0 ∈ m.drop b := by
  induction k generalizing i nameBegin acc with
  | zero => exact ⟨acc,rfl,hterm⟩
  | succ k ih =>
    have hdrop := drop_byte m (8 + i) (by omega)
    rw [splitNames,byteAt_drop hdrop,ok_bind]
    by_cases hc : hostByte m (8 + i) = 0
    · have hadded : ∀ b ∈ acc ++ [nameBegin], 0 ∈ m.drop b := by
        intro b hb
        rcases List.mem_append.mp hb with hb | hb
        · exact hterm b hb
        · rw [List.mem_singleton.mp hb]
          refine mem_drop_of_le hbegin ?_
          rw [hdrop,hc]
          simp
      rw [if_pos hc,if_pos hacc]
      by_cases hlast : (acc ++ [nameBegin]).length = requested
      · exact ⟨_,if_pos hlast,hadded⟩
      · simp only [if_neg hlast]
        refine ih (by omega) (by omega) ?_ hadded
        rw [List.length_append,List.length_singleton] at hlast ⊢
        omega
    · rw [if_neg hc]
      exact ih (by omega) (by omega) hacc hterm

theorem splitNames_none (hk : 8 + i + k ≤ m.length) :
    splitNames m 0 k i nameBegin [] = if 0 ∈ slice m (8 + i) k then .error .outOfBounds else .ok [] := by
  induction k generalizing i nameBegin with
  | zero => simp [splitNames,slice,pure_eq_ok]
  | succ k ih =>
    have hdrop := drop_byte m (8 + i) (by omega)
    have hslice : slice m (8 + i) (k + 1) = hostByte m (8 + i) :: slice m (8 + i + 1) k := by
      rw [slice,hdrop]
      rfl
    rw [splitNames,byteAt_drop hdrop,ok_bind,hslice]
    by_cases hc : hostByte m (8 + i) = 0
    · rw [if_pos hc,if_neg (by simp),hc,if_pos (by simp)]
    · have hmem : 0 ∈ hostByte m (8 + i) :: slice m (8 + i + 1) k ↔ 0 ∈ slice m (8 + i + 1) k := by
        rw [List.mem_cons]
        exact or_iff_right fun h => hc h.symm
      rw [if_neg hc,ih (by omega),← Nat.add_assoc]
      simp only [hmem]

theorem appendNamed_inside {names : List Nat} (list : List CString) (h : ∀ b ∈ names, 0 ∈ m.drop b) :
    ∃ list', names.foldlM (appendNamed m) list = .ok list' := by
  induction names generalizing list with
  | nil => exact ⟨list,rfl⟩
  | cons b names ih =>
    obtain ⟨next,hstep⟩ : ∃ next, appendNamed m list b = .ok next := by
      rw [appendNamed,stringAt,if_pos (h b (by simp)),ok_bind]
      split
      · exact ⟨_,rfl⟩
      · exact ⟨_,rfl⟩
    obtain ⟨list',hrest⟩ := ih next fun c hc => h c (List.mem_cons_of_mem _ hc)
    refine ⟨list',?_⟩
    rw [List.foldlM_cons,hstep,ok_bind,hrest]

end Splitting

section Contained

variable {heap : Nat → UInt8} {d : Daemon} {command nServices : UInt32} {body : Bytes} {list : List CString}

theorem requestedName_inside (nServices : UInt32) (h : 8 ≤ body.length) :
    ∃ name, requestedName body nServices = .ok name := by
  have hlen : 8 + subSize body.length 8 ≤ body.length := by
    rw [OpenFlow.subSize_of_le h]
    omega
  rw [requestedName]
  split
  · exact ⟨none,rfl⟩
  · simp only
    split
    · exact ⟨none,rfl⟩
    · rw [strncpy_inside hlen,ok_bind]
      exact ⟨_,rfl⟩

theorem findListCustom_total (list : List CString) (name : CString) : findListCustom list name = .error .aborted ∨
    (list ≠ [] ∧ findListCustom list name = .ok (list.findIdx? (· = name))) := by
  by_cases hne : list = []
  · rw [hne]
    exact .inl rfl
  · exact .inr ⟨hne,findListCustom_ok hne⟩

theorem entryAdd_inside (h : 8 ≤ body.length) :
    managementEventForwardEntryAdd list body nServices ≠ .error .outOfBounds := by
  obtain ⟨name,hname⟩ := requestedName_inside nServices h
  rw [managementEventForwardEntryAdd,hname,ok_bind]
  cases name with
  | none => simp [pure_eq_ok]
  | some name =>
    rcases findListCustom_total list name with hfind | ⟨_,hfind⟩
    · simp [hfind]
    · simp only [hfind,ok_bind]
      split <;> simp [pure_eq_ok]

theorem entryDelete_inside (h : 8 ≤ body.length) :
    managementEventForwardEntryDelete list body nServices ≠ .error .outOfBounds := by
  obtain ⟨name,hname⟩ := requestedName_inside nServices h
  rw [managementEventForwardEntryDelete,hname,ok_bind]
  cases name with
  | none => simp [pure_eq_ok]
  | some name =>
    rcases findListCustom_total list name with hfind | ⟨hne,hfind⟩
    · simp [hfind]
    · simp only [hfind,ok_bind]
      cases hi : list.findIdx? (· = name) with
      | none => simp [pure_eq_ok]
      | some i =>
        obtain ⟨hlt,_⟩ := List.findIdx?_eq_some_iff_findIdx_eq.mp hi
        simp only
        rw [deleteElement,if_neg hne,if_pos hlt,ok_bind]
        simp [abortIf,pure_eq_ok,ok_bind]

theorem entriesSet_zero (h : 8 ≤ body.length) : managementEventForwardEntriesSet body 0 =
    if 0 ∈ body.drop 8 then .error .outOfBounds else .ok [] := by
  have hslice : slice body (8 + 0) (body.length - 8) = body.drop 8 := by
    rw [slice,Nat.add_zero,List.take_of_length_le (by rw [List.length_drop])]
  rw [managementEventForwardEntriesSet,OpenFlow.subSize_of_le h,UInt32.toNat_zero,splitNames_none (by omega),hslice]
  by_cases hz : 0 ∈ body.drop 8
  · rw [if_pos hz,if_pos hz,error_bind]
  · rw [if_neg hz,if_neg hz,ok_bind]
    rfl

theorem entriesSet_inside (h : 8 ≤ body.length) : managementEventForwardEntriesSet body nServices ≠ .error .outOfBounds ↔
    nServices ≠ 0 ∨ 0 ∉ body.drop 8 := by
  by_cases hn : nServices = 0
  · rw [hn,entriesSet_zero h]
    split
    · rename_i hz
      simp [hz]
    · rename_i hz
      simp [hz]
  · have hpos : ([] : List Nat).length < nServices.toNat :=
      Nat.pos_of_ne_zero fun hz => hn (UInt32.toNat_inj.mp hz)
    have hlen : 8 + 0 + (body.length - 8) ≤ body.length := by omega
    obtain ⟨names,hsplit,hterm⟩ := splitNames_inside hlen (Nat.le_refl 8) hpos (by simp)
    obtain ⟨result,hset⟩ := appendNamed_inside [] hterm
    rw [managementEventForwardEntriesSet,OpenFlow.subSize_of_le h,hsplit,ok_bind,hset]
    simp [hn]

-- The request's type is known, and SET announces a name where its list ends one.
def SetFits (command : UInt32) (body : Bytes) : Prop :=
  command = eventForwardEntrySet → EventType.ofCode (hostByte body 0) ≠ none → be32 body 4 ≠ 0 ∨ 0 ∉ body.drop 8

theorem manipulate_inside (list : List CString) (nServices command : UInt32) (h : 8 ≤ body.length) :
    manipulate list body nServices command ≠ .error .outOfBounds ↔
    (command = eventForwardEntrySet → nServices ≠ 0 ∨ 0 ∉ body.drop 8) := by
  rw [manipulate]
  split
  · rename_i hadd
    refine iff_of_true (entryAdd_inside h) fun hset => ?_
    rw [hadd] at hset
    exact absurd hset (by decide)
  · split
    · rename_i hdelete
      refine iff_of_true (entryDelete_inside h) fun hset => ?_
      rw [hdelete] at hset
      exact absurd hset (by decide)
    · split
      · rename_i hset
        rw [entriesSet_inside h]
        exact ⟨fun hn _ => hn,fun hn => hn hset⟩
      · rename_i hset
        exact iff_of_true (by simp [pure_eq_ok]) fun hn => absurd hn hset

theorem operation_inside (h : 8 ≤ body.length) :
    managementEventForwardEntryOperation heap d command body (be32 body 4) ≠ .error .outOfBounds ↔
      SetFits command body := by
  rw [managementEventForwardEntryOperation,byteAt_inside (by omega),ok_bind,SetFits]
  cases ht : EventType.ofCode (hostByte body 0) with
  | none => simp [pure_eq_ok]
  | some t =>
    have hmanipulate := manipulate_inside (d.services.subject t) (be32 body 4) command h
    have hbind : (manipulate (d.services.subject t) body (be32 body 4) command >>= fun list =>
        createEventForwardOperationReply heap (hostByte body 0) EfiResult.succeeded.code list >>= fun buf =>
          (pure ({ d with services := d.services.withSubject list t },
            createManagementApplicationReply managementRequestSucceeded command buf.bytes) : Exec (Daemon × Bytes))) ≠
          .error .outOfBounds ↔ manipulate (d.services.subject t) body (be32 body 4) command ≠ .error .outOfBounds := by
      cases hresult : manipulate (d.services.subject t) body (be32 body 4) command with
      | error e => simp [error_bind]
      | ok list =>
        obtain ⟨buf,hcreate,_⟩ := createEventForwardOperationReply_spec heap (hostByte body 0)
          EfiResult.succeeded.code list
        simp [ok_bind,hcreate,pure_eq_ok]
    simp only [ne_eq,reduceCtorEq,not_false_eq_true,true_implies]
    exact hbind.trans hmanipulate

def Contained (heap : Nat → UInt8) (d : Daemon) (command : UInt32) (body : Bytes) : Prop :=
  managementRecv heap d command body ≠ .error .outOfBounds ∧
    (IsForward command → subSize body.length 8 + 8 = body.length)

theorem underflow_iff : subSize body.length 8 + 8 = body.length ↔ 8 ≤ body.length := by
  rw [subSize]
  split
  · omega
  · omega

theorem managementRecv_short (hf : IsForward command) (h : ¬ 8 ≤ body.length) :
    managementRecv heap d command body = .error .outOfBounds := by
  rw [managementRecv_forward hf,net32_eq_error.mpr ⟨by omega,rfl⟩]
  rfl

theorem managementRecv_other (hf : ¬ IsForward command) : managementRecv heap d command body ≠ .error .outOfBounds := by
  rw [managementRecv]
  split
  · simp [pure_eq_ok]
  · split
    · simp [pure_eq_ok]
    · simp [pure_eq_ok]

theorem event_forward_contained_iff : Contained heap d command body ↔
    (IsForward command → 8 ≤ body.length ∧ SetFits command body) := by
  rw [Contained,underflow_iff]
  by_cases hf : IsForward command
  · by_cases h : 8 ≤ body.length
    · rw [managementRecv_forward hf,net32_inside (by omega),ok_bind,operation_inside h]
      exact ⟨fun hc _ => ⟨h,hc.1⟩,fun hc => ⟨(hc hf).2,fun _ => h⟩⟩
    · exact iff_of_false (fun hc => hc.1 (managementRecv_short hf h)) fun hc => h (hc hf).1
  · exact iff_of_true ⟨managementRecv_other hf,fun h => absurd h hf⟩ fun h => absurd h hf

theorem event_forward_overruns : managementRecv (fun _ => 0) {} eventForwardEntryAdd [] = .error .outOfBounds ∧
    managementRecv (fun _ => 0) {} eventForwardEntrySet [1,0,0,0,0,0,0,0,97,0] = .error .outOfBounds :=
  ⟨rfl,rfl⟩

end Contained

end Trema.EventForward
