import Trema.EventForward.Entries

namespace Trema.EventForward

open Library
open Management (managementRequestSucceeded)
open OpenFlow (Exec abortIf subSize)
open PacketinFilter (CString)
open Table (appendToTail)

inductive EntryCommand where
  | add
  | delete
  | set
deriving DecidableEq

def EntryCommand.code : EntryCommand → UInt32
  | .add => eventForwardEntryAdd
  | .delete => eventForwardEntryDelete
  | .set => eventForwardEntrySet

structure EntryRequest where
  command : EntryCommand
  type : EventType
  names : List CString
  body : Bytes
  wellFormed : WellFormed type names body
  single : command ≠ .set → names.length = 1

def withName (list : List CString) (name : CString) : List CString :=
  if name ∈ list then list else appendToTail list name

def entriesAfter (names list : List CString) : EntryCommand → List CString
  | .add => names.foldl withName list
  | .delete => list.filter (· ∉ names)
  | .set => names.foldl withName []

section Lists

variable {names list : List CString} {name : CString}

theorem nodup_withName (h : list.Nodup) : (withName list name).Nodup := by
  rw [withName]
  split
  · exact h
  · rename_i hn
    exact List.nodup_append.mpr ⟨h,List.nodup_singleton _,fun x hx y hy => by
      rintro rfl
      exact hn (List.mem_singleton.mp hy ▸ hx)⟩

theorem nodup_foldl_withName (h : list.Nodup) : (names.foldl withName list).Nodup := by
  induction names generalizing list with
  | nil => exact h
  | cons s names ih => exact ih (nodup_withName h)

theorem foldl_withName (h : (list ++ names).Nodup) : names.foldl withName list = list ++ names := by
  induction names generalizing list with
  | nil => simp
  | cons s names ih =>
    have hs : s ∉ list := fun hmem => (List.nodup_append.mp h).2.2 s hmem s (by simp) rfl
    have hnext : (appendToTail list s ++ names).Nodup := by simpa [appendToTail] using h
    rw [List.foldl_cons,withName,if_neg hs,ih hnext]
    simp [appendToTail]

theorem nodup_entriesAfter (h : list.Nodup) (command : EntryCommand) : (entriesAfter names list command).Nodup := by
  cases command with
  | add => exact nodup_foldl_withName h
  | delete => exact h.filter _
  | set => exact nodup_foldl_withName List.nodup_nil

end Lists

def ServiceLists.Distinct (s : ServiceLists) : Prop := ∀ t, (s.subject t).Nodup

theorem ServiceLists.Distinct.withSubject {s : ServiceLists} (h : s.Distinct) {list : List CString} (hl : list.Nodup)
    (t : EventType) : (s.withSubject list t).Distinct := by
  intro u
  by_cases hu : u = t
  · rw [hu,subject_withSubject]
    exact hl
  · rw [subject_withSubject_ne _ _ hu]
    exact h u

section Steps

variable {heap : Nat → UInt8} {d : Daemon} {r : EntryRequest}

-- ADD and DELETE meet a list that is not empty, and SET names no service twice.
def EntryRequest.Met (r : EntryRequest) (s : ServiceLists) : Prop :=
  (r.command ≠ .set → s.subject r.type ≠ []) ∧ (r.command = .set → r.names.Nodup)

def EntryRequest.after (r : EntryRequest) (s : ServiceLists) : ServiceLists :=
  s.withSubject (entriesAfter r.names (s.subject r.type) r.command) r.type

theorem ServiceLists.Distinct.after {s : ServiceLists} (h : s.Distinct) (r : EntryRequest) : (r.after s).Distinct :=
  h.withSubject (nodup_entriesAfter (h r.type) r.command) r.type

theorem manipulate_met (hd : (d.services.subject r.type).Nodup) (h : r.Met d.services) :
    manipulate (d.services.subject r.type) r.body (UInt32.ofNat r.names.length) r.command.code =
      .ok (entriesAfter r.names (d.services.subject r.type) r.command) := by
  obtain ⟨command,type,names,body,hform,hsingle⟩ := r
  cases command with
  | add =>
    obtain ⟨s,rfl⟩ := List.length_eq_one_iff.mp (hsingle (by decide))
    exact entryAdd_wellFormed hform (h.1 (by simp))
  | delete =>
    obtain ⟨s,rfl⟩ := List.length_eq_one_iff.mp (hsingle (by decide))
    refine (entryDelete_wellFormed hform (h.1 (by simp))).trans ?_
    rw [hd.erase_eq_filter,entriesAfter]
    refine congrArg Except.ok (List.filter_congr fun x _ => ?_)
    simp
    rfl
  | set =>
    refine (entriesSet_wellFormed hform).trans ?_
    rw [entriesAfter,foldl_withName (by simpa using h.2 rfl),List.nil_append]

theorem ofCode_code (t : EventType) : EventType.ofCode t.code = some t := by
  cases t <;> rfl

theorem managementRecv_forward {command : UInt32} (h : IsForward command) (data : Bytes) :
    managementRecv heap d command data =
      ((net32 data 4 : Exec UInt32) >>= managementEventForwardEntryOperation heap d command data) := by
  rcases h with rfl | rfl | rfl | rfl <;> rfl

theorem EntryCommand.forward (command : EntryCommand) : IsForward command.code := by
  cases command <;> decide

theorem managementRecv_entry (r : EntryRequest) : managementRecv heap d r.command.code r.body =
    managementEventForwardEntryOperation heap d r.command.code r.body (UInt32.ofNat r.names.length) := by
  rw [managementRecv_forward r.command.forward,r.wellFormed.nServices,ok_bind]

theorem managementRecv_of_manipulate {d : Daemon} {r : EntryRequest} {list : List CString}
    (hm : manipulate (d.services.subject r.type) r.body (UInt32.ofNat r.names.length) r.command.code = .ok list) : managementRecv heap d r.command.code r.body =
      .ok ({ d with services := d.services.withSubject list r.type },
        createManagementApplicationReply managementRequestSucceeded r.command.code
          (operationImage r.type.code EfiResult.succeeded.code list)) := by
  obtain ⟨buf,hcreate,_,hbytes⟩ := createEventForwardOperationReply_spec heap r.type.code EfiResult.succeeded.code list
  rw [managementRecv_entry,managementEventForwardEntryOperation,r.wellFormed.type,ok_bind,ofCode_code]
  simp only [hm,ok_bind,hcreate,hbytes]
  rfl

theorem managementRecv_met (heap : Nat → UInt8) (hd : d.services.Distinct) (h : r.Met d.services) : ∃ d' reply,
    managementRecv heap d r.command.code r.body = .ok (d',reply) ∧ d'.services = r.after d.services ∧
      d'.services.Distinct :=
  ⟨_,_,managementRecv_of_manipulate (manipulate_met (hd r.type) h),rfl,hd.after r⟩

theorem manipulate_unmet (h : ¬ r.Met d.services) :
    manipulate (d.services.subject r.type) r.body (UInt32.ofNat r.names.length) r.command.code = .error .aborted ∨
      (r.command = .set ∧ ¬ r.names.Nodup ∧ manipulate (d.services.subject r.type) r.body
        (UInt32.ofNat r.names.length) r.command.code = .ok r.names) := by
  obtain ⟨command,type,names,body,hform,hsingle⟩ := r
  cases command with
  | add =>
    obtain ⟨s,rfl⟩ := List.length_eq_one_iff.mp (hsingle (by decide))
    have hnil : d.services.subject type = [] := by
      by_contra hne
      exact h ⟨fun _ => hne,by simp⟩
    left
    simp only [hnil]
    refine (?_ : managementEventForwardEntryAdd [] body (UInt32.ofNat [s].length) = _)
    rw [managementEventForwardEntryAdd,hform.requestedName,ok_bind]
    rfl
  | delete =>
    obtain ⟨s,rfl⟩ := List.length_eq_one_iff.mp (hsingle (by decide))
    have hnil : d.services.subject type = [] := by
      by_contra hne
      exact h ⟨fun _ => hne,by simp⟩
    left
    simp only [hnil]
    refine (?_ : managementEventForwardEntryDelete [] body (UInt32.ofNat [s].length) = _)
    rw [managementEventForwardEntryDelete,hform.requestedName,ok_bind]
    rfl
  | set =>
    refine .inr ⟨rfl,fun hn => h ⟨by simp,fun _ => hn⟩,entriesSet_wellFormed hform⟩

theorem managementRecv_met_iff (hd : d.services.Distinct) : (∃ d' reply,
    managementRecv heap d r.command.code r.body = .ok (d',reply) ∧ d'.services = r.after d.services) ↔
      r.Met d.services := by
  constructor
  · rintro ⟨d',reply,hrecv,hafter⟩
    by_contra hmet
    rcases manipulate_unmet hmet with habort | ⟨hset,hrepeat,hnames⟩
    · rw [managementRecv_entry,managementEventForwardEntryOperation,r.wellFormed.type,ok_bind,ofCode_code] at hrecv
      simp only [habort] at hrecv
      exact absurd hrecv (by intro h; cases h)
    · rw [managementRecv_of_manipulate hnames] at hrecv
      injection hrecv with hrecv
      injection hrecv with hd' _
      refine hrepeat ?_
      have hsubject := congrArg (ServiceLists.subject · r.type) hafter
      rw [← hd',EntryRequest.after] at hsubject
      simp only [ServiceLists.subject_withSubject] at hsubject
      rw [hsubject,hset]
      exact nodup_entriesAfter (hd r.type) .set
  · intro h
    obtain ⟨d',reply,hrecv,hafter,_⟩ := managementRecv_met heap hd h
    exact ⟨d',reply,hrecv,hafter⟩

end Steps

section Runs

variable (heap : Nat → UInt8)

def EntriesKept : Daemon → List EntryRequest → Prop
  | _, [] => True
  | d, r :: requests => ∃ d' reply, managementRecv heap d r.command.code r.body = .ok (d',reply) ∧
      d'.services = r.after d.services ∧ d'.services.Distinct ∧ EntriesKept d' requests

def EntriesMet : Daemon → List EntryRequest → Prop
  | _, [] => True
  | d, r :: requests => r.Met d.services ∧
      ∀ d' reply, managementRecv heap d r.command.code r.body = .ok (d',reply) → EntriesMet d' requests

-- Each request does what it asks for exactly where its condition holds, in a run as in a single step.
theorem forward_entries_kept {d : Daemon} {requests : List EntryRequest} (hd : d.services.Distinct) :
    EntriesKept heap d requests ↔ EntriesMet heap d requests := by
  induction requests generalizing d with
  | nil => exact Iff.rfl
  | cons r requests ih =>
    constructor
    · rintro ⟨d',reply,hrecv,hafter,hdistinct,hrest⟩
      refine ⟨(managementRecv_met_iff hd).mp ⟨d',reply,hrecv,hafter⟩,?_⟩
      intro d'' reply' hrecv'
      obtain ⟨rfl,_⟩ := Prod.mk.inj (Except.ok.inj (hrecv.symm.trans hrecv'))
      exact (ih hdistinct).mp hrest
    · rintro ⟨hmet,hrest⟩
      obtain ⟨d',reply,hrecv,hafter,hdistinct⟩ := managementRecv_met heap hd hmet
      exact ⟨d',reply,hrecv,hafter,hdistinct,(ih hdistinct).mpr (hrest d' reply hrecv)⟩

theorem EntriesMet.cons {heap : Nat → UInt8} {d : Daemon} {r : EntryRequest} {requests : List EntryRequest}
    (hd : d.services.Distinct) (hmet : r.Met d.services)
    (hrest : EntriesMet heap { d with services := r.after d.services } requests) :
    EntriesMet heap d (r :: requests) := by
  refine ⟨hmet,?_⟩
  intro d' reply hrecv
  rw [managementRecv_of_manipulate (manipulate_met (hd r.type) hmet)] at hrecv
  obtain ⟨rfl,_⟩ := Prod.mk.inj (Except.ok.inj hrecv)
  exact hrest

def firstApp : CString := ⟨[97],by simp⟩

def secondApp : CString := ⟨[98],by simp⟩

def addFirst : EntryRequest where
  command := .add
  type := .packetIn
  names := [firstApp]
  body := [1,0,0,0,0,0,0,1,97,0]
  wellFormed := ⟨⟨[0,0,0],rfl,rfl⟩,by decide,by simp [firstApp]⟩
  single := fun _ => rfl

def setTwice : EntryRequest where
  command := .set
  type := .packetIn
  names := [firstApp,firstApp]
  body := [1,0,0,0,0,0,0,2,97,0,97,0]
  wellFormed := ⟨⟨[0,0,0],rfl,rfl⟩,by decide,by simp [firstApp]⟩
  single := fun h => absurd rfl h

def setBoth : EntryRequest where
  command := .set
  type := .packetIn
  names := [firstApp,secondApp]
  body := [1,0,0,0,0,0,0,2,97,0,98,0]
  wellFormed := ⟨⟨[0,0,0],rfl,rfl⟩,by decide,by simp [firstApp,secondApp]⟩
  single := fun h => absurd rfl h

def deleteFirst : EntryRequest where
  command := .delete
  type := .packetIn
  names := [firstApp]
  body := [1,0,0,0,0,0,0,1,97,0]
  wellFormed := addFirst.wellFormed
  single := fun _ => rfl

theorem forward_entries_kept_three : EntriesKept (fun _ => 0) {} [setBoth,deleteFirst,addFirst] := by
  have hd : ({} : Daemon).services.Distinct := by
    intro t
    cases t <;> exact List.nodup_nil
  have hset : setBoth.Met ({} : Daemon).services := ⟨fun h => absurd rfl h,fun _ => by decide⟩
  have hdelete : deleteFirst.Met (setBoth.after ({} : Daemon).services) :=
    ⟨fun _ => List.cons_ne_nil _ _,fun h => absurd h (by decide)⟩
  have hadd : addFirst.Met (deleteFirst.after (setBoth.after ({} : Daemon).services)) :=
    ⟨fun _ => by decide,fun h => absurd h (by decide)⟩
  refine (forward_entries_kept (fun _ => 0) hd).mpr (.cons hd hset (.cons (hd.after setBoth) hdelete ?_))
  exact .cons ((hd.after setBoth).after deleteFirst) hadd trivial

theorem forward_entries_lost : managementRecv (fun _ => 0) {} eventForwardEntryAdd addFirst.body = .error .aborted ∧
    ∃ d reply, managementRecv (fun _ => 0) {} eventForwardEntrySet setTwice.body = .ok (d,reply) ∧
      d.services.packetin = [firstApp,firstApp] :=
  ⟨rfl,_,_,@managementRecv_of_manipulate (fun _ => 0) {} setTwice [firstApp,firstApp] rfl,rfl⟩

end Runs

end Trema.EventForward
