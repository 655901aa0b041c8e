import Mathlib.Data.List.Perm.Subperm
import Trema.Table.HashTable

namespace Trema.SwitchManager

open Table

variable {σ : Type}

-- `id` is the allocation the entry came from.
structure XidEntry (σ : Type) where
  xid : UInt32
  originalXid : UInt32
  serviceName : σ
  index : Nat
  id : Nat
deriving DecidableEq, Repr

-- `allocated` counts the entries allocated so far, `freed` lists those that have been freed.
structure XidTable (σ : Type) where
  entries : Nat → Option (XidEntry σ)
  hash : HashTable UInt32 (XidEntry σ)
  nextIndex : Nat
  allocated : Nat
  freed : List Nat

def xidMaxEntries : Nat := 4096

def initXidTable : XidTable σ := ⟨fun _ => none,createHash,0,0,[]⟩

namespace XidTable

variable (t : XidTable σ)

def setEntry (i : Nat) (e : Option (XidEntry σ)) : XidTable σ :=
  { t with entries := fun j => if j = i then e else t.entries j }

def freeXidEntry (e : XidEntry σ) : XidTable σ := { t with freed := e.id :: t.freed }

def lookupXidEntry (xid : UInt32) : Option (XidEntry σ) := lookupUint32 t.hash xid

def deleteXidEntry (e : XidEntry σ) : XidTable σ :=
  match deleteUint32 t.hash e.xid with
  | (none,hash) => { t with hash := hash }.freeXidEntry e
  | (some deleted,hash) => ({ t with hash := hash }.setEntry deleted.index none).freeXidEntry deleted

def emptySlot (i : Nat) : XidTable σ :=
  match t.entries i with
  | some e => t.deleteXidEntry e
  | none => t

-- What insert_xid_entry does before it calls generate_xid.
def emptyNextSlot : XidTable σ :=
  let t := if t.nextIndex ≥ xidMaxEntries then { t with nextIndex := 0 } else t
  t.emptySlot t.nextIndex

def allocateXidEntry (xid originalXid : UInt32) (serviceName : σ) (index : Nat) :
    XidEntry σ × XidTable σ :=
  (⟨xid,originalXid,serviceName,index,t.allocated⟩,{ t with allocated := t.allocated + 1 })

def replaceOld (old : Option (XidEntry σ)) : XidTable σ :=
  match old with
  | some old => (t.setEntry old.index none).freeXidEntry old
  | none => t

def storeXidEntry (xid originalXid : UInt32) (serviceName : σ) : XidTable σ :=
  let (newEntry,t) := t.allocateXidEntry xid originalXid serviceName t.nextIndex
  let (old,hash) := insertUint32 t.hash newEntry.xid newEntry
  let t := { t with hash := hash }.replaceOld old
  let t := t.setEntry t.nextIndex (some newEntry)
  { t with nextIndex := t.nextIndex + 1 }

-- `xid` is what generate_xid returns.
def insertXidEntry (xid originalXid : UInt32) (serviceName : σ) : XidTable σ :=
  t.emptyNextSlot.storeXidEntry xid originalXid serviceName

end XidTable

inductive XidEvent (σ : Type) where
  | insert (xid originalXid : UInt32) (serviceName : σ)
  | delete (xid : UInt32)
  | lookup (xid : UInt32)

namespace XidTable

def step (t : XidTable σ) : XidEvent σ → XidTable σ
  | .insert xid originalXid serviceName => t.insertXidEntry xid originalXid serviceName
  | .delete xid =>
    match t.lookupXidEntry xid with
    | some e => t.deleteXidEntry e
    | none => t
  | .lookup _ => t

def run : XidTable σ → List (XidEvent σ) → XidTable σ
  | t, [] => t
  | t, event :: events => run (t.step event) events

theorem run_append (t : XidTable σ) (a b : List (XidEvent σ)) : t.run (a ++ b) = (t.run a).run b := by
  induction a generalizing t with
  | nil => rfl
  | cons event a ih => exact ih (t.step event)

-- The slots and the hash table hold the same entries, none of them freed, and the entry of an allocation
-- goes to the slot that the number of the allocation says.
structure Consistent (t : XidTable σ) : Prop where
  valid : t.hash.ValidUint32
  slots : ∀ i e, t.entries i = some e ↔ t.lookupXidEntry e.xid = some e ∧ e.index = i
  keyed : ∀ xid e, t.lookupXidEntry xid = some e → e.xid = xid
  placed : ∀ xid e, t.lookupXidEntry xid = some e → e.index = e.id % xidMaxEntries
  recent : ∀ xid e, t.lookupXidEntry xid = some e → e.id < t.allocated ∧ t.allocated ≤ e.id + xidMaxEntries
  next : t.nextIndex ≤ xidMaxEntries ∧ t.nextIndex % xidMaxEntries = t.allocated % xidMaxEntries
  freedOnce : t.freed.Nodup
  freedOld : ∀ id ∈ t.freed, id < t.allocated
  unfreed : ∀ xid e, t.lookupXidEntry xid = some e → e.id ∉ t.freed

variable {t : XidTable σ}

theorem init_consistent : (initXidTable : XidTable σ).Consistent := by
  have hnone : ∀ xid, (initXidTable : XidTable σ).lookupXidEntry xid = none := fun _ => rfl
  refine ⟨createHash_valid _ _ _,?_,?_,?_,?_,⟨Nat.zero_le _,rfl⟩,.nil,?_,?_⟩
  · intro i e
    rw [hnone]
    simp [initXidTable]
  · intro xid e h
    simp [hnone] at h
  · intro xid e h
    simp [hnone] at h
  · intro xid e h
    simp [hnone] at h
  · intro id h
    simp [initXidTable] at h
  · intro xid e h
    simp [hnone] at h

namespace Consistent

-- Entries in the same slot are the same entry.
theorem same_slot (h : t.Consistent) {x y : UInt32} {a b : XidEntry σ} (ha : t.lookupXidEntry x = some a)
    (hb : t.lookupXidEntry y = some b) (hindex : a.index = b.index) : a = b := by
  have hslot : ∀ z c, t.lookupXidEntry z = some c → t.entries c.index = some c := by
    intro z c hc
    refine (h.slots _ _).mpr ⟨?_,rfl⟩
    rw [h.keyed z c hc]
    exact hc
  have hsame : some a = some b := by
    rw [← hslot x a ha,← hslot y b hb,hindex]
  exact Option.some.inj hsame

theorem same_id (h : t.Consistent) {x y : UInt32} {a b : XidEntry σ} (ha : t.lookupXidEntry x = some a)
    (hb : t.lookupXidEntry y = some b) (hid : a.id = b.id) : a = b := by
  refine h.same_slot ha hb ?_
  rw [h.placed x a ha,h.placed y b hb,hid]

end Consistent

section Deletion

variable {e : XidEntry σ}

theorem delete_eq (he : t.lookupXidEntry e.xid = some e) :
    t.deleteXidEntry e =
      ({ t with hash := (deleteUint32 t.hash e.xid).2 }.setEntry e.index none).freeXidEntry e := by
  have hfst : (deleteUint32 t.hash e.xid).1 = some e := (fst_deleteUint32 e.xid).trans he
  rw [deleteXidEntry]
  generalize deleteUint32 t.hash e.xid = deleted at hfst
  obtain ⟨old,hash⟩ := deleted
  subst hfst
  rfl

theorem lookup_delete (h : t.Consistent) (he : t.lookupXidEntry e.xid = some e) (xid : UInt32) :
    (t.deleteXidEntry e).lookupXidEntry xid = if xid = e.xid then none else t.lookupXidEntry xid := by
  rw [delete_eq he]
  exact lookup_deleteUint32 h.valid e.xid xid

theorem lookup_delete_iff (h : t.Consistent) (he : t.lookupXidEntry e.xid = some e) {xid : UInt32}
    {a : XidEntry σ} :
    (t.deleteXidEntry e).lookupXidEntry xid = some a ↔ t.lookupXidEntry xid = some a ∧ a ≠ e := by
  rw [lookup_delete h he]
  split
  · rename_i hxid
    rw [hxid,he]
    constructor
    · intro hnone
      exact absurd hnone (by simp)
    · rintro ⟨hsome,hne⟩
      exact absurd (Option.some.inj hsome).symm hne
  · rename_i hxid
    constructor
    · intro ha
      refine ⟨ha,?_⟩
      rintro rfl
      exact hxid (h.keyed xid a ha).symm
    · exact And.left

theorem entries_delete (he : t.lookupXidEntry e.xid = some e) (i : Nat) :
    (t.deleteXidEntry e).entries i = if i = e.index then none else t.entries i := by
  rw [delete_eq he]
  rfl

theorem Consistent.delete (h : t.Consistent) (he : t.lookupXidEntry e.xid = some e) :
    (t.deleteXidEntry e).Consistent := by
  have hlive : ∀ xid a, (t.deleteXidEntry e).lookupXidEntry xid = some a → t.lookupXidEntry xid = some a :=
    fun xid a ha => ((lookup_delete_iff h he).mp ha).1
  have hallocated : (t.deleteXidEntry e).allocated = t.allocated := by rw [delete_eq he]; rfl
  have hnext : (t.deleteXidEntry e).nextIndex = t.nextIndex := by rw [delete_eq he]; rfl
  have hfreed : (t.deleteXidEntry e).freed = e.id :: t.freed := by rw [delete_eq he]; rfl
  refine ⟨?_,?_,fun xid a ha => h.keyed xid a (hlive xid a ha),
    fun xid a ha => h.placed xid a (hlive xid a ha),?_,?_,?_,?_,?_⟩
  · rw [delete_eq he]
    exact deleteUint32_valid h.valid e.xid
  · intro i a
    rw [entries_delete he,lookup_delete_iff h he]
    constructor
    · intro ha
      split at ha
      · exact absurd ha (by simp)
      · rename_i hi
        obtain ⟨hlook,hindex⟩ := (h.slots i a).mp ha
        refine ⟨⟨hlook,?_⟩,hindex⟩
        rintro rfl
        exact hi hindex.symm
    · rintro ⟨⟨hlook,hne⟩,rfl⟩
      rw [if_neg (fun hindex => hne (h.same_slot hlook he hindex))]
      exact (h.slots _ a).mpr ⟨hlook,rfl⟩
  · intro xid a ha
    rw [hallocated]
    exact h.recent xid a (hlive xid a ha)
  · rw [hnext,hallocated]
    exact h.next
  · rw [hfreed]
    exact List.nodup_cons.mpr ⟨h.unfreed _ e he,h.freedOnce⟩
  · intro id hid
    rw [hfreed] at hid
    rw [hallocated]
    rcases List.mem_cons.mp hid with rfl | hid
    · exact (h.recent _ e he).1
    · exact h.freedOld id hid
  · intro xid a ha hid
    rw [hfreed] at hid
    obtain ⟨hlook,hne⟩ := (lookup_delete_iff h he).mp ha
    rcases List.mem_cons.mp hid with hid | hid
    · exact hne (h.same_id hlook he hid)
    · exact h.unfreed xid a hlook hid

end Deletion

section Insertion

-- The next slot is empty, and is the one that the next allocation belongs to.
structure Ready (t : XidTable σ) : Prop where
  consistent : t.Consistent
  next : t.nextIndex = t.allocated % xidMaxEntries
  empty : ∀ xid e, t.lookupXidEntry xid = some e → e.index ≠ t.nextIndex

theorem Consistent.rewind (h : t.Consistent) (hnext : t.nextIndex ≥ xidMaxEntries) :
    { t with nextIndex := 0 }.Consistent := by
  refine ⟨h.valid,h.slots,h.keyed,h.placed,h.recent,⟨Nat.zero_le _,?_⟩,h.freedOnce,h.freedOld,h.unfreed⟩
  rw [← h.next.2,Nat.le_antisymm h.next.1 hnext,Nat.mod_self]
  rfl

theorem Consistent.emptied (h : t.Consistent) (hnext : t.nextIndex < xidMaxEntries) :
    (t.emptySlot t.nextIndex).Ready ∧ (t.emptySlot t.nextIndex).allocated = t.allocated ∧
      ∀ xid e, (t.emptySlot t.nextIndex).lookupXidEntry xid = some e ↔
        t.lookupXidEntry xid = some e ∧ e.index ≠ t.allocated % xidMaxEntries := by
  have hslot : t.nextIndex = t.allocated % xidMaxEntries := by
    rw [← h.next.2,Nat.mod_eq_of_lt hnext]
  cases hentry : t.entries t.nextIndex with
  | none =>
    have hempty : ∀ xid e, t.lookupXidEntry xid = some e → e.index ≠ t.nextIndex := by
      intro xid e he hindex
      have hsome := (h.slots t.nextIndex e).mpr ⟨by rw [h.keyed xid e he]; exact he,hindex⟩
      rw [hentry] at hsome
      exact absurd hsome (by simp)
    rw [emptySlot,hentry]
    refine ⟨⟨h,hslot,hempty⟩,rfl,fun xid e => ⟨fun he => ⟨he,?_⟩,And.left⟩⟩
    rw [← hslot]
    exact hempty xid e he
  | some a =>
    obtain ⟨ha,hindex⟩ := (h.slots _ a).mp hentry
    have hallocated : (t.deleteXidEntry a).allocated = t.allocated := by rw [delete_eq ha]; rfl
    have hnextIndex : (t.deleteXidEntry a).nextIndex = t.nextIndex := by rw [delete_eq ha]; rfl
    have hother : ∀ xid e, t.lookupXidEntry xid = some e → (e ≠ a ↔ e.index ≠ t.nextIndex) := by
      intro xid e he
      refine not_congr ⟨?_,?_⟩
      · rintro rfl
        exact hindex
      · intro hsame
        exact h.same_slot he ha (hsame.trans hindex.symm)
    rw [emptySlot,hentry]
    refine ⟨⟨h.delete ha,?_,?_⟩,hallocated,?_⟩
    · rw [hnextIndex,hallocated,hslot]
    · intro xid e he
      rw [hnextIndex]
      obtain ⟨hlook,hne⟩ := (lookup_delete_iff h ha).mp he
      exact (hother xid e hlook).mp hne
    · intro xid e
      rw [lookup_delete_iff h ha,← hslot]
      exact and_congr_right fun hlook => hother xid e hlook

theorem emptyNextSlot_spec (h : t.Consistent) :
    t.emptyNextSlot.Ready ∧ t.emptyNextSlot.allocated = t.allocated ∧
      ∀ xid e, t.emptyNextSlot.lookupXidEntry xid = some e ↔
        t.lookupXidEntry xid = some e ∧ e.index ≠ t.allocated % xidMaxEntries := by
  rw [emptyNextSlot]
  by_cases hnext : t.nextIndex ≥ xidMaxEntries
  · rw [if_pos hnext]
    exact (h.rewind hnext).emptied (Nat.zero_lt_succ _)
  · rw [if_neg hnext]
    exact h.emptied (Nat.lt_of_not_le hnext)

section Replacement

variable (t) (old : Option (XidEntry σ))

@[simp] theorem hash_replaceOld : (t.replaceOld old).hash = t.hash := by cases old <;> rfl

@[simp] theorem nextIndex_replaceOld : (t.replaceOld old).nextIndex = t.nextIndex := by cases old <;> rfl

@[simp] theorem allocated_replaceOld : (t.replaceOld old).allocated = t.allocated := by cases old <;> rfl

end Replacement

variable (t) in
-- The entry that the next allocation gives.
def newXidEntry (xid originalXid : UInt32) (serviceName : σ) : XidEntry σ :=
  ⟨xid,originalXid,serviceName,t.nextIndex,t.allocated⟩

variable {xid originalXid : UInt32} {serviceName : σ}

theorem lookup_store (h : t.Consistent) (xid' : UInt32) :
    (t.storeXidEntry xid originalXid serviceName).lookupXidEntry xid' =
      if xid' = xid then some (t.newXidEntry xid originalXid serviceName) else t.lookupXidEntry xid' := by
  have hhash : (t.storeXidEntry xid originalXid serviceName).hash =
      (insertUint32 t.hash xid (t.newXidEntry xid originalXid serviceName)).2 := by
    simp [storeXidEntry,allocateXidEntry,newXidEntry,setEntry]
  rw [lookupXidEntry,hhash]
  exact lookup_insertUint32 h.valid xid xid' _

theorem allocated_store : (t.storeXidEntry xid originalXid serviceName).allocated = t.allocated + 1 := by
  simp [storeXidEntry,allocateXidEntry,setEntry]

theorem nextIndex_store : (t.storeXidEntry xid originalXid serviceName).nextIndex = t.nextIndex + 1 := by
  simp [storeXidEntry,allocateXidEntry,setEntry]

theorem entries_store (i : Nat) :
    (t.storeXidEntry xid originalXid serviceName).entries i =
      if i = t.nextIndex then some (t.newXidEntry xid originalXid serviceName)
      else if (t.lookupXidEntry xid).map XidEntry.index = some i then none else t.entries i := by
  have hold : (insertUint32 t.hash xid (t.newXidEntry xid originalXid serviceName)).1 = t.lookupXidEntry xid :=
    fst_insertUint32 xid _
  simp only [storeXidEntry,allocateXidEntry,setEntry,nextIndex_replaceOld]
  split
  · rfl
  · rw [newXidEntry] at hold
    rw [hold]
    cases t.lookupXidEntry xid with
    | none => rfl
    | some old => simp [replaceOld,setEntry,freeXidEntry,eq_comm]

theorem freed_store :
    (t.storeXidEntry xid originalXid serviceName).freed =
      (t.lookupXidEntry xid).elim t.freed fun old => old.id :: t.freed := by
  have hold : (insertUint32 t.hash xid (t.newXidEntry xid originalXid serviceName)).1 = t.lookupXidEntry xid :=
    fst_insertUint32 xid _
  simp only [storeXidEntry,allocateXidEntry,setEntry]
  rw [newXidEntry] at hold
  rw [hold]
  cases t.lookupXidEntry xid <;> rfl

theorem lookup_store_iff (h : t.Consistent) {xid' : UInt32} {e : XidEntry σ} :
    (t.storeXidEntry xid originalXid serviceName).lookupXidEntry xid' = some e ↔
      xid' = xid ∧ e = t.newXidEntry xid originalXid serviceName ∨
      xid' ≠ xid ∧ t.lookupXidEntry xid' = some e := by
  rw [lookup_store h]
  split
  · rename_i hxid
    simp [hxid,eq_comm]
  · rename_i hxid
    simp [hxid]

theorem Ready.fresh_id (h : t.Ready) {xid' : UInt32} {e : XidEntry σ}
    (he : t.lookupXidEntry xid' = some e) : e.id ≠ t.allocated :=
  Nat.ne_of_lt (h.consistent.recent xid' e he).1

-- An entry that is still there after the next slot has been emptied is younger than the ring is long.
theorem Ready.recent (h : t.Ready) {xid' : UInt32} {e : XidEntry σ} (he : t.lookupXidEntry xid' = some e) :
    t.allocated < e.id + xidMaxEntries := by
  refine Nat.lt_of_le_of_ne (h.consistent.recent xid' e he).2 fun heq => h.empty xid' e he ?_
  rw [h.consistent.placed xid' e he,h.next,heq,Nat.add_mod_right]

theorem Ready.slots (h : t.Ready) (i : Nat) (e : XidEntry σ) :
    (t.storeXidEntry xid originalXid serviceName).entries i = some e ↔
      (t.storeXidEntry xid originalXid serviceName).lookupXidEntry e.xid = some e ∧ e.index = i := by
  rw [entries_store,lookup_store_iff h.consistent]
  by_cases hi : i = t.nextIndex
  · rw [if_pos hi]
    constructor
    · intro he
      obtain rfl := Option.some.inj he
      exact ⟨.inl ⟨rfl,rfl⟩,hi.symm⟩
    · rintro ⟨⟨_,rfl⟩ | ⟨_,he⟩,hindex⟩
      · rfl
      · exact absurd (hindex.trans hi) (h.empty _ e he)
  · rw [if_neg hi]
    constructor
    · intro he
      split at he
      · exact absurd he (by simp)
      · rename_i hkept
        obtain ⟨hlook,hindex⟩ := (h.consistent.slots i e).mp he
        refine ⟨.inr ⟨?_,hlook⟩,hindex⟩
        intro hxid
        rw [hxid] at hlook
        exact hkept (by rw [hlook,Option.map_some,hindex])
    · rintro ⟨⟨_,rfl⟩ | ⟨hxid,hlook⟩,hindex⟩
      · exact absurd hindex.symm hi
      · rw [if_neg]
        · exact (h.consistent.slots i e).mpr ⟨hlook,hindex⟩
        · intro hold
          obtain ⟨old,hsome,hslot⟩ := Option.map_eq_some_iff.mp hold
          rw [h.consistent.same_slot hlook hsome (hindex.trans hslot.symm)] at hxid
          exact hxid (h.consistent.keyed xid old hsome)

theorem freed_sub {id : Nat}
    (hid : id ∈ (t.storeXidEntry xid originalXid serviceName).freed) :
    id ∈ t.freed ∨ ∃ old, t.lookupXidEntry xid = some old ∧ id = old.id := by
  rw [freed_store] at hid
  cases hold : t.lookupXidEntry xid with
  | none =>
    rw [hold] at hid
    exact .inl hid
  | some old =>
    rw [hold] at hid
    rcases List.mem_cons.mp hid with rfl | hid
    · exact .inr ⟨old,rfl,rfl⟩
    · exact .inl hid

theorem Ready.store (h : t.Ready) : (t.storeXidEntry xid originalXid serviceName).Consistent := by
  have hc := h.consistent
  refine ⟨?_,h.slots,?_,?_,?_,?_,?_,?_,?_⟩
  · have hhash : (t.storeXidEntry xid originalXid serviceName).hash =
        (insertUint32 t.hash xid (t.newXidEntry xid originalXid serviceName)).2 := by
      simp [storeXidEntry,allocateXidEntry,newXidEntry,setEntry]
    rw [hhash]
    exact insertUint32_valid hc.valid _ _
  · intro xid' e he
    rcases (lookup_store_iff hc).mp he with ⟨rfl,rfl⟩ | ⟨_,he⟩
    · rfl
    · exact hc.keyed xid' e he
  · intro xid' e he
    rcases (lookup_store_iff hc).mp he with ⟨_,rfl⟩ | ⟨_,he⟩
    · exact h.next
    · exact hc.placed xid' e he
  · intro xid' e he
    rw [allocated_store]
    rcases (lookup_store_iff hc).mp he with ⟨_,rfl⟩ | ⟨_,he⟩
    · exact ⟨Nat.lt_succ_self _,Nat.add_le_add_left (by decide) _⟩
    · exact ⟨Nat.lt_succ_of_lt (hc.recent xid' e he).1,h.recent he⟩
  · rw [nextIndex_store,allocated_store,h.next]
    exact ⟨Nat.mod_lt _ (by decide),by rw [Nat.mod_add_mod]⟩
  · rw [freed_store]
    cases hold : t.lookupXidEntry xid with
    | none => exact hc.freedOnce
    | some old => exact List.nodup_cons.mpr ⟨hc.unfreed xid old hold,hc.freedOnce⟩
  · intro id hid
    rw [allocated_store]
    rcases freed_sub hid with hid | ⟨old,hold,rfl⟩
    · exact Nat.lt_succ_of_lt (hc.freedOld id hid)
    · exact Nat.lt_succ_of_lt (hc.recent xid old hold).1
  · intro xid' e he hid
    rcases freed_sub hid with hid | ⟨old,hold,hid⟩
    · rcases (lookup_store_iff hc).mp he with ⟨_,rfl⟩ | ⟨_,he⟩
      · exact absurd (hc.freedOld _ hid) (Nat.lt_irrefl _)
      · exact hc.unfreed xid' e he hid
    · rcases (lookup_store_iff hc).mp he with ⟨_,rfl⟩ | ⟨hxid,he⟩
      · exact h.fresh_id hold hid.symm
      · rw [hc.same_id he hold hid] at he
        exact hxid ((hc.keyed xid' old he).symm.trans (hc.keyed xid old hold))

end Insertion

section Steps

variable {xid originalXid : UInt32} {serviceName : σ}

theorem Consistent.insert (h : t.Consistent) : (t.insertXidEntry xid originalXid serviceName).Consistent :=
  (emptyNextSlot_spec h).1.store

theorem allocated_insert (h : t.Consistent) :
    (t.insertXidEntry xid originalXid serviceName).allocated = t.allocated + 1 := by
  rw [insertXidEntry,allocated_store,(emptyNextSlot_spec h).2.1]

theorem lookup_insert_iff (h : t.Consistent) {xid' : UInt32} {e : XidEntry σ} :
    (t.insertXidEntry xid originalXid serviceName).lookupXidEntry xid' = some e ↔
      xid' = xid ∧ e = ⟨xid,originalXid,serviceName,t.allocated % xidMaxEntries,t.allocated⟩ ∨
      xid' ≠ xid ∧ t.lookupXidEntry xid' = some e ∧ e.index ≠ t.allocated % xidMaxEntries := by
  obtain ⟨hready,hallocated,hlook⟩ := emptyNextSlot_spec h
  rw [insertXidEntry,lookup_store_iff hready.consistent,hlook,newXidEntry,hready.next,hallocated]

theorem Consistent.step (h : t.Consistent) (event : XidEvent σ) : (t.step event).Consistent := by
  cases event with
  | insert xid originalXid serviceName => exact h.insert
  | delete xid =>
    rw [XidTable.step]
    cases he : t.lookupXidEntry xid with
    | none => exact h
    | some e =>
      refine h.delete ?_
      rw [h.keyed xid e he]
      exact he
  | lookup xid => exact h

theorem Consistent.run (h : t.Consistent) (events : List (XidEvent σ)) : (t.run events).Consistent := by
  induction events generalizing t with
  | nil => exact h
  | cons event events ih => exact ih (h.step event)

-- The live entries sit in different slots.
theorem Consistent.length_le (h : t.Consistent) : (foreachHash t.hash).length ≤ xidMaxEntries := by
  have hlive : ∀ p ∈ foreachHash t.hash, t.lookupXidEntry p.1 = some p.2 :=
    fun p hp => lookup_of_mem h.valid hp
  have hslots : ((foreachHash t.hash).map fun p => p.2.index).Nodup := by
    have hkeys := List.pairwise_map.mp (keys_nodup h.valid)
    refine List.pairwise_map.mpr (hkeys.imp_of_mem fun ha hb hne hindex => hne ?_)
    have hsame := h.same_slot (hlive _ ha) (hlive _ hb) hindex
    rw [← h.keyed _ _ (hlive _ ha),← h.keyed _ _ (hlive _ hb),hsame]
  have hrange : ((foreachHash t.hash).map fun p => p.2.index) ⊆ List.range xidMaxEntries := by
    intro i hi
    obtain ⟨p,hp,rfl⟩ := List.mem_map.mp hi
    rw [List.mem_range,h.placed _ _ (hlive p hp)]
    exact Nat.mod_lt _ (by decide)
  have hle := (List.subperm_of_subset hslots hrange).length_le
  rwa [List.length_map,List.length_range] at hle

end Steps

end XidTable

end Trema.SwitchManager
