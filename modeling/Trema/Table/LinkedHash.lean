import Trema.Library.Chain
import Trema.Table.HashTable

namespace Trema.Table

open Library

variable {κ ν : Type}

-- The data of the header of a bucket's list is the element of the bucket in the index list.
structure Bucket (κ ν : Type) where
  data : Option Nat
  elements : Chain (κ × ν)

structure LinkedTable (κ ν : Type) where
  numberOfBuckets : UInt32
  length : UInt32
  buckets : Nat → Option (Bucket κ ν)
  nonemptyBucketIndex : Chain Nat
  allocated : Nat

namespace LinkedTable

def createHashWithSize (size : UInt32) : LinkedTable κ ν := ⟨size,0,fun _ => none,[],0⟩

def createHash : LinkedTable κ ν := createHashWithSize 65521

def setBucket (t : LinkedTable κ ν) (i : Nat) (bucket : Option (Bucket κ ν)) : LinkedTable κ ν :=
  { t with buckets := fun j => if j = i then bucket else t.buckets j }

def newBucket (t : LinkedTable κ ν) (i : Nat) : LinkedTable κ ν :=
  { setBucket t i (some ⟨some t.allocated,[]⟩) with
    nonemptyBucketIndex := (t.allocated,i) :: t.nonemptyBucketIndex
    allocated := t.allocated + 1 }

def deleteBucket (t : LinkedTable κ ν) (i : Nat) : LinkedTable κ ν :=
  match t.buckets i with
  | none => t
  | some bucket =>
    let index := match bucket.data with
      | none => t.nonemptyBucketIndex
      | some element => Chain.unlink t.nonemptyBucketIndex element
    { setBucket t i none with nonemptyBucketIndex := index }

-- insert_after_dlist on the bucket's header.
def insertAfter (t : LinkedTable κ ν) (i : Nat) (entry : κ × ν) : LinkedTable κ ν :=
  match t.buckets i with
  | none => t
  | some bucket =>
    { setBucket t i (some { bucket with elements := (t.allocated,entry) :: bucket.elements }) with
      allocated := t.allocated + 1 }

section Operations

variable (compare : κ → κ → Bool) (hash : κ → UInt32)

def getBucketIndex (t : LinkedTable κ ν) (key : κ) : Nat := (hash key % t.numberOfBuckets).toNat

def findElement (t : LinkedTable κ ν) (key : κ) : Option (Nat × κ × ν) :=
  match t.buckets (getBucketIndex hash t key) with
  | none => none
  | some bucket => bucket.elements.find? fun e => compare key e.2.1

def lookupHashEntry (t : LinkedTable κ ν) (key : κ) : Option ν :=
  (findElement compare hash t key).map fun e => e.2.2

def deleteElement (t : LinkedTable κ ν) (i : Nat) (e : Nat) : LinkedTable κ ν :=
  match t.buckets i with
  | none => t
  | some bucket =>
    { setBucket t i (some { bucket with elements := Chain.unlink bucket.elements e }) with
      length := t.length - 1 }

def isEmptied (t : LinkedTable κ ν) (i : Nat) : Bool :=
  match t.buckets i with
  | none => false
  | some bucket => bucket.elements.isEmpty

def deleteHashEntry (t : LinkedTable κ ν) (key : κ) : Option ν × LinkedTable κ ν :=
  let i := getBucketIndex hash t key
  let e := findElement compare hash t key
  let t := match e with
    | none => t
    | some e => deleteElement t i e.1
  (e.map fun e => e.2.2,if isEmptied t i then deleteBucket t i else t)

def insertHashEntry (t : LinkedTable κ ν) (key : κ) (value : ν) : Option ν × LinkedTable κ ν :=
  let i := getBucketIndex hash t key
  let oldElement := findElement compare hash t key
  let t := if oldElement.isSome then (deleteHashEntry compare hash t key).2 else t
  let t := if (t.buckets i).isNone then newBucket t i else t
  let t := insertAfter t i (key,value)
  (oldElement.map fun e => e.2.2,{ t with length := t.length + 1 })

end Operations

def entriesAt (t : LinkedTable κ ν) (i : Nat) : List (κ × ν) :=
  match t.buckets i with
  | none => []
  | some bucket => Chain.contents bucket.elements

-- The table without the addresses of its cells.
def forget (t : LinkedTable κ ν) : HashTable κ ν :=
  ⟨entriesAt t,Chain.contents t.nonemptyBucketIndex,t.numberOfBuckets.toNat⟩

structure Valid (compare : κ → κ → Bool) (hash : κ → UInt32) (good : κ → Prop)
    (t : LinkedTable κ ν) : Prop where
  table : t.forget.Valid compare hash good
  sized : 0 < t.numberOfBuckets.toNat
  occupied : ∀ i bucket, t.buckets i = some bucket → bucket.elements ≠ []
  backed : ∀ i bucket, t.buckets i = some bucket →
    ∃ element, bucket.data = some element ∧ (element,i) ∈ t.nonemptyBucketIndex
  distinct : ∀ i bucket, t.buckets i = some bucket → (Chain.addresses bucket.elements).Nodup
  distinctIndex : (Chain.addresses t.nonemptyBucketIndex).Nodup
  fresh : ∀ i bucket, t.buckets i = some bucket → ∀ a ∈ Chain.addresses bucket.elements, a < t.allocated
  freshIndex : ∀ a ∈ Chain.addresses t.nonemptyBucketIndex, a < t.allocated
  counted : t.length = UInt32.ofNat (foreachHash t.forget).length

section Forget

variable {compare : κ → κ → Bool} {hash : κ → UInt32} {good : κ → Prop} {t : LinkedTable κ ν}

theorem createHashWithSize_valid (compare : κ → κ → Bool) (hash : κ → UInt32) (good : κ → Prop)
    {size : UInt32} (hsize : 0 < size) :
    (createHashWithSize size : LinkedTable κ ν).Valid compare hash good := by
  refine ⟨?_,UInt32.lt_iff_toNat_lt.mp hsize,?_,?_,?_,.nil,?_,?_,rfl⟩
  · exact Table.createHashWithSize_valid _ _ _ _
  all_goals simp [createHashWithSize,Chain.addresses]

theorem setBucket_self (t : LinkedTable κ ν) (i : Nat) (b : Option (Bucket κ ν)) :
    (setBucket t i b).buckets i = b := if_pos rfl

theorem setBucket_ne (t : LinkedTable κ ν) {i j : Nat} (b : Option (Bucket κ ν)) (h : j ≠ i) :
    (setBucket t i b).buckets j = t.buckets j := if_neg h

theorem entriesAt_some {i : Nat} {bucket : Bucket κ ν} (h : t.buckets i = some bucket) :
    entriesAt t i = Chain.contents bucket.elements := by rw [entriesAt,h]

theorem entriesAt_none {i : Nat} (h : t.buckets i = none) : entriesAt t i = [] := by rw [entriesAt,h]

theorem getBucketIndex_forget (t : LinkedTable κ ν) (key : κ) :
    Table.getBucketIndex hash t.forget key = getBucketIndex hash t key := (UInt32.toNat_mod _ _).symm

theorem buckets_forget (t : LinkedTable κ ν) (i : Nat) : t.forget.buckets i = entriesAt t i := rfl

theorem find?_contents (p : κ × ν → Bool) (c : Chain (κ × ν)) :
    (c.find? fun e => p e.2).map Prod.snd = (Chain.contents c).find? p := by
  rw [Chain.contents,List.find?_map]
  rfl

variable (compare hash) in
theorem findElement_forget (t : LinkedTable κ ν) (key : κ) :
    (findElement compare hash t key).map Prod.snd =
      (t.forget.buckets (getBucketIndex hash t key)).find? fun e => compare key e.1 := by
  rw [findElement,buckets_forget]
  cases hb : t.buckets (getBucketIndex hash t key) with
  | none => rw [entriesAt_none hb]; rfl
  | some bucket =>
    rw [entriesAt_some hb]
    exact find?_contents (fun e => compare key e.1) bucket.elements

variable (compare hash) in
theorem lookupHashEntry_forget (t : LinkedTable κ ν) (key : κ) :
    lookupHashEntry compare hash t key = Table.lookupHashEntry compare hash t.forget key := by
  rw [Table.lookupHashEntry,getBucketIndex_forget,← findElement_forget,Option.map_map]
  rfl

theorem forget_setBucket {t' : LinkedTable κ ν} {i : Nat} {b : Option (Bucket κ ν)}
    (h : t'.buckets = (setBucket t i b).buckets) (hn : t'.numberOfBuckets = t.numberOfBuckets) :
    t'.forget = { Table.setBucket t.forget i (entriesAt t' i) with
      nonemptyBucketIndex := Chain.contents t'.nonemptyBucketIndex } := by
  have hbuckets : t'.forget.buckets = (Table.setBucket t.forget i (entriesAt t' i)).buckets := by
    funext j
    rw [buckets_forget]
    by_cases hj : j = i
    · rw [hj,Table.setBucket_self]
    · rw [Table.setBucket_ne _ _ hj,buckets_forget,entriesAt,entriesAt,h,setBucket_ne _ _ hj]
  rw [forget,hn]
  exact congrArg (fun f => HashTable.mk f _ _) hbuckets

end Forget

section Deletion

variable {compare : κ → κ → Bool} {hash : κ → UInt32} {good : κ → Prop} {t : LinkedTable κ ν}

-- What a deletion leaves of the bucket it takes an element from.
def leftBucket (bucket : Bucket κ ν) (e : Nat) : Option (Bucket κ ν) :=
  if (Chain.unlink bucket.elements e).isEmpty then none
  else some { bucket with elements := Chain.unlink bucket.elements e }

def leftIndex (t : LinkedTable κ ν) (bucket : Bucket κ ν) (e : Nat) : Chain Nat :=
  match bucket.data with
  | none => t.nonemptyBucketIndex
  | some element =>
    if (Chain.unlink bucket.elements e).isEmpty then Chain.unlink t.nonemptyBucketIndex element
    else t.nonemptyBucketIndex

theorem deleteHashEntry_missing (h : t.Valid compare hash good) {key : κ}
    (hfind : findElement compare hash t key = none) :
    deleteHashEntry compare hash t key = (none,t) := by
  have hkept : isEmptied t (getBucketIndex hash t key) = false := by
    rw [isEmptied]
    cases hb : t.buckets (getBucketIndex hash t key) with
    | none => rfl
    | some bucket => simpa using h.occupied _ _ hb
  simp only [deleteHashEntry,hfind,hkept,Option.map_none,Bool.false_eq_true,if_false]

theorem deleteHashEntry_found {key : κ} {e : Nat × κ × ν}
    (hfind : findElement compare hash t key = some e) :
    ∃ bucket, t.buckets (getBucketIndex hash t key) = some bucket ∧
      (bucket.elements.find? fun e => compare key e.2.1) = some e ∧
      (deleteHashEntry compare hash t key).1 = some e.2.2 ∧
      ∃ t', (deleteHashEntry compare hash t key).2 = t' ∧
        t'.buckets = (setBucket t (getBucketIndex hash t key) (leftBucket bucket e.1)).buckets ∧
        t'.nonemptyBucketIndex = leftIndex t bucket e.1 ∧
        t'.numberOfBuckets = t.numberOfBuckets ∧ t'.length = t.length - 1 ∧
        t'.allocated = t.allocated := by
  have hbucket := hfind
  rw [findElement] at hbucket
  cases hb : t.buckets (getBucketIndex hash t key) with
  | none => rw [hb] at hbucket; exact absurd hbucket (by simp)
  | some bucket =>
    rw [hb] at hbucket
    refine ⟨bucket,rfl,hbucket,?_,_,rfl,?_⟩
    · simp only [deleteHashEntry,hfind,Option.map_some]
    · simp only [deleteHashEntry,hfind,deleteElement,hb,isEmptied,setBucket_self,leftBucket,leftIndex]
      split
      · simp only [deleteBucket,setBucket_self]
        refine ⟨?_,?_,rfl,rfl,rfl⟩
        · funext j
          simp only [setBucket]
          split <;> rfl
        · cases bucket.data <;> rfl
      · refine ⟨rfl,?_,rfl,rfl,rfl⟩
        cases bucket.data <;> rfl

theorem entries_left {bucket : Bucket κ ν} {e : Nat} {t' : LinkedTable κ ν} {i : Nat}
    (h : t'.buckets = (setBucket t i (leftBucket bucket e)).buckets) :
    entriesAt t' i = Chain.contents (Chain.unlink bucket.elements e) := by
  rw [entriesAt,h,setBucket_self,leftBucket]
  cases hleft : Chain.unlink bucket.elements e with
  | nil => rfl
  | cons cell rest => rfl

theorem contents_leftIndex (h : t.Valid compare hash good) {i : Nat} {bucket : Bucket κ ν}
    (hb : t.buckets i = some bucket) (e : Nat) :
    Chain.contents (leftIndex t bucket e) =
      if Chain.contents (Chain.unlink bucket.elements e) = [] then
        (Chain.contents t.nonemptyBucketIndex).erase i
      else Chain.contents t.nonemptyBucketIndex := by
  obtain ⟨element,hdata,hmem⟩ := h.backed i bucket hb
  have hempty : (Chain.unlink bucket.elements e).isEmpty = true ↔
      Chain.contents (Chain.unlink bucket.elements e) = [] := by
    rw [List.isEmpty_iff,Chain.contents,List.map_eq_nil_iff]
  simp only [leftIndex,hdata,hempty]
  split
  · have herase := Chain.contents_unlink h.distinctIndex h.table.nodup hmem
    exact herase
  · rfl

theorem forget_deleteHashEntry (h : t.Valid compare hash good) (key : κ) :
    (deleteHashEntry compare hash t key).1 = (Table.deleteHashEntry compare hash t.forget key).1 ∧
      (deleteHashEntry compare hash t key).2.forget =
        (Table.deleteHashEntry compare hash t.forget key).2 := by
  have hsearch := findElement_forget compare hash t key
  cases hfind : findElement compare hash t key with
  | none =>
    rw [hfind] at hsearch
    have hkept : (t.forget.buckets (getBucketIndex hash t key)).eraseP (fun e => compare key e.1) =
        t.forget.buckets (getBucketIndex hash t key) :=
      List.eraseP_of_forall_not (List.find?_eq_none.mp hsearch.symm)
    rw [deleteHashEntry_missing h hfind,Table.deleteHashEntry,getBucketIndex_forget]
    split
    · exact ⟨rfl,rfl⟩
    · rename_i hne
      have hsame : Table.setBucket t.forget (getBucketIndex hash t key)
          (t.forget.buckets (getBucketIndex hash t key)) = t.forget := by
        rw [Table.setBucket]
        refine congrArg (fun f => HashTable.mk f _ _) (funext fun j => ?_)
        split
        · rename_i hj
          rw [hj]
          rfl
        · rfl
      simp only [hkept,if_neg hne,hsame,← hsearch]
      exact ⟨rfl,trivial⟩
  | some e =>
    obtain ⟨bucket,hb,hfound,hdeleted,t',ht',hbuckets,hindex,hn,-,-⟩ := deleteHashEntry_found hfind
    have hleft := entries_left hbuckets
    have herase := Chain.contents_unlink_find (fun e => compare key e.1) (h.distinct _ _ hb) hfound
    have hne : t.forget.buckets (getBucketIndex hash t key) ≠ [] := by
      rw [buckets_forget,entriesAt_some hb]
      exact List.ne_nil_of_mem (Chain.mem_contents (List.mem_of_find?_eq_some hfound))
    rw [hfind,Option.map_some] at hsearch
    rw [ht',forget_setBucket hbuckets hn,hindex,contents_leftIndex h hb,hleft,Table.deleteHashEntry,
      getBucketIndex_forget,if_neg hne,hdeleted,← hsearch,buckets_forget,entriesAt_some hb,herase]
    by_cases hnil : (Chain.contents bucket.elements).eraseP (fun e => compare key e.1) = []
    · simp only [if_pos hnil]
      exact ⟨rfl,rfl⟩
    · simp only [if_neg hnil]
      exact ⟨rfl,rfl⟩

theorem length_foreach_delete (hk : KeyFunctions compare hash good) (h : t.Valid compare hash good)
    {key : κ} {e : Nat × κ × ν} (hfind : findElement compare hash t key = some e) :
    (foreachHash (deleteHashEntry compare hash t key).2.forget).length + 1 =
      (foreachHash t.forget).length := by
  have hsearch := findElement_forget compare hash t key
  have hmem : e.2 ∈ foreachHash t.forget ∧ compare key e.2.1 = true := by
    have hlookup := lookupHashEntry_eq hk h.table key
    rw [hfind,Option.map_some] at hsearch
    have hin := List.mem_of_find?_eq_some hsearch.symm
    have hc : compare key e.2.1 = true := by simpa using List.find?_some hsearch.symm
    rw [h.table.mem_foreach,h.table.placed _ _ hin]
    exact ⟨hin,hc⟩
  rw [(forget_deleteHashEntry h key).2,foreach_deleteHashEntry hk h.table,
    ← (h.table.atMostOne hk key).eraseP,List.length_eraseP_of_mem hmem.1 hmem.2]
  have hpos := List.length_pos_of_mem hmem.1
  omega

theorem left_cases {bucket b : Bucket κ ν} {e i j : Nat} {t' : LinkedTable κ ν}
    (h : t'.buckets = (setBucket t i (leftBucket bucket e)).buckets) (hj : t'.buckets j = some b) :
    (j ≠ i ∧ t.buckets j = some b) ∨
      (j = i ∧ b.elements ≠ [] ∧ b = { bucket with elements := Chain.unlink bucket.elements e }) := by
  rw [h] at hj
  by_cases hji : j = i
  · rw [hji,setBucket_self,leftBucket] at hj
    split at hj
    · exact absurd hj (by simp)
    · rename_i hne
      obtain rfl := Option.some.inj hj
      exact .inr ⟨hji,by simpa using hne,rfl⟩
  · rw [setBucket_ne _ _ hji] at hj
    exact .inl ⟨hji,hj⟩

theorem deleteHashEntry_valid (hk : KeyFunctions compare hash good) (h : t.Valid compare hash good)
    (key : κ) : (deleteHashEntry compare hash t key).2.Valid compare hash good := by
  have htable : (deleteHashEntry compare hash t key).2.forget.Valid compare hash good := by
    rw [(forget_deleteHashEntry h key).2]
    exact Table.deleteHashEntry_valid h.table key
  cases hfind : findElement compare hash t key with
  | none =>
    rw [deleteHashEntry_missing h hfind]
    exact h
  | some e =>
    have hcount := length_foreach_delete hk h hfind
    obtain ⟨bucket,hb,hfound,-,t',ht',hbuckets,hindex,hn,hlength,hallocated⟩ :=
      deleteHashEntry_found hfind
    rw [ht'] at htable hcount ⊢
    obtain ⟨element,hdata,hmem⟩ := h.backed _ _ hb
    have hsub : t'.nonemptyBucketIndex.Sublist t.nonemptyBucketIndex := by
      rw [hindex,leftIndex,hdata]
      simp only
      split
      · exact Chain.unlink_sublist _ _
      · exact .refl _
    have hsubs := hsub.map Prod.fst
    refine ⟨htable,by rw [hn]; exact h.sized,?_,?_,?_,hsubs.nodup h.distinctIndex,?_,?_,?_⟩
    · intro j b hj
      rcases left_cases hbuckets hj with ⟨-,hj⟩ | ⟨-,hne,hb⟩
      · exact h.occupied j b hj
      · exact hne
    · intro j b hj
      rcases left_cases hbuckets hj with ⟨hji,hj⟩ | ⟨rfl,hne,hb⟩
      · obtain ⟨other,hother,hin⟩ := h.backed j b hj
        refine ⟨other,hother,?_⟩
        rw [hindex,leftIndex,hdata]
        simp only
        split
        · refine Chain.mem_unlink hin fun heq => hji ?_
          exact congrArg Prod.snd (Chain.address_injective h.distinctIndex hin hmem heq)
        · exact hin
      · refine ⟨element,by rw [hb]; exact hdata,?_⟩
        rw [hb] at hne
        rw [hindex,leftIndex,hdata]
        simpa [hne] using hmem
    · intro j b hj
      rcases left_cases hbuckets hj with ⟨-,hj⟩ | ⟨-,hne,rfl⟩
      · exact h.distinct j b hj
      · exact Chain.nodup_unlink (h.distinct _ _ ‹_›) _
    · intro j b hj a ha
      rw [hallocated]
      rcases left_cases hbuckets hj with ⟨-,hj⟩ | ⟨-,hne,rfl⟩
      · exact h.fresh j b hj a ha
      · exact h.fresh _ _ ‹_› a (((Chain.unlink_sublist _ _).map Prod.fst).subset ha)
    · intro a ha
      rw [hallocated]
      exact h.freshIndex a (hsubs.subset ha)
    · rw [hlength,h.counted,← hcount,UInt32.ofNat_add]
      simp

end Deletion

section Insertion

variable {compare : κ → κ → Bool} {hash : κ → UInt32} {good : κ → Prop} {t : LinkedTable κ ν}

def entered (t : LinkedTable κ ν) (i : Nat) (entry : κ × ν) : LinkedTable κ ν :=
  let t := if (t.buckets i).isNone then newBucket t i else t
  let t := insertAfter t i entry
  { t with length := t.length + 1 }

def enteredBucket (t : LinkedTable κ ν) (i : Nat) (entry : κ × ν) : Bucket κ ν :=
  match t.buckets i with
  | none => ⟨some t.allocated,[(t.allocated + 1,entry)]⟩
  | some bucket => { bucket with elements := (t.allocated,entry) :: bucket.elements }

theorem entered_none {i : Nat} (entry : κ × ν) (h : t.buckets i = none) :
    (entered t i entry).buckets = (setBucket t i (some (enteredBucket t i entry))).buckets ∧
      (entered t i entry).nonemptyBucketIndex = (t.allocated,i) :: t.nonemptyBucketIndex ∧
      (entered t i entry).numberOfBuckets = t.numberOfBuckets ∧
      (entered t i entry).length = t.length + 1 ∧ (entered t i entry).allocated = t.allocated + 2 := by
  have hnew : (newBucket t i).buckets i = some ⟨some t.allocated,[]⟩ := setBucket_self _ _ _
  simp only [entered,enteredBucket,h,Option.isNone_none,if_true,insertAfter,hnew]
  refine ⟨?_,rfl,rfl,rfl,rfl⟩
  funext j
  simp only [setBucket,newBucket]
  split <;> rfl

theorem entered_some {i : Nat} {bucket : Bucket κ ν} (entry : κ × ν) (h : t.buckets i = some bucket) :
    (entered t i entry).buckets = (setBucket t i (some (enteredBucket t i entry))).buckets ∧
      (entered t i entry).nonemptyBucketIndex = t.nonemptyBucketIndex ∧
      (entered t i entry).numberOfBuckets = t.numberOfBuckets ∧
      (entered t i entry).length = t.length + 1 ∧ (entered t i entry).allocated = t.allocated + 1 := by
  simp only [entered,enteredBucket,h,Option.isNone_some,Bool.false_eq_true,if_false,insertAfter]
  exact ⟨trivial,rfl,rfl,rfl,trivial⟩

theorem entries_entered (t : LinkedTable κ ν) (i : Nat) (entry : κ × ν) :
    entriesAt (entered t i entry) i = entry :: entriesAt t i := by
  cases hb : t.buckets i with
  | none =>
    rw [entriesAt,(entered_none entry hb).1,setBucket_self,entriesAt_none hb]
    simp only [enteredBucket,hb]
    rfl
  | some bucket =>
    rw [entriesAt,(entered_some entry hb).1,setBucket_self,entriesAt_some hb]
    simp only [enteredBucket,hb]
    rfl

theorem entriesAt_eq_nil (h : t.Valid compare hash good) {i : Nat} :
    entriesAt t i = [] ↔ t.buckets i = none := by
  cases hb : t.buckets i with
  | none => simp [entriesAt_none hb]
  | some bucket =>
    rw [entriesAt_some hb,Chain.contents,List.map_eq_nil_iff]
    exact iff_of_false (h.occupied i bucket hb) (by simp)

theorem forget_entered (h : t.Valid compare hash good) {key : κ} (value : ν)
    (hnew : Table.lookupHashEntry compare hash t.forget key = none) :
    (entered t (getBucketIndex hash t key) (key,value)).forget =
      (Table.insertHashEntry compare hash t.forget key value).2 := by
  rw [Table.lookupHashEntry] at hnew
  simp only [Table.insertHashEntry,hnew,Option.isSome_none,Bool.false_eq_true,if_false]
  rw [getBucketIndex_forget]
  cases hb : t.buckets (getBucketIndex hash t key) with
  | none =>
    have hnil : t.forget.buckets (getBucketIndex hash t key) = [] := entriesAt_none hb
    obtain ⟨hbuckets,hindex,hn,-,-⟩ := entered_none (key,value) hb
    rw [forget_setBucket hbuckets hn,entries_entered,hindex,if_pos hnil]
    rfl
  | some bucket =>
    have hne : ¬ t.forget.buckets (getBucketIndex hash t key) = [] := by
      rw [buckets_forget,entriesAt_eq_nil h,hb]
      simp
    obtain ⟨hbuckets,hindex,hn,-,-⟩ := entered_some (key,value) hb
    rw [forget_setBucket hbuckets hn,entries_entered,hindex,if_neg hne]
    rfl

theorem entered_cases {i j : Nat} {entry : κ × ν} {b : Bucket κ ν}
    (hj : (entered t i entry).buckets j = some b) :
    (j ≠ i ∧ t.buckets j = some b) ∨ (j = i ∧ b = enteredBucket t i entry) := by
  have hbuckets : (entered t i entry).buckets = (setBucket t i (some (enteredBucket t i entry))).buckets := by
    cases hb : t.buckets i with
    | none => exact (entered_none entry hb).1
    | some bucket => exact (entered_some entry hb).1
  rw [hbuckets] at hj
  by_cases hji : j = i
  · rw [hji,setBucket_self] at hj
    exact .inr ⟨hji,(Option.some.inj hj).symm⟩
  · rw [setBucket_ne _ _ hji] at hj
    exact .inl ⟨hji,hj⟩

theorem entered_valid (h : t.Valid compare hash good) {key : κ} (value : ν) (hgood : good key)
    (hnew : Table.lookupHashEntry compare hash t.forget key = none) :
    (entered t (getBucketIndex hash t key) (key,value)).Valid compare hash good := by
  have hforget := forget_entered h value hnew
  have htable : (entered t (getBucketIndex hash t key) (key,value)).forget.Valid compare hash good := by
    rw [hforget]
    exact Table.insertHashEntry_valid h.table value hgood hnew
  have hcount : (foreachHash (entered t (getBucketIndex hash t key) (key,value)).forget).length =
      (foreachHash t.forget).length + 1 := by
    rw [hforget,(foreach_insertHashEntry h.table value hnew).length_eq,List.length_cons]
  cases hb : t.buckets (getBucketIndex hash t key) with
  | none =>
    obtain ⟨hbuckets,hindex,hn,hlength,hallocated⟩ := entered_none (key,value) hb
    have hbucket : enteredBucket t (getBucketIndex hash t key) (key,value) =
        ⟨some t.allocated,[(t.allocated + 1,(key,value))]⟩ := by simp only [enteredBucket,hb]
    refine ⟨htable,by rw [hn]; exact h.sized,?_,?_,?_,?_,?_,?_,?_⟩
    · intro j b hj
      rcases entered_cases hj with ⟨-,hj⟩ | ⟨-,rfl⟩
      · exact h.occupied j b hj
      · rw [hbucket]
        simp
    · intro j b hj
      rw [hindex]
      rcases entered_cases hj with ⟨-,hj⟩ | ⟨rfl,rfl⟩
      · obtain ⟨element,hdata,hmem⟩ := h.backed j b hj
        exact ⟨element,hdata,List.mem_cons_of_mem _ hmem⟩
      · exact ⟨t.allocated,by rw [hbucket],List.mem_cons_self ..⟩
    · intro j b hj
      rcases entered_cases hj with ⟨-,hj⟩ | ⟨-,rfl⟩
      · exact h.distinct j b hj
      · rw [hbucket]
        exact List.nodup_singleton _
    · rw [hindex]
      refine List.nodup_cons.mpr ⟨fun hmem => ?_,h.distinctIndex⟩
      exact lt_irrefl _ (h.freshIndex _ hmem)
    · intro j b hj a ha
      rw [hallocated]
      rcases entered_cases hj with ⟨-,hj⟩ | ⟨-,rfl⟩
      · have := h.fresh j b hj a ha
        omega
      · rw [hbucket] at ha
        have ha : a = t.allocated + 1 := List.mem_singleton.mp ha
        omega
    · intro a ha
      rw [hindex] at ha
      rw [hallocated]
      rcases List.mem_cons.mp ha with rfl | ha
      · change t.allocated < _
        omega
      · have := h.freshIndex a ha
        omega
    · rw [hlength,h.counted,hcount,UInt32.ofNat_add]
      rfl
  | some bucket =>
    obtain ⟨hbuckets,hindex,hn,hlength,hallocated⟩ := entered_some (key,value) hb
    have hbucket : enteredBucket t (getBucketIndex hash t key) (key,value) =
        { bucket with elements := (t.allocated,(key,value)) :: bucket.elements } := by
      simp only [enteredBucket,hb]
    refine ⟨htable,by rw [hn]; exact h.sized,?_,?_,?_,?_,?_,?_,?_⟩
    · intro j b hj
      rcases entered_cases hj with ⟨-,hj⟩ | ⟨-,rfl⟩
      · exact h.occupied j b hj
      · rw [hbucket]
        simp
    · intro j b hj
      rw [hindex]
      rcases entered_cases hj with ⟨-,hj⟩ | ⟨rfl,rfl⟩
      · exact h.backed j b hj
      · rw [hbucket]
        exact h.backed _ bucket hb
    · intro j b hj
      rcases entered_cases hj with ⟨-,hj⟩ | ⟨-,rfl⟩
      · exact h.distinct j b hj
      · rw [hbucket]
        refine List.nodup_cons.mpr ⟨fun hmem => ?_,h.distinct _ bucket hb⟩
        exact lt_irrefl _ (h.fresh _ bucket hb _ hmem)
    · rw [hindex]
      exact h.distinctIndex
    · intro j b hj a ha
      rw [hallocated]
      rcases entered_cases hj with ⟨-,hj⟩ | ⟨-,rfl⟩
      · have := h.fresh j b hj a ha
        omega
      · rw [hbucket] at ha
        rcases List.mem_cons.mp ha with rfl | ha
        · change t.allocated < _
          omega
        · have := h.fresh _ bucket hb a ha
          omega
    · intro a ha
      rw [hindex] at ha
      rw [hallocated]
      have := h.freshIndex a ha
      omega
    · rw [hlength,h.counted,hcount,UInt32.ofNat_add]
      rfl

theorem insertHashEntry_eq (t : LinkedTable κ ν) (key : κ) (value : ν) :
    insertHashEntry compare hash t key value = (lookupHashEntry compare hash t key,
      entered (if (findElement compare hash t key).isSome then (deleteHashEntry compare hash t key).2
        else t) (getBucketIndex hash t key) (key,value)) := rfl

theorem numberOfBuckets_deleteHashEntry (h : t.Valid compare hash good) (key : κ) :
    (deleteHashEntry compare hash t key).2.numberOfBuckets = t.numberOfBuckets := by
  cases hfind : findElement compare hash t key with
  | none => rw [deleteHashEntry_missing h hfind]
  | some e =>
    obtain ⟨bucket,-,-,-,t',ht',-,-,hn,-,-⟩ := deleteHashEntry_found hfind
    rw [ht',hn]

theorem numberOfBuckets_entered (t : LinkedTable κ ν) (i : Nat) (entry : κ × ν) :
    (entered t i entry).numberOfBuckets = t.numberOfBuckets := by
  cases hb : t.buckets i with
  | none => exact (entered_none entry hb).2.2.1
  | some bucket => exact (entered_some entry hb).2.2.1

theorem numberOfBuckets_insertHashEntry (h : t.Valid compare hash good) (key : κ) (value : ν) :
    (insertHashEntry compare hash t key value).2.numberOfBuckets = t.numberOfBuckets := by
  rw [insertHashEntry_eq,numberOfBuckets_entered]
  split
  · exact numberOfBuckets_deleteHashEntry h key
  · rfl

-- The table that the new entry goes into: an entry with its key has been deleted.
theorem insert_into (hk : KeyFunctions compare hash good) (h : t.Valid compare hash good) (key : κ)
    (value : ν) :
    ∃ t', (insertHashEntry compare hash t key value).2 =
        entered t' (getBucketIndex hash t' key) (key,value) ∧
      t'.Valid compare hash good ∧ Table.lookupHashEntry compare hash t'.forget key = none ∧
      (Table.insertHashEntry compare hash t'.forget key value).2 =
        (Table.insertHashEntry compare hash t.forget key value).2 := by
  have hlookup := lookupHashEntry_forget compare hash t key
  cases hfind : findElement compare hash t key with
  | none =>
    rw [lookupHashEntry,hfind] at hlookup
    refine ⟨t,?_,h,hlookup.symm,rfl⟩
    rw [insertHashEntry_eq,hfind]
    rfl
  | some e =>
    have hn := numberOfBuckets_deleteHashEntry h key
    have hforget := (forget_deleteHashEntry h key).2
    refine ⟨(deleteHashEntry compare hash t key).2,?_,deleteHashEntry_valid hk h key,?_,?_⟩
    · rw [insertHashEntry_eq,hfind,getBucketIndex,getBucketIndex,hn]
      rfl
    · rw [hforget]
      exact lookup_deleted hk h.table key
    · rw [hforget]
      exact insert_deleted hk h.table value (by rw [← hlookup,lookupHashEntry,hfind]; rfl)

theorem forget_insertHashEntry (hk : KeyFunctions compare hash good) (h : t.Valid compare hash good)
    (key : κ) (value : ν) :
    (insertHashEntry compare hash t key value).2.forget =
      (Table.insertHashEntry compare hash t.forget key value).2 := by
  obtain ⟨t',heq,hvalid,hnew,hsame⟩ := insert_into hk h key value
  rw [heq,forget_entered hvalid value hnew,hsame]

theorem insertHashEntry_valid (hk : KeyFunctions compare hash good) (h : t.Valid compare hash good)
    {key : κ} (value : ν) (hgood : good key) :
    (insertHashEntry compare hash t key value).2.Valid compare hash good := by
  obtain ⟨t',heq,hvalid,hnew,-⟩ := insert_into hk h key value
  rw [heq]
  exact entered_valid hvalid value hgood hnew

end Insertion

end LinkedTable

end Trema.Table
