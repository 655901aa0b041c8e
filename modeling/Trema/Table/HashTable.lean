import Trema.Library.Keyed

namespace Trema.Table

open Library

variable {κ ν : Type}

-- `buckets i = []` stands for a null bucket: a bucket is freed with its last element.
structure HashTable (κ ν : Type) where
  buckets : Nat → List (κ × ν)
  nonemptyBucketIndex : List Nat
  numberOfBuckets : Nat

def defaultHashSize : Nat := 65521

def createHashWithSize (size : Nat) : HashTable κ ν := ⟨fun _ => [],[],size⟩

def createHash : HashTable κ ν := createHashWithSize defaultHashSize

def setBucket (t : HashTable κ ν) (i : Nat) (bucket : List (κ × ν)) : HashTable κ ν :=
  { t with buckets := fun j => if j = i then bucket else t.buckets j }

def foreachHash (t : HashTable κ ν) : List (κ × ν) := t.nonemptyBucketIndex.flatMap t.buckets

section Operations

variable (compare : κ → κ → Bool) (hash : κ → UInt32)

def getBucketIndex (t : HashTable κ ν) (key : κ) : Nat := (hash key).toNat % t.numberOfBuckets

def lookupHashEntry (t : HashTable κ ν) (key : κ) : Option ν :=
  ((t.buckets (getBucketIndex hash t key)).find? fun e => compare key e.1).map Prod.snd

def deleteHashEntry (t : HashTable κ ν) (key : κ) : Option ν × HashTable κ ν :=
  let i := getBucketIndex hash t key
  if t.buckets i = [] then
    (none,t)
  else
    let deleted := ((t.buckets i).find? fun e => compare key e.1).map Prod.snd
    let rest := (t.buckets i).eraseP fun e => compare key e.1
    let t := setBucket t i rest
    if rest = [] then
      (deleted,{ t with nonemptyBucketIndex := t.nonemptyBucketIndex.erase i })
    else
      (deleted,t)

def newBucket (t : HashTable κ ν) (i : Nat) : HashTable κ ν :=
  { t with nonemptyBucketIndex := i :: t.nonemptyBucketIndex }

def insertHashEntry (t : HashTable κ ν) (key : κ) (value : ν) : Option ν × HashTable κ ν :=
  let i := getBucketIndex hash t key
  let oldValue := ((t.buckets i).find? fun e => compare key e.1).map Prod.snd
  let t := if oldValue.isSome then (deleteHashEntry compare hash t key).2 else t
  let t := if t.buckets i = [] then newBucket t i else t
  (oldValue,setBucket t i ((key,value) :: t.buckets i))

-- A write through the value pointer that lookup_hash_entry returns.
def modifyHashEntry (t : HashTable κ ν) (key : κ) (f : ν → ν) : HashTable κ ν :=
  let i := getBucketIndex hash t key
  setBucket t i (modifyFirst (fun e => compare key e.1) (fun e => (e.1,f e.2)) (t.buckets i))

end Operations

structure KeyFunctions (compare : κ → κ → Bool) (hash : κ → UInt32) (good : κ → Prop) : Prop where
  symm : ∀ a b, compare a b = true → compare b a = true
  trans : ∀ a b c, compare a b = true → compare b c = true → compare a c = true
  congr : ∀ a b, good b → compare a b = true → hash a = hash b

structure HashTable.Valid (compare : κ → κ → Bool) (hash : κ → UInt32) (good : κ → Prop)
    (t : HashTable κ ν) : Prop where
  nodup : t.nonemptyBucketIndex.Nodup
  index : ∀ i, i ∈ t.nonemptyBucketIndex ↔ t.buckets i ≠ []
  placed : ∀ i, ∀ e ∈ t.buckets i, getBucketIndex hash t e.1 = i
  good : ∀ i, ∀ e ∈ t.buckets i, good e.1
  keys : ∀ i, (t.buckets i).Pairwise fun a b => ¬ compare a.1 b.1 = true

section Foreach

variable {compare : κ → κ → Bool} {hash : κ → UInt32} {good : κ → Prop} {t : HashTable κ ν}

@[simp] theorem setBucket_self (t : HashTable κ ν) (i : Nat) (b : List (κ × ν)) :
    (setBucket t i b).buckets i = b := if_pos rfl

theorem setBucket_ne (t : HashTable κ ν) {i j : Nat} (b : List (κ × ν)) (h : j ≠ i) :
    (setBucket t i b).buckets j = t.buckets j := if_neg h

theorem HashTable.Valid.mem_foreach (h : t.Valid compare hash good) {e : κ × ν} :
    e ∈ foreachHash t ↔ e ∈ t.buckets (getBucketIndex hash t e.1) := by
  rw [foreachHash,List.mem_flatMap]
  constructor
  · rintro ⟨i,_,he⟩
    rwa [h.placed i e he]
  · intro he
    exact ⟨_,(h.index _).mpr (List.ne_nil_of_mem he),he⟩

theorem HashTable.Valid.bucket_of_compare (hk : KeyFunctions compare hash good)
    (h : t.Valid compare hash good) {key : κ} {i : Nat} {e : κ × ν} (he : e ∈ t.buckets i)
    (hc : compare key e.1 = true) : getBucketIndex hash t key = i := by
  rw [← h.placed i e he,getBucketIndex,hk.congr key e.1 (h.good i e he) hc]
  rfl

theorem HashTable.Valid.keys_distinct (hk : KeyFunctions compare hash good)
    (h : t.Valid compare hash good) :
    (foreachHash t).Pairwise fun a b => ¬ compare a.1 b.1 = true := by
  refine List.pairwise_flatMap.mpr ⟨fun i _ => h.keys i,?_⟩
  refine h.nodup.imp fun hij a ha b hb hc => hij ?_
  rw [← h.placed _ a ha]
  exact h.bucket_of_compare hk hb hc

theorem HashTable.Valid.atMostOne (hk : KeyFunctions compare hash good)
    (h : t.Valid compare hash good) (key : κ) :
    AtMostOne (fun e => compare key e.1) (foreachHash t) :=
  atMostOne_of_keys (R := fun a b => compare a.1 b.1 = true) (h.keys_distinct hk)
    fun _ _ ha hb => hk.trans _ _ _ (hk.symm _ _ ha) hb

theorem HashTable.Valid.atMostOne_bucket (hk : KeyFunctions compare hash good)
    (h : t.Valid compare hash good) (key : κ) (i : Nat) :
    AtMostOne (fun e => compare key e.1) (t.buckets i) :=
  atMostOne_of_keys (R := fun a b => compare a.1 b.1 = true) (h.keys i)
    fun _ _ ha hb => hk.trans _ _ _ (hk.symm _ _ ha) hb

theorem lookupHashEntry_eq (hk : KeyFunctions compare hash good) (h : t.Valid compare hash good)
    (key : κ) : lookupHashEntry compare hash t key =
      ((foreachHash t).find? fun e => compare key e.1).map Prod.snd := by
  rw [lookupHashEntry]
  refine congrArg _ (Option.ext fun e => ?_)
  rw [(h.atMostOne_bucket hk key _).find?_eq_some,(h.atMostOne hk key).find?_eq_some]
  constructor
  · rintro ⟨he,hc⟩
    refine ⟨h.mem_foreach.mpr ?_,hc⟩
    rwa [h.placed _ e he]
  · rintro ⟨he,hc⟩
    have hb := h.mem_foreach.mp he
    exact ⟨by rwa [h.bucket_of_compare hk hb hc],hc⟩

end Foreach

theorem createHashWithSize_valid (compare : κ → κ → Bool) (hash : κ → UInt32) (good : κ → Prop)
    (size : Nat) : (createHashWithSize size : HashTable κ ν).Valid compare hash good :=
  ⟨.nil,by simp [createHashWithSize],by simp [createHashWithSize],by simp [createHashWithSize],
    by simp [createHashWithSize]⟩

theorem createHash_valid (compare : κ → κ → Bool) (hash : κ → UInt32) (good : κ → Prop) :
    (createHash : HashTable κ ν).Valid compare hash good :=
  createHashWithSize_valid compare hash good defaultHashSize

section Updates

variable {compare : κ → κ → Bool} {hash : κ → UInt32} {good : κ → Prop} {t : HashTable κ ν}

theorem flatMap_erase {f : Nat → List (κ × ν)} {i : Nat} (l : List Nat) (hi : f i = []) :
    (l.erase i).flatMap f = l.flatMap f := by
  induction l with
  | nil => rfl
  | cons j l ih =>
    by_cases hj : j = i
    · subst hj
      rw [List.erase_cons_head,List.flatMap_cons,hi,List.nil_append]
    · rw [List.erase_cons_tail (by simpa using hj),List.flatMap_cons,List.flatMap_cons,ih]

theorem flatMap_setBucket_perm {i : Nat} {x : κ × ν} {l : List Nat} (hl : l.Nodup) (hi : i ∈ l) :
    (l.flatMap (setBucket t i (x :: t.buckets i)).buckets).Perm (x :: l.flatMap t.buckets) := by
  induction l with
  | nil => exact absurd hi (by simp)
  | cons j l ih =>
    obtain ⟨hj,hl⟩ := List.nodup_cons.mp hl
    rw [List.flatMap_cons,List.flatMap_cons]
    rcases List.mem_cons.mp hi with rfl | hi
    · rw [setBucket_self,List.cons_append]
      refine .cons x (List.Perm.append_left _ (.of_eq ?_))
      refine List.flatMap_congr fun k hk => setBucket_ne t _ ?_
      rintro rfl
      exact hj hk
    · rw [setBucket_ne t _ (fun hji => hj (by rwa [hji]))]
      exact ((ih hl hi).append_left _).trans List.perm_middle

theorem setBucket_valid (h : t.Valid compare hash good) {i : Nat} {b : List (κ × ν)} {l : List Nat}
    (hl : l.Nodup) (hindex : ∀ j, j ∈ l ↔ (setBucket t i b).buckets j ≠ [])
    (hplaced : ∀ e ∈ b, getBucketIndex hash t e.1 = i) (hgood : ∀ e ∈ b, good e.1)
    (hkeys : b.Pairwise fun a b => ¬ compare a.1 b.1 = true) :
    (HashTable.mk (setBucket t i b).buckets l t.numberOfBuckets).Valid compare hash good := by
  refine ⟨hl,hindex,fun j e he => ?_,fun j e he => ?_,fun j => ?_⟩
  all_goals
    simp only at *
    by_cases hj : j = i
  · subst hj
    rw [setBucket_self] at he
    exact hplaced e he
  · rw [setBucket_ne t b hj] at he
    exact h.placed j e he
  · subst hj
    rw [setBucket_self] at he
    exact hgood e he
  · rw [setBucket_ne t b hj] at he
    exact h.good j e he
  · subst hj
    rw [setBucket_self]
    exact hkeys
  · rw [setBucket_ne t b hj]
    exact h.keys j

theorem index_setBucket (h : t.Valid compare hash good) {i : Nat} {b : List (κ × ν)}
    (hb : b ≠ [] ↔ t.buckets i ≠ []) (j : Nat) :
    j ∈ t.nonemptyBucketIndex ↔ (setBucket t i b).buckets j ≠ [] := by
  by_cases hj : j = i
  · subst hj
    rw [setBucket_self,hb]
    exact h.index j
  · rw [setBucket_ne t b hj]
    exact h.index j

theorem filter_bucket_ne (hk : KeyFunctions compare hash good) (h : t.Valid compare hash good)
    {key : κ} {j : Nat} (hj : j ≠ getBucketIndex hash t key) :
    (t.buckets j).filter (fun e => !compare key e.1) = t.buckets j := by
  refine List.filter_eq_self.mpr fun e he => ?_
  simpa using fun hc => hj (h.bucket_of_compare hk he hc).symm

theorem foreach_deleteHashEntry (hk : KeyFunctions compare hash good)
    (h : t.Valid compare hash good) (key : κ) :
    foreachHash (deleteHashEntry compare hash t key).2 =
      (foreachHash t).filter fun e => !compare key e.1 := by
  have herase := (h.atMostOne_bucket hk key (getBucketIndex hash t key)).eraseP
  have hbuckets : (setBucket t (getBucketIndex hash t key) ((t.buckets (getBucketIndex hash t key)).eraseP
      fun e => compare key e.1)).buckets = fun j => (t.buckets j).filter fun e => !compare key e.1 := by
    funext j
    by_cases hj : j = getBucketIndex hash t key
    · subst hj
      rw [setBucket_self,herase]
    · rw [setBucket_ne t _ hj,filter_bucket_ne hk h hj]
  simp only [deleteHashEntry]
  split
  · rename_i hnil
    refine (List.filter_eq_self.mpr fun e he => ?_).symm
    have hb := h.mem_foreach.mp he
    have hc : ¬ compare key e.1 = true := by
      intro hc
      rw [← h.bucket_of_compare hk hb hc,hnil] at hb
      exact absurd hb (by simp)
    simpa using hc
  · split
    · rename_i hrest
      rw [foreachHash,foreachHash,List.filter_flatMap,← hbuckets]
      exact flatMap_erase _ (by rw [setBucket_self]; exact hrest)
    · rw [foreachHash,foreachHash,List.filter_flatMap,← hbuckets]
      rfl

theorem deleteHashEntry_valid (h : t.Valid compare hash good) (key : κ) :
    (deleteHashEntry compare hash t key).2.Valid compare hash good := by
  have hsub : ((t.buckets (getBucketIndex hash t key)).eraseP fun e => compare key e.1).Sublist
      (t.buckets (getBucketIndex hash t key)) := List.eraseP_sublist
  simp only [deleteHashEntry]
  split
  · exact h
  · rename_i hne
    split
    · rename_i hrest
      refine setBucket_valid h (h.nodup.erase _) (fun j => ?_)
        (fun e he => h.placed _ e (hsub.subset he)) (fun e he => h.good _ e (hsub.subset he))
        ((h.keys _).sublist hsub)
      refine h.nodup.mem_erase_iff.trans ?_
      by_cases hj : j = getBucketIndex hash t key
      · rw [hj,setBucket_self,hrest]
        simp
      · rw [setBucket_ne t _ hj,h.index]
        exact ⟨fun hm => hm.2,fun hm => ⟨hj,hm⟩⟩
    · rename_i hrest
      exact setBucket_valid h h.nodup (index_setBucket h (iff_of_true hrest hne))
        (fun e he => h.placed _ e (hsub.subset he)) (fun e he => h.good _ e (hsub.subset he))
        ((h.keys _).sublist hsub)

theorem foreach_modifyHashEntry (hk : KeyFunctions compare hash good)
    (h : t.Valid compare hash good) (key : κ) (f : ν → ν) :
    foreachHash (modifyHashEntry compare hash t key f) =
      (foreachHash t).map fun e => if compare key e.1 then (e.1,f e.2) else e := by
  have hmodify : modifyFirst (fun e => compare key e.1) (fun e => (e.1,f e.2))
      (t.buckets (getBucketIndex hash t key)) = (t.buckets (getBucketIndex hash t key)).map
        fun e => if compare key e.1 then (e.1,f e.2) else e :=
    (h.atMostOne_bucket hk key _).modifyFirst
  have hbuckets : (modifyHashEntry compare hash t key f).buckets = fun j =>
      (t.buckets j).map fun e => if compare key e.1 then (e.1,f e.2) else e := by
    funext j
    by_cases hj : j = getBucketIndex hash t key
    · subst hj
      rw [modifyHashEntry,setBucket_self,hmodify]
    · rw [modifyHashEntry,setBucket_ne t _ hj]
      refine (List.map_id _).symm.trans (List.map_congr_left fun e he => ?_)
      rw [if_neg fun hc => hj (h.bucket_of_compare hk he hc).symm]
      rfl
  rw [foreachHash,foreachHash,List.map_flatMap,← hbuckets]
  rfl

theorem modifyHashEntry_valid (hk : KeyFunctions compare hash good) (h : t.Valid compare hash good)
    (key : κ) (f : ν → ν) : (modifyHashEntry compare hash t key f).Valid compare hash good := by
  have hmodify : modifyFirst (fun e => compare key e.1) (fun e => (e.1,f e.2))
      (t.buckets (getBucketIndex hash t key)) = (t.buckets (getBucketIndex hash t key)).map
        fun e => if compare key e.1 then (e.1,f e.2) else e :=
    (h.atMostOne_bucket hk key _).modifyFirst
  have hfst : ∀ e : κ × ν, (if compare key e.1 then (e.1,f e.2) else e).1 = e.1 := by
    intro e
    split <;> rfl
  rw [modifyHashEntry,hmodify]
  refine setBucket_valid h h.nodup (index_setBucket h (by simp)) ?_ ?_ ?_
  · intro e he
    obtain ⟨e',he',rfl⟩ := List.mem_map.mp he
    rw [hfst]
    exact h.placed _ e' he'
  · intro e he
    obtain ⟨e',he',rfl⟩ := List.mem_map.mp he
    rw [hfst]
    exact h.good _ e' he'
  · refine List.pairwise_map.mpr ((h.keys _).imp fun hab => ?_)
    rwa [hfst,hfst]

theorem foreach_insertHashEntry (h : t.Valid compare hash good) {key : κ} (value : ν)
    (hnew : lookupHashEntry compare hash t key = none) :
    (foreachHash (insertHashEntry compare hash t key value).2).Perm ((key,value) :: foreachHash t) := by
  rw [lookupHashEntry] at hnew
  simp only [insertHashEntry,hnew,Option.isSome_none,Bool.false_eq_true,if_false]
  split
  · rename_i hnil
    have hi : getBucketIndex hash t key ∉ t.nonemptyBucketIndex := by
      rw [h.index]
      simpa using hnil
    refine .of_eq ?_
    change (getBucketIndex hash t key :: t.nonemptyBucketIndex).flatMap _ = _
    rw [List.flatMap_cons,setBucket_self]
    change ((key,value) :: t.buckets (getBucketIndex hash t key)) ++ _ = _
    rw [hnil,List.singleton_append]
    refine congrArg _ (List.flatMap_congr fun j hj => setBucket_ne (newBucket t _) _ ?_)
    rintro rfl
    exact hi hj
  · rename_i hne
    exact flatMap_setBucket_perm h.nodup ((h.index _).mpr hne)

theorem insertHashEntry_valid (h : t.Valid compare hash good) {key : κ} (value : ν)
    (hgood : good key) (hnew : lookupHashEntry compare hash t key = none) :
    (insertHashEntry compare hash t key value).2.Valid compare hash good := by
  have hfresh : ∀ e ∈ t.buckets (getBucketIndex hash t key), ¬ compare key e.1 = true := by
    rw [lookupHashEntry,Option.map_eq_none_iff,List.find?_eq_none] at hnew
    exact hnew
  rw [lookupHashEntry] at hnew
  have hplaced : ∀ e ∈ (key,value) :: t.buckets (getBucketIndex hash t key),
      getBucketIndex hash t e.1 = getBucketIndex hash t key := by
    intro e he
    rcases List.mem_cons.mp he with rfl | he
    · rfl
    · exact h.placed _ e he
  have hgoods : ∀ e ∈ (key,value) :: t.buckets (getBucketIndex hash t key), good e.1 := by
    intro e he
    rcases List.mem_cons.mp he with rfl | he
    · exact hgood
    · exact h.good _ e he
  have hkeys : ((key,value) :: t.buckets (getBucketIndex hash t key)).Pairwise
      fun a b => ¬ compare a.1 b.1 = true := List.pairwise_cons.mpr ⟨hfresh,h.keys _⟩
  simp only [insertHashEntry,hnew,Option.isSome_none,Bool.false_eq_true,if_false]
  split
  · rename_i hnil
    have hi : getBucketIndex hash t key ∉ t.nonemptyBucketIndex := by
      rw [h.index]
      simpa using hnil
    refine setBucket_valid h (List.nodup_cons.mpr ⟨hi,h.nodup⟩) (fun j => ?_) hplaced hgoods hkeys
    change j ∈ getBucketIndex hash t key :: t.nonemptyBucketIndex ↔ _
    by_cases hj : j = getBucketIndex hash t key
    · rw [hj,setBucket_self]
      simp
    · rw [setBucket_ne t _ hj,List.mem_cons,h.index]
      exact ⟨fun hm => hm.resolve_left hj,.inr⟩
  · rename_i hne
    exact setBucket_valid h h.nodup (index_setBucket h (iff_of_true (by simp) hne)) hplaced hgoods
      hkeys

end Updates

section Lookups

variable {compare : κ → κ → Bool} {hash : κ → UInt32} {good : κ → Prop} {t : HashTable κ ν}

theorem lookup_create (size : Nat) (key : κ) :
    lookupHashEntry compare hash (createHashWithSize size : HashTable κ ν) key = none := rfl

theorem find?_filter_key (hk : KeyFunctions compare hash good) (key key' : κ) (l : List (κ × ν)) :
    (l.filter fun e => !compare key e.1).find? (fun e => compare key' e.1) =
      if compare key key' then none else l.find? fun e => compare key' e.1 := by
  induction l with
  | nil => simp
  | cons e l ih =>
    cases hdel : compare key e.1 with
    | true =>
      rw [List.filter_cons_of_neg (by simp [hdel]),ih]
      split
      · rfl
      · rename_i hother
        rw [List.find?_cons_of_neg]
        intro hc
        exact hother (hk.trans _ _ _ hdel (hk.symm _ _ hc))
    | false =>
      rw [List.filter_cons_of_pos (by simp [hdel])]
      cases hc : compare key' e.1 with
      | true =>
        rw [List.find?_cons_of_pos (by simp [hc]),List.find?_cons_of_pos (by simp [hc]),if_neg]
        intro hsame
        rw [hk.trans _ _ _ hsame hc] at hdel
        exact absurd hdel (by simp)
      | false => rw [List.find?_cons_of_neg (by simp [hc]),List.find?_cons_of_neg (by simp [hc]),ih]

theorem lookup_deleteHashEntry (hk : KeyFunctions compare hash good) (h : t.Valid compare hash good)
    (key key' : κ) :
    lookupHashEntry compare hash (deleteHashEntry compare hash t key).2 key' =
      if compare key key' then none else lookupHashEntry compare hash t key' := by
  rw [lookupHashEntry_eq hk (deleteHashEntry_valid h key),foreach_deleteHashEntry hk h,
    lookupHashEntry_eq hk h,find?_filter_key hk]
  split <;> rfl

theorem fst_deleteHashEntry (key : κ) :
    (deleteHashEntry compare hash t key).1 = lookupHashEntry compare hash t key := by
  simp only [deleteHashEntry,lookupHashEntry]
  split
  · rename_i hnil
    rw [hnil]
    rfl
  · split <;> rfl

theorem numberOfBuckets_delete (key : κ) :
    (deleteHashEntry compare hash t key).2.numberOfBuckets = t.numberOfBuckets := by
  simp only [deleteHashEntry]
  split
  · rfl
  · split <;> rfl

theorem find?_filter_self (compare : κ → κ → Bool) (key : κ) (l : List (κ × ν)) :
    (l.filter fun e => !compare key e.1).find? (fun e => compare key e.1) = none := by
  rw [List.find?_eq_none]
  intro e he
  simpa using (List.mem_filter.mp he).2

theorem lookup_deleted (hk : KeyFunctions compare hash good) (h : t.Valid compare hash good) (key : κ) :
    lookupHashEntry compare hash (deleteHashEntry compare hash t key).2 key = none := by
  rw [lookupHashEntry_eq hk (deleteHashEntry_valid h key),foreach_deleteHashEntry hk h,find?_filter_self]
  rfl

theorem insert_deleted (hk : KeyFunctions compare hash good) (h : t.Valid compare hash good) {key : κ}
    (value : ν) (hold : (lookupHashEntry compare hash t key).isSome = true) :
    (insertHashEntry compare hash (deleteHashEntry compare hash t key).2 key value).2 =
      (insertHashEntry compare hash t key value).2 := by
  have hindex : getBucketIndex hash (deleteHashEntry compare hash t key).2 key =
      getBucketIndex hash t key := by
    rw [getBucketIndex,numberOfBuckets_delete,getBucketIndex]
  have hgone := lookup_deleted hk h key
  rw [lookupHashEntry] at hold hgone
  rw [hindex] at hgone
  simp only [insertHashEntry,hold,hindex,hgone,Option.isSome_none,Bool.false_eq_true,if_false,if_true]

-- The table that the new entry goes into: an entry with its key has been deleted.
theorem insert_into (hk : KeyFunctions compare hash good) (h : t.Valid compare hash good) (key : κ)
    (value : ν) :
    ∃ t', (insertHashEntry compare hash t key value).2 = (insertHashEntry compare hash t' key value).2 ∧
      t'.Valid compare hash good ∧ lookupHashEntry compare hash t' key = none ∧
      foreachHash t' = (foreachHash t).filter fun e => !compare key e.1 := by
  cases hold : lookupHashEntry compare hash t key with
  | none =>
    refine ⟨t,rfl,h,hold,(List.filter_eq_self.mpr ?_).symm⟩
    rw [lookupHashEntry_eq hk h,Option.map_eq_none_iff,List.find?_eq_none] at hold
    intro e he
    simpa using hold e he
  | some old =>
    exact ⟨_,(insert_deleted hk h value (by rw [hold]; rfl)).symm,deleteHashEntry_valid h key,
      lookup_deleted hk h key,foreach_deleteHashEntry hk h key⟩

theorem insertHashEntry_keeps (hk : KeyFunctions compare hash good) (h : t.Valid compare hash good)
    {key : κ} (value : ν) (hgood : good key) :
    (insertHashEntry compare hash t key value).2.Valid compare hash good := by
  obtain ⟨t',heq,hvalid,hnew,_⟩ := insert_into hk h key value
  rw [heq]
  exact insertHashEntry_valid hvalid value hgood hnew

theorem foreach_insert (hk : KeyFunctions compare hash good) (h : t.Valid compare hash good) (key : κ)
    (value : ν) :
    (foreachHash (insertHashEntry compare hash t key value).2).Perm
      ((key,value) :: (foreachHash t).filter fun e => !compare key e.1) := by
  obtain ⟨t',heq,hvalid,hnew,hforeach⟩ := insert_into hk h key value
  rw [heq,← hforeach]
  exact foreach_insertHashEntry hvalid value hnew

theorem find_insertHashEntry (hk : KeyFunctions compare hash good) (h : t.Valid compare hash good)
    {key : κ} (value : ν) (hgood : good key) (key' : κ) :
    (foreachHash (insertHashEntry compare hash t key value).2).find? (fun e => compare key' e.1) =
      if compare key' key then some (key,value)
      else (foreachHash t).find? fun e => compare key' e.1 := by
  have hvalid := insertHashEntry_keeps hk h value hgood
  rw [(hvalid.atMostOne hk key').find?_perm (foreach_insert hk h key value)]
  cases hsame : compare key' key with
  | true =>
    rw [List.find?_cons]
    simp [hsame]
  | false =>
    have hother : ¬ compare key key' = true := by
      intro hc
      rw [hk.symm _ _ hc] at hsame
      exact absurd hsame (by simp)
    rw [List.find?_cons]
    simp only [hsame]
    rw [find?_filter_key hk,if_neg hother]
    simp

theorem lookup_insertHashEntry (hk : KeyFunctions compare hash good) (h : t.Valid compare hash good)
    {key : κ} (value : ν) (hgood : good key) (key' : κ) :
    lookupHashEntry compare hash (insertHashEntry compare hash t key value).2 key' =
      if compare key' key then some value else lookupHashEntry compare hash t key' := by
  rw [lookupHashEntry_eq hk (insertHashEntry_keeps hk h value hgood),lookupHashEntry_eq hk h,
    find_insertHashEntry hk h value hgood]
  split <;> rfl

theorem lookup_modifyHashEntry (hk : KeyFunctions compare hash good) (h : t.Valid compare hash good)
    (key key' : κ) (f : ν → ν) :
    lookupHashEntry compare hash (modifyHashEntry compare hash t key f) key' =
      if compare key key' then (lookupHashEntry compare hash t key').map f
      else lookupHashEntry compare hash t key' := by
  rw [lookupHashEntry_eq hk (modifyHashEntry_valid hk h key f),foreach_modifyHashEntry hk h,
    lookupHashEntry_eq hk h,List.find?_map]
  have hsame : (fun e : κ × ν => compare key' e.1) ∘
      (fun e => if compare key e.1 then (e.1,f e.2) else e) = fun e => compare key' e.1 := by
    funext e
    simp only [Function.comp_apply]
    split <;> rfl
  rw [hsame]
  cases hfind : (foreachHash t).find? fun e => compare key' e.1 with
  | none => simp
  | some e =>
    have he := List.find?_some hfind
    have hiff : compare key e.1 = compare key key' := by
      rw [Bool.eq_iff_iff]
      exact ⟨fun hc => hk.trans _ _ _ hc (hk.symm _ _ he),fun hc => hk.trans _ _ _ hc he⟩
    simp only [Option.map_some,hiff]
    split <;> rfl

theorem mem_foreach_lookup (hk : KeyFunctions compare hash good) (h : t.Valid compare hash good)
    (hrefl : ∀ k, compare k k = true) {e : κ × ν} (he : e ∈ foreachHash t) :
    lookupHashEntry compare hash t e.1 = some e.2 := by
  rw [lookupHashEntry_eq hk h,(h.atMostOne hk e.1).find?_eq_some.mpr ⟨he,hrefl _⟩]
  rfl

end Lookups

section Exact

variable {compare : κ → κ → Bool} {hash : κ → UInt32} {t : HashTable κ ν}
  (hcompare : ∀ x y, compare x y = true ↔ x = y)
include hcompare

-- Keys that compare equal only when they are equal.
theorem exact_keys : KeyFunctions compare hash fun _ => True := by
  refine ⟨?_,?_,?_⟩
  · intro a b h
    rw [hcompare] at h ⊢
    exact h.symm
  · intro a b c h h'
    rw [hcompare] at h h' ⊢
    exact h.trans h'
  · intro a b _ h
    rw [hcompare] at h
    rw [h]

variable (h : t.Valid compare hash fun _ => True)
include h

theorem lookup_insert_exact [DecidableEq κ] (key key' : κ) (value : ν) :
    lookupHashEntry compare hash (insertHashEntry compare hash t key value).2 key' =
      if key' = key then some value else lookupHashEntry compare hash t key' := by
  rw [lookup_insertHashEntry (exact_keys hcompare) h value trivial]
  simp only [hcompare]

theorem lookup_delete_exact [DecidableEq κ] (key key' : κ) :
    lookupHashEntry compare hash (deleteHashEntry compare hash t key).2 key' =
      if key' = key then none else lookupHashEntry compare hash t key' := by
  rw [lookup_deleteHashEntry (exact_keys hcompare) h]
  simp only [hcompare,eq_comm]

theorem lookup_modify_exact [DecidableEq κ] (key key' : κ) (f : ν → ν) :
    lookupHashEntry compare hash (modifyHashEntry compare hash t key f) key' =
      if key' = key then (lookupHashEntry compare hash t key').map f
      else lookupHashEntry compare hash t key' := by
  rw [lookup_modifyHashEntry (exact_keys hcompare) h]
  simp only [hcompare,eq_comm]

theorem lookup_of_mem_exact {e : κ × ν} (he : e ∈ foreachHash t) :
    lookupHashEntry compare hash t e.1 = some e.2 :=
  mem_foreach_lookup (exact_keys hcompare) h (fun k => (hcompare k k).mpr rfl) he

theorem mem_of_lookup_exact {key : κ} {value : ν} (hv : lookupHashEntry compare hash t key = some value) :
    (key,value) ∈ foreachHash t := by
  rw [lookupHashEntry_eq (exact_keys hcompare) h,Option.map_eq_some_iff] at hv
  obtain ⟨e,he,rfl⟩ := hv
  have hkey := List.find?_some he
  rw [hcompare] at hkey
  rw [hkey]
  exact List.mem_of_find?_eq_some he

theorem keys_nodup_exact : ((foreachHash t).map Prod.fst).Nodup := by
  refine List.pairwise_map.mpr ((h.keys_distinct (exact_keys hcompare)).imp fun hab => ?_)
  rwa [hcompare] at hab

end Exact

section Uint32

def compareUint32 (x y : UInt32) : Bool := x == y

def hashUint32 (key : UInt32) : UInt32 := key % 4294967295

theorem compareUint32_iff (x y : UInt32) : compareUint32 x y = true ↔ x = y := beq_iff_eq

theorem uint32_keys : KeyFunctions compareUint32 hashUint32 fun _ => True := exact_keys compareUint32_iff

variable {ν : Type} {t : HashTable UInt32 ν}

abbrev HashTable.ValidUint32 (t : HashTable UInt32 ν) : Prop :=
  t.Valid compareUint32 hashUint32 fun _ => True

def lookupUint32 (t : HashTable UInt32 ν) (key : UInt32) : Option ν :=
  lookupHashEntry compareUint32 hashUint32 t key

def insertUint32 (t : HashTable UInt32 ν) (key : UInt32) (value : ν) : Option ν × HashTable UInt32 ν :=
  insertHashEntry compareUint32 hashUint32 t key value

def deleteUint32 (t : HashTable UInt32 ν) (key : UInt32) : Option ν × HashTable UInt32 ν :=
  deleteHashEntry compareUint32 hashUint32 t key

def modifyUint32 (t : HashTable UInt32 ν) (key : UInt32) (f : ν → ν) : HashTable UInt32 ν :=
  modifyHashEntry compareUint32 hashUint32 t key f

theorem insertUint32_valid (h : t.ValidUint32) (key : UInt32) (value : ν) :
    (insertUint32 t key value).2.ValidUint32 :=
  insertHashEntry_keeps uint32_keys h value trivial

theorem deleteUint32_valid (h : t.ValidUint32) (key : UInt32) : (deleteUint32 t key).2.ValidUint32 :=
  deleteHashEntry_valid h key

theorem modifyUint32_valid (h : t.ValidUint32) (key : UInt32) (f : ν → ν) :
    (modifyUint32 t key f).ValidUint32 :=
  modifyHashEntry_valid uint32_keys h key f

theorem lookup_insertUint32 (h : t.ValidUint32) (key key' : UInt32) (value : ν) :
    lookupUint32 (insertUint32 t key value).2 key' = if key' = key then some value else lookupUint32 t key' :=
  lookup_insert_exact compareUint32_iff h key key' value

theorem lookup_deleteUint32 (h : t.ValidUint32) (key key' : UInt32) :
    lookupUint32 (deleteUint32 t key).2 key' = if key' = key then none else lookupUint32 t key' :=
  lookup_delete_exact compareUint32_iff h key key'

theorem lookup_modifyUint32 (h : t.ValidUint32) (key key' : UInt32) (f : ν → ν) :
    lookupUint32 (modifyUint32 t key f) key' =
      if key' = key then (lookupUint32 t key').map f else lookupUint32 t key' :=
  lookup_modify_exact compareUint32_iff h key key' f

theorem fst_insertUint32 (key : UInt32) (value : ν) : (insertUint32 t key value).1 = lookupUint32 t key := rfl

theorem fst_deleteUint32 (key : UInt32) : (deleteUint32 t key).1 = lookupUint32 t key :=
  fst_deleteHashEntry key

theorem lookup_of_mem (h : t.ValidUint32) {e : UInt32 × ν} (he : e ∈ foreachHash t) :
    lookupUint32 t e.1 = some e.2 :=
  lookup_of_mem_exact compareUint32_iff h he

theorem mem_of_lookup (h : t.ValidUint32) {key : UInt32} {value : ν} (hv : lookupUint32 t key = some value) :
    (key,value) ∈ foreachHash t :=
  mem_of_lookup_exact compareUint32_iff h hv

theorem keys_nodup (h : t.ValidUint32) : ((foreachHash t).map Prod.fst).Nodup :=
  keys_nodup_exact compareUint32_iff h

end Uint32

end Trema.Table
