import Trema.Table.LinkedHash

namespace Trema.Table

open Library

variable {κ ν σ : Type}

namespace LinkedTable

-- ( int ) ( unsigned long ) data
def asInt (data : Nat) : Int := (BitVec.ofNat 32 data).toInt

def bucketAt (t : LinkedTable κ ν) (i : Int) : Run Empty (Option (Bucket κ ν)) :=
  if 0 ≤ i ∧ i < t.numberOfBuckets.toNat then .ok (t.buckets i.toNat) else .error .outOfBounds

def elementsAt (t : LinkedTable κ ν) (i : Nat) : Chain (κ × ν) :=
  match t.buckets i with
  | none => []
  | some bucket => bucket.elements

structure HashIterator where
  bucketIndex : Option Nat
  nextBucketIndex : Option Nat
  -- An element is named by its bucket and its address.
  element : Option (Nat × Nat)

section Walks

-- The table is part of what the callback and the loop body may change.
variable (table : σ → LinkedTable κ ν) (function : κ × ν → σ → σ)

def foreachBucket (n : Nat) (data : Nat) (s : σ) : Run Empty σ :=
  bucketAt (table s) (asInt data) >>= fun
    | none => .ok s
    | some bucket => Chain.walk (fun s => elementsAt (table s) (asInt data).toNat)
        (fun e s => .ok (function e s)) n (Chain.first bucket.elements) s

def foreachHash (n : Nat) (s : σ) : Run Empty σ :=
  Chain.walk (fun s => (table s).nonemptyBucketIndex) (foreachBucket table function n) n
    (Chain.first (table s).nonemptyBucketIndex) s

def enterBucket (t : LinkedTable κ ν) (bucketIndex : Nat) : Run Empty HashIterator :=
  match Chain.cellAt t.nonemptyBucketIndex bucketIndex with
  | none => .error .outOfBounds
  | some (data,next) =>
    bucketAt t (asInt data) >>= fun
      | none => .error .aborted
      | some bucket => .ok ⟨some bucketIndex,next,
          (Chain.first bucket.elements).map fun a => ((asInt data).toNat,a)⟩

def initHashIterator (t : LinkedTable κ ν) : Run Empty HashIterator :=
  match Chain.first t.nonemptyBucketIndex with
  | none => .ok ⟨none,none,none⟩
  | some bucketIndex => enterBucket t bucketIndex

def iterateHashNext (t : LinkedTable κ ν) :
    Nat → HashIterator → Run Empty (Option (κ × ν) × HashIterator)
  | 0, _ => .error .outOfFuel
  | n + 1, iterator =>
    match iterator.bucketIndex with
    | none => .ok (none,iterator)
    | some _ =>
      match iterator.element with
      | none =>
        match iterator.nextBucketIndex with
        | none => .ok (none,iterator)
        | some bucketIndex => enterBucket t bucketIndex >>= iterateHashNext t n
      | some (i,a) =>
        match Chain.cellAt (elementsAt t i) a with
        | none => .error .outOfBounds
        | some (e,next) => .ok (some e,{ iterator with element := next.map fun a => (i,a) })

-- while ( ( entry = iterate_hash_next( &iter ) ) != NULL ) { ... }
def iterate (k : Nat) : Nat → σ × HashIterator → Run Empty σ
  | 0, _ => .error .outOfFuel
  | n + 1, (s,iterator) =>
    iterateHashNext (table s) k iterator >>= fun
      | (none,_) => .ok s
      | (some e,iterator) => iterate k n (function e s,iterator)

def iterateTable (n : Nat) (s : σ) : Run Empty σ :=
  initHashIterator (table s) >>= fun iterator => iterate table function n n (s,iterator)

end Walks

section Indices

variable {compare : κ → κ → Bool} {hash : κ → UInt32} {good : κ → Prop} {t : LinkedTable κ ν}

theorem entriesAt_eq (t : LinkedTable κ ν) (i : Nat) : entriesAt t i = Chain.contents (elementsAt t i) := by
  rw [entriesAt,elementsAt]
  cases t.buckets i <;> rfl

theorem asInt_small {data : Nat} (h : data < 2 ^ 31) : asInt data = data := by
  rw [asInt,BitVec.toInt_eq_toNat_cond,BitVec.toNat_ofNat]
  omega

theorem asInt_large {data : Nat} (h : 2 ^ 31 ≤ data) (h' : data < 2 ^ 32) : asInt data < 0 := by
  rw [asInt,BitVec.toInt_eq_toNat_cond,BitVec.toNat_ofNat]
  omega

theorem distinct_elements (h : t.Valid compare hash good) (i : Nat) :
    (Chain.addresses (elementsAt t i)).Nodup := by
  rw [elementsAt]
  cases hb : t.buckets i with
  | none => exact .nil
  | some bucket => exact h.distinct i bucket hb

theorem length_elementsAt_le (h : t.Valid compare hash good) (i : Nat) :
    (elementsAt t i).length ≤ (Table.foreachHash t.forget).length := by
  have hlength : (elementsAt t i).length = (t.forget.buckets i).length := by
    rw [buckets_forget,entriesAt_eq,Chain.contents,List.length_map]
  rw [hlength]
  by_cases hi : i ∈ t.forget.nonemptyBucketIndex
  · obtain ⟨pre,rest,hsplit⟩ := List.append_of_mem hi
    rw [Table.foreachHash,hsplit,List.flatMap_append,List.flatMap_cons,List.length_append,
      List.length_append]
    omega
  · have hnil : t.forget.buckets i = [] := by simpa using (h.table.index i).not.mp hi
    rw [hnil]
    exact Nat.zero_le _

theorem index_lt (h : t.Valid compare hash good) {i : Nat}
    (hi : i ∈ Chain.contents t.nonemptyBucketIndex) : i < t.numberOfBuckets.toNat := by
  obtain ⟨e,he⟩ := List.exists_mem_of_ne_nil _ ((h.table.index i).mp hi)
  rw [← h.table.placed i e he]
  exact Nat.mod_lt _ h.sized

theorem bucketAt_small (h : t.Valid compare hash good) {i : Nat}
    (hi : i ∈ Chain.contents t.nonemptyBucketIndex) (hs : i < 2 ^ 31) :
    bucketAt t (asInt i) = .ok (t.buckets i) := by
  have hlt := index_lt h hi
  rw [bucketAt,asInt_small hs,if_pos (by omega)]
  rfl

theorem bucketAt_large {i : Nat} (hi : 2 ^ 31 ≤ i) (hlt : i < 2 ^ 32) :
    bucketAt t (asInt i) = .error .outOfBounds := by
  have := asInt_large hi hlt
  rw [bucketAt,if_neg (by omega)]

theorem index_split (h : t.Valid compare hash good) {pre rest : Chain Nat} {cell : Nat × Nat}
    (hc : t.nonemptyBucketIndex = pre ++ cell :: rest) :
    cell.2 ∈ Chain.contents t.nonemptyBucketIndex ∧ cell.2 ∉ Chain.contents rest ∧ cell.2 < 2 ^ 32 := by
  have hmem : cell.2 ∈ Chain.contents t.nonemptyBucketIndex := by
    rw [hc]
    simp
  have hnodup : (Chain.contents t.nonemptyBucketIndex).Nodup := h.table.nodup
  rw [hc,Chain.contents_append,Chain.contents_cons,List.nodup_append] at hnodup
  exact ⟨hmem,(List.nodup_cons.mp hnodup.2.1).1,(index_lt h hmem).trans (UInt32.toNat_lt _)⟩

end Indices

section Trimming

variable {compare : κ → κ → Bool} {hash : κ → UInt32} {good : κ → Prop} {t t' : LinkedTable κ ν}
  {i : Nat}

-- What deletions from bucket i leave alone: the other buckets and the later part of the index.
structure Trims (compare : κ → κ → Bool) (hash : κ → UInt32) (good : κ → Prop) (i : Nat)
    (t t' : LinkedTable κ ν) : Prop where
  valid : t'.Valid compare hash good
  sized : t'.numberOfBuckets = t.numberOfBuckets
  others : ∀ j, j ≠ i → t'.buckets j = t.buckets j
  shrinks : (elementsAt t' i).length ≤ (elementsAt t i).length
  index : ∀ pre rest, t.nonemptyBucketIndex = pre ++ rest → i ∉ Chain.contents rest →
    ∃ left, t'.nonemptyBucketIndex = left ++ rest

theorem Trims.refl (h : t.Valid compare hash good) (i : Nat) : Trims compare hash good i t t :=
  ⟨h,rfl,fun _ _ => rfl,le_rfl,fun pre _ h _ => ⟨pre,h⟩⟩

theorem Trims.trans {t'' : LinkedTable κ ν} (h : Trims compare hash good i t t')
    (h' : Trims compare hash good i t' t'') : Trims compare hash good i t t'' := by
  refine ⟨h'.valid,h'.sized.trans h.sized,fun j hj => (h'.others j hj).trans (h.others j hj),
    h'.shrinks.trans h.shrinks,fun pre rest heq hi => ?_⟩
  obtain ⟨left,hleft⟩ := h.index pre rest heq hi
  exact h'.index left rest hleft hi

theorem Trims.entries {i j : Nat} {t' : LinkedTable κ ν} (h : Trims compare hash good i t t')
    (hj : j ≠ i) : entriesAt t' j = entriesAt t j := by rw [entriesAt,entriesAt,h.others j hj]

theorem elementsAt_some {bucket : Bucket κ ν} (h : t.buckets i = some bucket) :
    elementsAt t i = bucket.elements := by rw [elementsAt,h]

theorem elementsAt_left {bucket : Bucket κ ν} {e : Nat}
    (h : t'.buckets = (setBucket t i (leftBucket bucket e)).buckets) :
    elementsAt t' i = Chain.unlink bucket.elements e := by
  rw [elementsAt,h,setBucket_self,leftBucket]
  cases hleft : Chain.unlink bucket.elements e with
  | nil => rfl
  | cons cell rest => rfl

-- The entry that a walk was just given is deleted: the elements behind it stay.
theorem delete_presented (hk : KeyFunctions compare hash good) (hrefl : ∀ k, compare k k = true)
    (h : t.Valid compare hash good) {cell : Nat × κ × ν} {pre rest : Chain (κ × ν)}
    (hc : elementsAt t i = pre ++ cell :: rest) :
    Trims compare hash good i t (deleteHashEntry compare hash t cell.2.1).2 ∧
      elementsAt (deleteHashEntry compare hash t cell.2.1).2 i = pre ++ rest := by
  have hmem : cell.2 ∈ t.forget.buckets i := by
    rw [buckets_forget,entriesAt_eq,hc]
    exact Chain.mem_contents (by simp)
  have hi : getBucketIndex hash t cell.2.1 = i := by
    rw [← getBucketIndex_forget]
    exact h.table.placed i _ hmem
  have hvalid := deleteHashEntry_valid hk h cell.2.1
  cases hb : t.buckets i with
  | none =>
    rw [elementsAt,hb] at hc
    exact absurd hc (by simp)
  | some bucket =>
    rw [elementsAt_some hb] at hc
    have hone : AtMostOne (fun e : Nat × κ × ν => compare cell.2.1 e.2.1) bucket.elements := by
      have hbucket := h.table.atMostOne_bucket hk cell.2.1 i
      rw [buckets_forget,entriesAt_some hb] at hbucket
      exact List.pairwise_map.mp hbucket
    have hfind : findElement compare hash t cell.2.1 = some cell := by
      rw [findElement,hi,hb]
      exact hone.find?_eq_some.mpr ⟨by rw [hc]; simp,hrefl _⟩
    obtain ⟨bucket',hb',-,-,t',ht',hbuckets,hindex,hn,-,-⟩ := deleteHashEntry_found hfind
    rw [hi] at hb' hbuckets
    obtain rfl : bucket = bucket' := Option.some.inj (hb.symm.trans hb')
    have hdistinct := h.distinct i bucket hb
    have hleft : elementsAt t' i = pre ++ rest := by
      rw [elementsAt_left hbuckets,hc]
      exact Chain.unlink_append (hc ▸ hdistinct)
    rw [ht'] at hvalid ⊢
    refine ⟨⟨hvalid,hn,fun j hj => ?_,?_,fun ipre irest heq hnot => ?_⟩,hleft⟩
    · rw [hbuckets,setBucket_ne _ _ hj]
    · rw [hleft,elementsAt_some hb,hc]
      simp
    · obtain ⟨element,hdata,hin⟩ := h.backed i bucket hb
      have hout : element ∉ Chain.addresses irest := by
        intro hmem'
        obtain ⟨cell',hcell',rfl⟩ := List.mem_map.mp hmem'
        have hin' : cell' ∈ t.nonemptyBucketIndex := heq ▸ List.mem_append_right _ hcell'
        have hsame : i = cell'.2 :=
          congrArg Prod.snd (Chain.address_injective h.distinctIndex hin hin' rfl)
        exact hnot (hsame ▸ Chain.mem_contents hcell')
      rw [hindex,leftIndex,hdata]
      simp only
      split
      · exact ⟨_,(congrArg (Chain.unlink · element) heq).trans (Chain.unlink_before ipre hout)⟩
      · exact ⟨_,heq⟩

-- What a callback or a loop body may do to the table: delete the entry that it was given.
structure Deletes (compare : κ → κ → Bool) (hash : κ → UInt32) (good : κ → Prop)
    (table : σ → LinkedTable κ ν) (function : κ × ν → σ → σ) (I : σ → Prop) : Prop where
  valid : ∀ s, I s → (table s).Valid compare hash good
  keeps : ∀ s i pre cell rest, I s → elementsAt (table s) i = pre ++ cell :: rest →
    I (function cell.2 s) ∧ Trims compare hash good i (table s) (table (function cell.2 s)) ∧
      ∃ left, elementsAt (table (function cell.2 s)) i = left ++ rest

end Trimming

section Foreach

variable {compare : κ → κ → Bool} {hash : κ → UInt32} {good : κ → Prop} {table : σ → LinkedTable κ ν}
  {function : κ × ν → σ → σ} {I : σ → Prop} (h : Deletes compare hash good table function I)
  {i n : Nat} {s : σ}
include h

theorem Deletes.elements {pre cells : Chain (κ × ν)} (hs : I s)
    (hc : elementsAt (table s) i = pre ++ cells) :
    I ((Chain.contents cells).foldl (fun s e => function e s) s) ∧
      Trims compare hash good i (table s)
        (table ((Chain.contents cells).foldl (fun s e => function e s) s)) := by
  induction cells generalizing s pre with
  | nil => exact ⟨hs,.refl (h.valid s hs) i⟩
  | cons cell rest ih =>
    obtain ⟨hnext,htrims,left,hleft⟩ := h.keeps s i pre cell rest hs hc
    obtain ⟨hlast,hrest⟩ := ih hnext hleft
    exact ⟨hlast,htrims.trans hrest⟩

theorem Deletes.walk_bucket (hs : I s) (hn : (elementsAt (table s) i).length ≤ n) :
    Chain.walk (fun s => elementsAt (table s) i) (fun e s => (.ok (function e s) : Run Empty σ)) n
        (Chain.first (elementsAt (table s) i)) s =
      .ok ((entriesAt (table s) i).foldl (fun s e => function e s) s) := by
  have hspares : Chain.Spares (fun s => elementsAt (table s) i)
      (fun e s => (.ok (function e s) : Run Empty σ)) I := by
    intro s t pre cell rest hs hc hbody
    obtain rfl := Except.ok.inj hbody
    obtain ⟨hnext,-,hleft⟩ := h.keeps s i pre cell rest hs hc
    exact ⟨hnext,hleft⟩
  have hdistinct : ∀ s, I s → (Chain.addresses (elementsAt (table s) i)).Nodup :=
    fun s hs => distinct_elements (h.valid s hs) i
  refine (Chain.walk_all hdistinct hspares hs hn).trans ((Chain.visited_ok _ _ s).trans ?_)
  rw [entriesAt_eq]

theorem Deletes.foreachBucket_small (hs : I s)
    (hi : i ∈ Chain.contents (table s).nonemptyBucketIndex) (hsmall : i < 2 ^ 31)
    (hn : (elementsAt (table s) i).length ≤ n) :
    foreachBucket table function n i s =
      .ok ((entriesAt (table s) i).foldl (fun s e => function e s) s) := by
  have hvalid := h.valid s hs
  rw [foreachBucket,bucketAt_small hvalid hi hsmall,ok_bind]
  cases hb : (table s).buckets i with
  | none => exact absurd (entriesAt_none hb) ((hvalid.table.index i).mp hi)
  | some bucket =>
    simp only [asInt_small hsmall,Int.toNat_natCast]
    rw [← elementsAt_some hb]
    exact h.walk_bucket hs hn

omit h in
theorem foreachBucket_large (hi : 2 ^ 31 ≤ i) (hlt : i < 2 ^ 32) :
    foreachBucket table function n i s = .error .outOfBounds := by
  rw [foreachBucket,bucketAt_large hi hlt]
  rfl

def Roomy (table : σ → LinkedTable κ ν) (I : σ → Prop) (n : Nat) (s : σ) : Prop :=
  I s ∧ ∀ i, (elementsAt (table s) i).length ≤ n

omit h in
theorem Trims.roomy {t : σ} (htrims : Trims compare hash good i (table s) (table t)) (ht : I t)
    (hs : Roomy table I n s) : Roomy table I n t := by
  refine ⟨ht,fun j => ?_⟩
  by_cases hj : j = i
  · rw [hj]
    exact htrims.shrinks.trans (hs.2 i)
  · rw [elementsAt,htrims.others j hj]
    exact hs.2 j

theorem Deletes.bucket (hs : Roomy table I n s) {pre rest : Chain Nat} {cell : Nat × Nat}
    (hc : (table s).nonemptyBucketIndex = pre ++ cell :: rest) (hsmall : cell.2 < 2 ^ 31) :
    ∃ t, foreachBucket table function n cell.2 s = .ok t ∧
      t = (entriesAt (table s) cell.2).foldl (fun s e => function e s) s ∧ Roomy table I n t ∧
      (∃ left, (table t).nonemptyBucketIndex = left ++ rest) ∧
      ∀ i ∈ Chain.contents rest, entriesAt (table t) i = entriesAt (table s) i := by
  obtain ⟨hmem,hnot,-⟩ := index_split (h.valid s hs.1) hc
  obtain ⟨ht,htrims⟩ := h.elements hs.1 (List.nil_append (elementsAt (table s) cell.2)).symm
  rw [← entriesAt_eq] at ht htrims
  refine ⟨_,h.foreachBucket_small hs.1 hmem hsmall (hs.2 cell.2),rfl,htrims.roomy ht hs,?_,?_⟩
  · exact htrims.index (pre ++ [cell]) rest (by rw [hc]; simp) hnot
  · intro i hi
    refine htrims.entries ?_
    rintro rfl
    exact hnot hi

theorem Deletes.visited_small (hs : Roomy table I n s) {pre cells : Chain Nat}
    (hc : (table s).nonemptyBucketIndex = pre ++ cells) (hsmall : ∀ i ∈ Chain.contents cells, i < 2 ^ 31) :
    Chain.visited (foreachBucket table function n) (Chain.contents cells) s =
      .ok (((Chain.contents cells).flatMap (entriesAt (table s))).foldl (fun s e => function e s) s) := by
  induction cells generalizing s pre with
  | nil => rfl
  | cons cell rest ih =>
    obtain ⟨t,hok,ht,hroomy,⟨left,hleft⟩,hothers⟩ := h.bucket hs hc (hsmall _ (by simp))
    have hrest := ih hroomy hleft fun i hi => hsmall i (by simp [hi])
    rw [List.flatMap_congr hothers] at hrest
    rw [Chain.visited,Chain.contents_cons,List.foldlM_cons,hok,List.flatMap_cons,List.foldl_append,← ht]
    exact hrest

theorem Deletes.visited_large (hs : Roomy table I n s) {pre cells : Chain Nat}
    (hc : (table s).nonemptyBucketIndex = pre ++ cells) (hi : i ∈ Chain.contents cells)
    (hlarge : 2 ^ 31 ≤ i) :
    Chain.visited (foreachBucket table function n) (Chain.contents cells) s = .error .outOfBounds := by
  induction cells generalizing s pre with
  | nil => exact absurd hi (by simp)
  | cons cell rest ih =>
    obtain ⟨-,-,hlt⟩ := index_split (h.valid s hs.1) hc
    rw [Chain.visited,Chain.contents_cons,List.foldlM_cons]
    rcases Nat.lt_or_ge cell.2 (2 ^ 31) with hsmall | hcell
    · obtain ⟨t,hok,-,hroomy,⟨left,hleft⟩,-⟩ := h.bucket hs hc hsmall
      rw [hok]
      refine ih hroomy hleft ?_
      rcases List.mem_cons.mp hi with rfl | hi
      · omega
      · exact hi
    · rw [foreachBucket_large hcell hlt]
      rfl

theorem Deletes.foreachHash_eq (hs : Roomy table I n s) (hn : (table s).nonemptyBucketIndex.length ≤ n) :
    foreachHash table function n s =
      Chain.visited (foreachBucket table function n) (Chain.contents (table s).nonemptyBucketIndex) s := by
  have hspares : Chain.Spares (fun s => (table s).nonemptyBucketIndex) (foreachBucket table function n)
      (Roomy table I n) := by
    intro s t pre cell rest hs hc hbody
    obtain ⟨-,-,hlt⟩ := index_split (h.valid s hs.1) hc
    rcases Nat.lt_or_ge cell.2 (2 ^ 31) with hsmall | hcell
    · obtain ⟨t',hok,-,hroomy,hleft,-⟩ := h.bucket hs hc hsmall
      obtain rfl := Except.ok.inj (hok.symm.trans hbody)
      exact ⟨hroomy,hleft⟩
    · rw [foreachBucket_large hcell hlt] at hbody
      exact absurd hbody (by simp)
  exact Chain.walk_all (fun s hs => (h.valid s hs.1).distinctIndex) hspares hs hn

theorem Deletes.foreachHash (hs : I s) (hn : (table s).nonemptyBucketIndex.length +
    (Table.foreachHash (table s).forget).length ≤ n) :
    ((∀ i ∈ Chain.contents (table s).nonemptyBucketIndex, i < 2 ^ 31) →
      foreachHash table function n s =
        .ok ((Table.foreachHash (table s).forget).foldl (fun s e => function e s) s)) ∧
    ((∃ i ∈ Chain.contents (table s).nonemptyBucketIndex, 2 ^ 31 ≤ i) →
      foreachHash table function n s = .error .outOfBounds) := by
  have hroomy : Roomy table I n s :=
    ⟨hs,fun i => (length_elementsAt_le (h.valid s hs) i).trans (by omega)⟩
  rw [h.foreachHash_eq hroomy (by omega)]
  refine ⟨fun hsmall => h.visited_small hroomy (List.nil_append _).symm hsmall,?_⟩
  rintro ⟨i,hi,hlarge⟩
  exact h.visited_large hroomy (List.nil_append _).symm hi hlarge

end Foreach

section Iterator

variable {compare : κ → κ → Bool} {hash : κ → UInt32} {good : κ → Prop} {t : LinkedTable κ ν}

theorem entered_bucket (h : t.Valid compare hash good) {pre rest : Chain Nat} {cell : Nat × Nat}
    (hc : t.nonemptyBucketIndex = pre ++ cell :: rest) (hs : cell.2 < 2 ^ 31) :
    enterBucket t cell.1 = .ok ⟨some cell.1,Chain.first rest,
        (Chain.first (elementsAt t cell.2)).map fun a => (cell.2,a)⟩ ∧ elementsAt t cell.2 ≠ [] := by
  obtain ⟨hmem,-,-⟩ := index_split h hc
  have hcell : Chain.cellAt t.nonemptyBucketIndex cell.1 = some (cell.2,Chain.first rest) := by
    rw [hc]
    exact Chain.cellAt_append (hc ▸ h.distinctIndex)
  rw [enterBucket,hcell]
  simp only
  rw [bucketAt_small h hmem hs,ok_bind]
  cases hb : t.buckets cell.2 with
  | none => exact absurd (entriesAt_none hb) ((h.table.index cell.2).mp hmem)
  | some bucket =>
    rw [elementsAt_some hb,asInt_small hs]
    exact ⟨rfl,h.occupied _ bucket hb⟩

theorem enter_beyond (h : t.Valid compare hash good) {pre rest : Chain Nat} {cell : Nat × Nat}
    (hc : t.nonemptyBucketIndex = pre ++ cell :: rest) (hlarge : 2 ^ 31 ≤ cell.2) :
    enterBucket t cell.1 = .error .outOfBounds := by
  obtain ⟨-,-,hlt⟩ := index_split h hc
  have hcell : Chain.cellAt t.nonemptyBucketIndex cell.1 = some (cell.2,Chain.first rest) := by
    rw [hc]
    exact Chain.cellAt_append (hc ▸ h.distinctIndex)
  rw [enterBucket,hcell]
  simp only
  rw [bucketAt_large hlarge hlt]
  rfl

theorem iterateHashNext_element (h : t.Valid compare hash good) {b : Nat} {next : Option Nat} {i k : Nat}
    {left rest : Chain (κ × ν)} {cell : Nat × κ × ν} (hc : elementsAt t i = left ++ cell :: rest) :
    iterateHashNext t (k + 1) ⟨some b,next,some (i,cell.1)⟩ =
      .ok (some cell.2,⟨some b,next,(Chain.first rest).map fun a => (i,a)⟩) := by
  have hcell : Chain.cellAt (elementsAt t i) cell.1 = some (cell.2,Chain.first rest) := by
    rw [hc]
    exact Chain.cellAt_append (hc ▸ distinct_elements h i)
  simp only [iterateHashNext,hcell]

theorem iterateHashNext_bucket {b a k : Nat} :
    iterateHashNext t (k + 1) ⟨some b,some a,none⟩ = enterBucket t a >>= iterateHashNext t k := rfl

def todo (t : LinkedTable κ ν) (rest : Chain (κ × ν)) (cells : Chain Nat) : List (κ × ν) :=
  Chain.contents rest ++ (Chain.contents cells).flatMap (entriesAt t)

theorem todo_trimmed {i : Nat} {t' : LinkedTable κ ν} (h : Trims compare hash good i t t')
    {cells : Chain Nat} (hi : i ∉ Chain.contents cells) (cell : Nat × κ × ν) (rest : Chain (κ × ν)) :
    todo t (cell :: rest) cells = cell.2 :: todo t' rest cells := by
  have hothers : (Chain.contents cells).flatMap (entriesAt t') =
      (Chain.contents cells).flatMap (entriesAt t) := by
    refine List.flatMap_congr fun j hj => h.entries ?_
    rintro rfl
    exact hi hj
  rw [todo,todo,hothers]
  rfl

variable {table : σ → LinkedTable κ ν} {function : κ × ν → σ → σ} {I : σ → Prop}

def Iterates (table : σ → LinkedTable κ ν) (function : κ × ν → σ → σ) (k n : Nat) (s : σ)
    (iterator : HashIterator) (entries : List (κ × ν)) (cells : Chain Nat) : Prop :=
  ((∀ j ∈ Chain.contents cells, j < 2 ^ 31) → iterate table function k n (s,iterator) =
    .ok (entries.foldl (fun s e => function e s) s)) ∧
  ((∃ j ∈ Chain.contents cells, 2 ^ 31 ≤ j) →
    iterate table function k n (s,iterator) = .error .outOfBounds)

theorem iterates_next {k n : Nat} {s : σ} {iterator iterator' : HashIterator} {e : κ × ν}
    {entries : List (κ × ν)} {cells : Chain Nat}
    (hnext : iterateHashNext (table s) k iterator = .ok (some e,iterator'))
    (h : Iterates table function k n (function e s) iterator' entries cells) :
    Iterates table function k (n + 1) s iterator (e :: entries) cells := by
  have hstep : iterate table function k (n + 1) (s,iterator) =
      iterate table function k n (function e s,iterator') := by
    rw [iterate,hnext]
    rfl
  rw [Iterates,hstep]
  exact h

variable (h : Deletes compare hash good table function I)
include h

theorem Deletes.iterates {n k b i : Nat} {s : σ} (hs : I s) {pre cells : Chain Nat}
    {left rest : Chain (κ × ν)} (hindex : (table s).nonemptyBucketIndex = pre ++ cells)
    (hc : elementsAt (table s) i = left ++ rest) (hi : i ∉ Chain.contents cells)
    (hn : (todo (table s) rest cells).length < n) :
    Iterates table function (k + 2) n s
      ⟨some b,Chain.first cells,(Chain.first rest).map fun a => (i,a)⟩ (todo (table s) rest cells)
      cells := by
  induction n generalizing s b i pre cells left rest with
  | zero => exact absurd hn (by omega)
  | succ n ih =>
    have hvalid := h.valid s hs
    -- The step that gives an element to the body: the rest is what the induction is about.
    have hgive : ∀ {b i : Nat} {pre cells : Chain Nat} {left rest : Chain (κ × ν)}
        {cell : Nat × κ × ν} {iterator : HashIterator}, (table s).nonemptyBucketIndex = pre ++ cells →
        elementsAt (table s) i = left ++ cell :: rest → i ∉ Chain.contents cells →
        (todo (table s) (cell :: rest) cells).length < n + 1 →
        iterateHashNext (table s) (k + 2) iterator =
          .ok (some cell.2,⟨some b,Chain.first cells,(Chain.first rest).map fun a => (i,a)⟩) →
        Iterates table function (k + 2) (n + 1) s iterator (todo (table s) (cell :: rest) cells)
          cells := by
      intro b i pre cells left rest cell iterator hindex hc hi hn hnext
      obtain ⟨hs',htrims,left',hleft⟩ := h.keeps s i left cell rest hs hc
      obtain ⟨pre',hpre⟩ := htrims.index pre cells hindex hi
      rw [todo_trimmed htrims hi,List.length_cons] at hn
      rw [todo_trimmed htrims hi]
      exact iterates_next hnext (ih hs' hpre hleft hi (by omega))
    cases rest with
    | cons cell rest => exact hgive hindex hc hi hn (iterateHashNext_element hvalid hc)
    | nil =>
      cases cells with
      | nil =>
        refine ⟨fun _ => rfl,?_⟩
        rintro ⟨j,hj,-⟩
        exact absurd hj (by simp)
      | cons cell cells =>
        obtain ⟨-,hnot,-⟩ := index_split hvalid hindex
        rcases Nat.lt_or_ge cell.2 (2 ^ 31) with hsmall | hcell
        · obtain ⟨henter,hne⟩ := entered_bucket hvalid hindex hsmall
          cases helements : elementsAt (table s) cell.2 with
          | nil => exact absurd helements hne
          | cons element rest =>
            have htodo : todo (table s) [] (cell :: cells) = todo (table s) (element :: rest) cells := by
              rw [todo,todo,Chain.contents_cons,List.flatMap_cons,entriesAt_eq,helements]
              rfl
            have hnext : iterateHashNext (table s) (k + 2) ⟨some b,some cell.1,none⟩ =
                .ok (some element.2,⟨some cell.1,Chain.first cells,
                  (Chain.first rest).map fun a => (cell.2,a)⟩) := by
              rw [iterateHashNext_bucket,henter,helements,ok_bind]
              exact iterateHashNext_element hvalid (helements.trans (List.nil_append _).symm)
            have hbehind : (table s).nonemptyBucketIndex = (pre ++ [cell]) ++ cells := by
              simpa using hindex
            rw [htodo] at hn ⊢
            have hrest := hgive hbehind (helements.trans (List.nil_append _).symm) hnot hn hnext
            refine ⟨fun hall => hrest.1 fun j hj => hall j (by simp [hj]),?_⟩
            rintro ⟨j,hj,hlarge⟩
            rcases List.mem_cons.mp hj with rfl | hj
            · omega
            · exact hrest.2 ⟨j,hj,hlarge⟩
        · refine ⟨fun hall => ?_,fun _ => ?_⟩
          · have := hall cell.2 (by simp)
            omega
          · rw [iterate]
            change (iterateHashNext (table s) (k + 2) ⟨some b,some cell.1,none⟩ >>= _) = _
            rw [iterateHashNext_bucket,enter_beyond hvalid hindex hcell]
            rfl

theorem Deletes.iterateTable {n : Nat} {s : σ} (hs : I s)
    (hn : (Table.foreachHash (table s).forget).length + 2 ≤ n) :
    ((∀ i ∈ Chain.contents (table s).nonemptyBucketIndex, i < 2 ^ 31) →
      iterateTable table function n s =
        .ok ((Table.foreachHash (table s).forget).foldl (fun s e => function e s) s)) ∧
    ((∃ i ∈ Chain.contents (table s).nonemptyBucketIndex, 2 ^ 31 ≤ i) →
      iterateTable table function n s = .error .outOfBounds) := by
  obtain ⟨n,rfl⟩ : ∃ m, n = m + 2 := ⟨n - 2,by omega⟩
  have hvalid := h.valid s hs
  cases hindex : (table s).nonemptyBucketIndex with
  | nil =>
    have hnone : Table.foreachHash (table s).forget = [] := by
      change (Chain.contents (table s).nonemptyBucketIndex).flatMap _ = []
      rw [hindex]
      rfl
    refine ⟨fun _ => ?_,?_⟩
    · rw [LinkedTable.iterateTable,initHashIterator,hnone]
      simp only [hindex,Chain.first,ok_bind]
      rfl
    · rintro ⟨i,hi,-⟩
      exact absurd hi (by simp)
  | cons cell cells =>
    have hsplit : (table s).nonemptyBucketIndex = [] ++ cell :: cells := hindex
    obtain ⟨-,hnot,-⟩ := index_split hvalid hsplit
    have hall : Table.foreachHash (table s).forget =
        todo (table s) (elementsAt (table s) cell.2) cells := by
      change (Chain.contents (table s).nonemptyBucketIndex).flatMap (entriesAt (table s)) = _
      rw [hindex,Chain.contents_cons,List.flatMap_cons,entriesAt_eq]
      rfl
    have hinit : LinkedTable.iterateTable table function (n + 2) s =
        enterBucket (table s) cell.1 >>= fun iterator =>
          iterate table function (n + 2) (n + 2) (s,iterator) := by
      rw [LinkedTable.iterateTable,initHashIterator]
      simp only [hindex,Chain.first]
    rw [hinit]
    rcases Nat.lt_or_ge cell.2 (2 ^ 31) with hsmall | hcell
    · obtain ⟨henter,-⟩ := entered_bucket hvalid hsplit hsmall
      have hbehind : (table s).nonemptyBucketIndex = [cell] ++ cells := hindex
      rw [henter,ok_bind]
      rw [hall] at hn ⊢
      obtain ⟨hrest,hlarge⟩ := h.iterates (b := cell.1) (k := n) (n := n + 2) hs hbehind
        (List.nil_append _).symm hnot (by omega)
      refine ⟨fun hcells => hrest fun j hj => hcells j (by simp [hj]),?_⟩
      rintro ⟨j,hj,hbeyond⟩
      rcases List.mem_cons.mp hj with rfl | hj
      · omega
      · exact hlarge ⟨j,hj,hbeyond⟩
    · rw [enter_beyond hvalid hsplit hcell]
      refine ⟨fun hcells => ?_,fun _ => rfl⟩
      have := hcells cell.2 (by simp)
      omega

end Iterator

end LinkedTable

end Trema.Table
