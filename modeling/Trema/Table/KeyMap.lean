import Trema.Table.LinkedHash
import Mathlib.Data.Set.Card

namespace Trema.Table

open Library

variable {κ ν : Type}

inductive HashOperation (κ ν : Type) where
  | insert (key : κ) (value : ν)
  | lookup (key : κ)
  | delete (key : κ)

namespace LinkedTable

variable (compare : κ → κ → Bool) (hash : κ → UInt32)

def step (t : LinkedTable κ ν) : HashOperation κ ν → Option ν × LinkedTable κ ν
  | .insert key value => insertHashEntry compare hash t key value
  | .lookup key => (lookupHashEntry compare hash t key,t)
  | .delete key => deleteHashEntry compare hash t key

def run (t : LinkedTable κ ν) : List (HashOperation κ ν) → List (Option ν) × LinkedTable κ ν
  | [] => ([],t)
  | op :: ops =>
    let r := run (step compare hash t op).2 ops
    ((step compare hash t op).1 :: r.1,r.2)

end LinkedTable

section Maps

variable {compare : κ → κ → Bool} (he : Equivalence fun a b => compare a b = true)

def keyClasses : Setoid κ := ⟨fun a b => compare a b = true,he⟩

-- A finite map on the classes of keys: the key that is stored for a class and its value.
abbrev KeyMap (ν : Type) := Quotient (keyClasses he) → Option (κ × ν)

variable {he}

def classOf (he : Equivalence fun a b => compare a b = true) (key : κ) : Quotient (keyClasses he) :=
  Quotient.mk (keyClasses he) key

namespace KeyMap

def empty : KeyMap he ν := fun _ => none

def find (m : KeyMap he ν) (key : κ) : Option (κ × ν) := m (classOf he key)

def bindings (m : KeyMap he ν) : Set (Quotient (keyClasses he)) := {c | (m c).isSome = true}

open Classical in
noncomputable def bind (m : KeyMap he ν) (key : κ) (e : Option (κ × ν)) : KeyMap he ν :=
  Function.update m (classOf he key) e

noncomputable def step (m : KeyMap he ν) : HashOperation κ ν → Option ν × KeyMap he ν
  | .insert key value => ((m.find key).map Prod.snd,m.bind key (some (key,value)))
  | .lookup key => ((m.find key).map Prod.snd,m)
  | .delete key => ((m.find key).map Prod.snd,m.bind key none)

noncomputable def run (m : KeyMap he ν) : List (HashOperation κ ν) → List (Option ν) × KeyMap he ν
  | [] => ([],m)
  | op :: ops =>
    let r := run (m.step op).2 ops
    ((m.step op).1 :: r.1,r.2)

end KeyMap

theorem classOf_eq {a b : κ} : classOf he a = classOf he b ↔ compare a b = true :=
  Quotient.eq (r := keyClasses he)

open Classical in
theorem find_bind (m : KeyMap he ν) (key key' : κ) (e : Option (κ × ν)) :
    (m.bind key e).find key' = if compare key' key then e else m.find key' := by
  rw [KeyMap.find,KeyMap.bind]
  split
  · rename_i hc
    rw [classOf_eq.mpr hc,Function.update_self]
  · rename_i hc
    rw [Function.update_of_ne fun heq => hc (classOf_eq.mp heq)]
    rfl

end Maps

section Refinement

variable {compare : κ → κ → Bool} {he : Equivalence fun a b => compare a b = true}
  {hash : κ → UInt32} {t : LinkedTable κ ν} {m : KeyMap he ν}

theorem class_keys (he : Equivalence fun a b => compare a b = true)
    (hhash : ∀ a b, compare a b = true → hash a = hash b) :
    KeyFunctions compare hash fun _ => True :=
  ⟨fun _ _ => he.symm,fun _ _ _ => he.trans,fun a b _ => hhash a b⟩

theorem KeyFunctions.comm {good : κ → Prop} (hk : KeyFunctions compare hash good) (a b : κ) :
    compare a b = compare b a := Bool.eq_iff_iff.mpr ⟨hk.symm a b,hk.symm b a⟩

structure Holds (hash : κ → UInt32) (t : LinkedTable κ ν) (m : KeyMap he ν) : Prop where
  valid : t.Valid compare hash fun _ => True
  bound : ∀ key, m.find key = (foreachHash t.forget).find? fun e => compare key e.1

variable (hhash : ∀ a b, compare a b = true → hash a = hash b)
include hhash

theorem Holds.lookup (h : Holds hash t m) (key : κ) :
    LinkedTable.lookupHashEntry compare hash t key = (m.find key).map Prod.snd := by
  rw [LinkedTable.lookupHashEntry_forget,lookupHashEntry_eq (class_keys he hhash) h.valid.table,
    h.bound]

theorem Holds.step (h : Holds hash t m) (op : HashOperation κ ν) :
    (LinkedTable.step compare hash t op).1 = (m.step op).1 ∧
      Holds hash (LinkedTable.step compare hash t op).2 (m.step op).2 ∧
      (LinkedTable.step compare hash t op).2.numberOfBuckets = t.numberOfBuckets := by
  have hk := class_keys he hhash
  cases op with
  | insert key value =>
    refine ⟨h.lookup hhash key,⟨LinkedTable.insertHashEntry_valid hk h.valid value trivial,fun key' => ?_⟩,?_⟩
    · change (m.bind key _).find key' = (foreachHash (LinkedTable.insertHashEntry _ _ _ _ _).2.forget).find? _
      rw [LinkedTable.forget_insertHashEntry hk h.valid,find_insertHashEntry hk h.valid.table value trivial,
        find_bind,h.bound]
    · exact LinkedTable.numberOfBuckets_insertHashEntry h.valid key value
  | lookup key => exact ⟨h.lookup hhash key,h,rfl⟩
  | delete key =>
    refine ⟨?_,⟨LinkedTable.deleteHashEntry_valid hk h.valid key,fun key' => ?_⟩,
      LinkedTable.numberOfBuckets_deleteHashEntry h.valid key⟩
    · refine ((LinkedTable.forget_deleteHashEntry h.valid key).1).trans ?_
      rw [fst_deleteHashEntry,← LinkedTable.lookupHashEntry_forget]
      exact h.lookup hhash key
    · change (m.bind key _).find key' = (foreachHash (LinkedTable.deleteHashEntry _ _ _ _).2.forget).find? _
      rw [(LinkedTable.forget_deleteHashEntry h.valid key).2,foreach_deleteHashEntry hk h.valid.table,
        find?_filter_key hk,find_bind,h.bound,hk.comm]

theorem Holds.run (h : Holds hash t m) (ops : List (HashOperation κ ν)) :
    (LinkedTable.run compare hash t ops).1 = (m.run ops).1 ∧
      Holds hash (LinkedTable.run compare hash t ops).2 (m.run ops).2 ∧
      (LinkedTable.run compare hash t ops).2.numberOfBuckets = t.numberOfBuckets := by
  induction ops generalizing t m with
  | nil => exact ⟨rfl,h,rfl⟩
  | cons op ops ih =>
    obtain ⟨ha,hnext,hn⟩ := h.step hhash op
    obtain ⟨has,hrest,hns⟩ := ih hnext
    refine ⟨?_,hrest,hns.trans hn⟩
    change (LinkedTable.step compare hash t op).1 :: (LinkedTable.run compare hash _ ops).1 = _ :: _
    rw [ha,has]

end Refinement

section Invariants

variable {compare : κ → κ → Bool} {he : Equivalence fun a b => compare a b = true}
  {hash : κ → UInt32} {t : LinkedTable κ ν} {m : KeyMap he ν}

theorem holds_create (he : Equivalence fun a b => compare a b = true) (hash : κ → UInt32) {size : UInt32}
    (hsize : 0 < size) :
    Holds hash (LinkedTable.createHashWithSize size : LinkedTable κ ν) (KeyMap.empty : KeyMap he ν) :=
  ⟨LinkedTable.createHashWithSize_valid _ _ _ hsize,fun _ => rfl⟩

variable (hhash : ∀ a b, compare a b = true → hash a = hash b)
include hhash

theorem Holds.bound_iff (h : Holds hash t m) {key : κ} {e : κ × ν} :
    m.find key = some e ↔ e ∈ foreachHash t.forget ∧ compare key e.1 = true := by
  rw [h.bound,(h.valid.table.atMostOne (class_keys he hhash) key).find?_eq_some]

theorem Holds.bindings_eq (h : Holds hash t m) :
    m.bindings = {c | c ∈ (foreachHash t.forget).map fun e => classOf he e.1} := by
  ext c
  obtain ⟨key,rfl⟩ := Quotient.exists_rep c
  change (m.find key).isSome = true ↔ _
  rw [Option.isSome_iff_exists,Set.mem_ofPred_eq,List.mem_map]
  simp only [h.bound_iff hhash]
  constructor
  · rintro ⟨e,hmem,hc⟩
    exact ⟨e,hmem,classOf_eq.mpr (he.symm hc)⟩
  · rintro ⟨e,hmem,heq⟩
    exact ⟨e,hmem,he.symm (classOf_eq.mp heq)⟩

theorem Holds.ncard_bindings (h : Holds hash t m) :
    m.bindings.ncard = (foreachHash t.forget).length := by
  classical
  have hnodup : ((foreachHash t.forget).map fun e => classOf he e.1).Nodup := by
    refine List.pairwise_map.mpr ((h.valid.table.keys_distinct (class_keys he hhash)).imp ?_)
    exact fun hne heq => hne (classOf_eq.mp heq)
  rw [h.bindings_eq hhash,← List.coe_toFinset,Set.ncard_coe_finset,List.toFinset_card_of_nodup hnodup,
    List.length_map]

theorem Holds.length_eq (h : Holds hash t m) : t.length.toNat = m.bindings.ncard % 2 ^ 32 := by
  rw [h.valid.counted,h.ncard_bindings hhash,UInt32.toNat_ofNat']

theorem Holds.entries_of_class (h : Holds hash t m) (key : κ) (i : Nat) :
    (LinkedTable.entriesAt t i).filter (fun e => compare key e.1) =
      if i = LinkedTable.getBucketIndex hash t key then (m.find key).toList else [] := by
  have hk := class_keys he hhash
  have hone := h.valid.table.atMostOne_bucket hk key i
  rw [LinkedTable.buckets_forget] at hone
  split
  · rename_i hi
    rw [hone.filter_eq]
    refine congrArg _ (Option.ext fun e => ?_)
    rw [hone.find?_eq_some,h.bound_iff hhash]
    refine and_congr_left fun hc => ?_
    have hsame : LinkedTable.getBucketIndex hash t e.1 = i := by
      rw [hi,LinkedTable.getBucketIndex,LinkedTable.getBucketIndex,hhash key e.1 hc]
    rw [h.valid.table.mem_foreach,LinkedTable.getBucketIndex_forget,hsame]
    rfl
  · rename_i hi
    refine List.filter_eq_nil_iff.mpr fun e hmem hc => hi ?_
    rw [← LinkedTable.getBucketIndex_forget]
    exact (h.valid.table.bucket_of_compare hk hmem hc).symm

omit hhash in
theorem Holds.index (h : Holds hash t m) :
    (Chain.contents t.nonemptyBucketIndex).Nodup ∧
      ∀ i, i ∈ Chain.contents t.nonemptyBucketIndex ↔ (t.buckets i).isSome = true := by
  refine ⟨h.valid.table.nodup,fun i => (h.valid.table.index i).trans ?_⟩
  rw [LinkedTable.buckets_forget,Ne,LinkedTable.entriesAt_eq_nil h.valid,Option.isSome_iff_ne_none]

omit hhash in
theorem Holds.back_pointer (h : Holds hash t m) {i : Nat} {bucket : Bucket κ ν}
    (hb : t.buckets i = some bucket) :
    bucket.elements ≠ [] ∧ ∃ element, bucket.data = some element ∧
      t.nonemptyBucketIndex.filter (fun cell => cell.1 == element) = [(element,i)] := by
  obtain ⟨element,hdata,hmem⟩ := h.valid.backed i bucket hb
  refine ⟨h.valid.occupied i bucket hb,element,hdata,?_⟩
  have hone : AtMostOne (fun cell : Nat × Nat => cell.1 == element) t.nonemptyBucketIndex := by
    refine atMostOne_of_keys (R := fun a b => a.1 = b.1) (List.pairwise_map.mp h.valid.distinctIndex) ?_
    intro a b ha hb
    exact (eq_of_beq ha).trans (eq_of_beq hb).symm
  rw [hone.filter_eq,hone.find?_eq_some.mpr ⟨hmem,beq_self_eq_true _⟩]
  rfl

end Invariants

theorem hash_table_refines (compare : κ → κ → Bool) (hash : κ → UInt32)
    (he : Equivalence fun a b => compare a b = true)
    (hhash : ∀ a b, compare a b = true → hash a = hash b) (size : UInt32) (hsize : 0 < size)
    (ops : List (HashOperation κ ν)) :
    let r := LinkedTable.run compare hash (LinkedTable.createHashWithSize size) ops
    let m := KeyMap.run (KeyMap.empty : KeyMap he ν) ops
    r.1 = m.1 ∧
    r.2.length.toNat = m.2.bindings.ncard % 2 ^ 32 ∧
    (∀ key i, (LinkedTable.entriesAt r.2 i).filter (fun e => compare key e.1) =
      if i = LinkedTable.getBucketIndex hash r.2 key then (m.2.find key).toList else []) ∧
    (Chain.contents r.2.nonemptyBucketIndex).Nodup ∧
    (∀ i, i ∈ Chain.contents r.2.nonemptyBucketIndex ↔ (r.2.buckets i).isSome = true) ∧
    ∀ i bucket, r.2.buckets i = some bucket → bucket.elements ≠ [] ∧
      ∃ element, bucket.data = some element ∧
        r.2.nonemptyBucketIndex.filter (fun cell => cell.1 == element) = [(element,i)] := by
  intro r m
  obtain ⟨hanswers,h,-⟩ := (holds_create he hash hsize).run hhash ops
  exact ⟨hanswers,h.length_eq hhash,h.entries_of_class hhash,h.index.1,h.index.2,
    fun i bucket hb => h.back_pointer hb⟩

section Instances

def sameResidue (a b : Nat) : Bool := a % 8 == b % 8

theorem sameResidue_equivalence : Equivalence fun a b => sameResidue a b = true := by
  refine ⟨fun a => beq_self_eq_true _,fun {a b} h => ?_,fun {a b c} h h' => ?_⟩
  · exact beq_iff_eq.mpr (eq_of_beq h).symm
  · exact beq_iff_eq.mpr ((eq_of_beq h).trans (eq_of_beq h'))

theorem residues_refine :
    (KeyMap.run (KeyMap.empty : KeyMap sameResidue_equivalence Nat)
      [.insert 1 10,.insert 9 20,.insert 4 30,.lookup 17,.delete 4,.lookup 12]).1 =
        [none,some 10,none,some 20,some 30,none] := by
  have hhash : ∀ a b, sameResidue a b = true → UInt32.ofNat (a % 8) = UInt32.ofNat (b % 8) :=
    fun a b h => congrArg UInt32.ofNat (eq_of_beq h)
  rw [← (hash_table_refines sameResidue (fun key => UInt32.ofNat (key % 8)) sameResidue_equivalence
    hhash 3 (by decide) _).1]
  decide +kernel

def sameKey (a b : Nat) : Bool := a == b

theorem sameKey_equivalence : Equivalence fun a b => sameKey a b = true :=
  ⟨fun a => beq_self_eq_true a,fun h => beq_iff_eq.mpr (eq_of_beq h).symm,
    fun h h' => beq_iff_eq.mpr ((eq_of_beq h).trans (eq_of_beq h'))⟩

theorem run_append (m : KeyMap sameKey_equivalence Unit) (ops ops' : List (HashOperation Nat Unit)) :
    (m.run (ops ++ ops')).2 = ((m.run ops).2.run ops').2 := by
  induction ops generalizing m with
  | nil => rfl
  | cons op ops ih => exact ih _

theorem find_of_inserts (n key : Nat) :
    (KeyMap.run (KeyMap.empty : KeyMap sameKey_equivalence Unit)
      ((List.range n).map fun key => .insert key ())).2.find key =
        if key < n then some (key,()) else none := by
  induction n with
  | zero => rfl
  | succ n ih =>
    rw [List.range_succ,List.map_append,run_append]
    refine (find_bind _ _ _ _).trans ?_
    rw [ih]
    by_cases hkey : key = n
    · rw [hkey,if_pos (sameKey_equivalence.refl n),if_pos (by omega)]
    · rw [if_neg (by simpa [sameKey] using hkey)]
      exact if_congr (by omega) rfl rfl

theorem bindings_of_inserts (n : Nat) :
    (KeyMap.run (KeyMap.empty : KeyMap sameKey_equivalence Unit)
      ((List.range n).map fun key => .insert key ())).2.bindings.ncard = n := by
  have himage : (KeyMap.run (KeyMap.empty : KeyMap sameKey_equivalence Unit)
      ((List.range n).map fun key => .insert key ())).2.bindings =
        classOf sameKey_equivalence '' (Finset.range n : Set Nat) := by
    ext c
    obtain ⟨key,rfl⟩ := Quotient.exists_rep c
    change (KeyMap.find _ key).isSome = true ↔ _
    rw [find_of_inserts]
    constructor
    · intro h
      refine ⟨key,?_,rfl⟩
      by_contra hout
      rw [if_neg (by simpa using hout)] at h
      exact absurd h (by simp)
    · rintro ⟨key',hmem,heq⟩
      obtain rfl : key' = key := eq_of_beq (classOf_eq.mp heq)
      rw [if_pos (by simpa using hmem)]
      rfl
  have hinj : Function.Injective (classOf sameKey_equivalence) :=
    fun a b h => eq_of_beq (classOf_eq.mp h)
  rw [himage,Set.ncard_image_of_injective _ hinj,Set.ncard_coe_finset,Finset.card_range]

theorem length_wraps :
    (LinkedTable.run sameKey (fun _ => 0) (LinkedTable.createHashWithSize 1)
      ((List.range (2 ^ 32)).map fun key => .insert key ())).2.length.toNat ≠
    (KeyMap.run (KeyMap.empty : KeyMap sameKey_equivalence Unit)
      ((List.range (2 ^ 32)).map fun key => .insert key ())).2.bindings.ncard := by
  have hsize : (0 : UInt32) < 1 := by decide
  have h := ((holds_create sameKey_equivalence (fun _ => 0) hsize).run (fun _ _ _ => rfl)
    ((List.range (2 ^ 32)).map fun key => .insert key ())).2.1
  rw [h.length_eq fun _ _ _ => rfl,bindings_of_inserts,Nat.mod_self]
  exact (Nat.pow_pos (by decide)).ne

end Instances

end Trema.Table
