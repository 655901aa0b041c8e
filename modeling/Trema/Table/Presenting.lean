import Trema.Table.KeyMap
import Trema.Table.HashWalk

namespace Trema.Table

open Library

variable {κ ν υ : Type}

namespace LinkedTable

structure Walking (κ ν υ : Type) where
  table : LinkedTable κ ν
  userData : υ
  presented : List (κ × ν)

section Presenting

variable (compare : κ → κ → Bool) (hash : κ → UInt32)
  -- What the callback or the loop body makes of its data, and whether it deletes the entry.
  (function : κ → ν → υ → υ × Bool)

def present (e : κ × ν) (s : Walking κ ν υ) : Walking κ ν υ :=
  let r := function e.1 e.2 s.userData
  ⟨if r.2 then (deleteHashEntry compare hash s.table e.1).2 else s.table,r.1,
    s.presented ++ [e]⟩

variable {compare hash} {good : κ → Prop}

theorem presented_foldl (entries : List (κ × ν)) (s : Walking κ ν υ) :
    (entries.foldl (fun s e => present compare hash function e s) s).presented = s.presented ++ entries := by
  induction entries generalizing s with
  | nil => exact (List.append_nil _).symm
  | cons e entries ih =>
    rw [List.foldl_cons,ih]
    simp only [present,List.append_assoc,List.singleton_append]

theorem present_deletes (hk : KeyFunctions compare hash good) (hrefl : ∀ k, compare k k = true) :
    Deletes compare hash good Walking.table (present compare hash function)
      fun s => s.table.Valid compare hash good := by
  refine ⟨fun _ hs => hs,fun s i pre cell rest hs hc => ?_⟩
  simp only [present]
  split
  · obtain ⟨htrims,hleft⟩ := delete_presented hk hrefl hs hc
    exact ⟨htrims.valid,htrims,pre,hleft⟩
  · exact ⟨hs,.refl hs i,pre ++ [cell],by rw [hc]; simp⟩

end Presenting

-- The walk ends, follows no freed cell, fails no assertion and gives every entry of t once.
def Presents (t : LinkedTable κ ν) (walk : Nat → Run Empty (Walking κ ν υ)) : Prop :=
  ∃ n, ∀ m, n ≤ m → ∃ s, walk m = .ok s ∧ s.presented.Nodup ∧
    ∀ e, e ∈ s.presented ↔ ∃ i, e ∈ entriesAt t i

section Outcomes

variable {compare : κ → κ → Bool} {hash : κ → UInt32} {good : κ → Prop} {t : LinkedTable κ ν}
  (hrefl : ∀ k, compare k k = true) (h : t.Valid compare hash good)
include hrefl h

theorem nodup_entries (hk : KeyFunctions compare hash good) : (Table.foreachHash t.forget).Nodup := by
  refine (h.table.keys_distinct hk).imp fun {a b} hne heq => hne ?_
  rw [heq]
  exact hrefl _

omit hrefl in
theorem mem_entries (e : κ × ν) : e ∈ Table.foreachHash t.forget ↔ ∃ i, e ∈ entriesAt t i := by
  rw [h.table.mem_foreach]
  constructor
  · exact fun he => ⟨_,he⟩
  · rintro ⟨i,he⟩
    rw [h.table.placed i e he]
    exact he

theorem presents_iff (hk : KeyFunctions compare hash good) {walk : Nat → Run Empty (Walking κ ν υ)}
    (bound : Nat) (hwalk : ∀ n, bound ≤ n →
      ((∀ i ∈ Chain.contents t.nonemptyBucketIndex, i < 2 ^ 31) → ∃ s,
        walk n = .ok s ∧ s.presented = Table.foreachHash t.forget) ∧
      ((∃ i ∈ Chain.contents t.nonemptyBucketIndex, 2 ^ 31 ≤ i) → walk n = .error .outOfBounds)) :
    Presents t walk ↔ ∀ i ∈ Chain.contents t.nonemptyBucketIndex, i < 2 ^ 31 := by
  constructor
  · rintro ⟨n,hn⟩
    by_contra hlarge
    push Not at hlarge
    obtain ⟨s,hs,-⟩ := hn (max n bound) (Nat.le_max_left _ _)
    rw [(hwalk (max n bound) (Nat.le_max_right _ _)).2 hlarge] at hs
    exact absurd hs (by simp)
  · intro hsmall
    refine ⟨bound,fun m hm => ?_⟩
    obtain ⟨s,hs,hpresented⟩ := (hwalk m hm).1 hsmall
    refine ⟨s,hs,?_,fun e => ?_⟩
    · rw [hpresented]
      exact nodup_entries hrefl h hk
    · rw [hpresented]
      exact mem_entries h e

end Outcomes

section Walks

variable {compare : κ → κ → Bool} {hash : κ → UInt32} {good : κ → Prop} {t : LinkedTable κ ν}
  (function : κ → ν → υ → υ × Bool) (userData : υ)

theorem foreachHash_presents (hk : KeyFunctions compare hash good) (hrefl : ∀ k, compare k k = true)
    (h : t.Valid compare hash good) :
    Presents t (fun n => foreachHash Walking.table (present compare hash function) n ⟨t,userData,[]⟩) ↔
      ∀ i ∈ Chain.contents t.nonemptyBucketIndex, i < 2 ^ 31 := by
  refine presents_iff hrefl h hk
    (t.nonemptyBucketIndex.length + (Table.foreachHash t.forget).length) fun n hn => ?_
  obtain ⟨hsmall,hlarge⟩ := (present_deletes function hk hrefl).foreachHash
    (s := (⟨t,userData,[]⟩ : Walking κ ν υ)) h hn
  exact ⟨fun hall => ⟨_,hsmall hall,presented_foldl function _ _⟩,hlarge⟩

theorem iterateTable_presents (hk : KeyFunctions compare hash good) (hrefl : ∀ k, compare k k = true)
    (h : t.Valid compare hash good) :
    Presents t (fun n => iterateTable Walking.table (present compare hash function) n ⟨t,userData,[]⟩) ↔
      ∀ i ∈ Chain.contents t.nonemptyBucketIndex, i < 2 ^ 31 := by
  refine presents_iff hrefl h hk ((Table.foreachHash t.forget).length + 2) fun n hn => ?_
  obtain ⟨hsmall,hlarge⟩ := (present_deletes function hk hrefl).iterateTable
    (s := (⟨t,userData,[]⟩ : Walking κ ν υ)) h hn
  exact ⟨fun hall => ⟨_,hsmall hall,presented_foldl function _ _⟩,hlarge⟩

end Walks

theorem walks_present_iff (compare : κ → κ → Bool) (hash : κ → UInt32)
    (he : Equivalence fun a b => compare a b = true)
    (hhash : ∀ a b, compare a b = true → hash a = hash b) (size : UInt32) (hsize : 0 < size)
    (ops : List (HashOperation κ ν)) (function : κ → ν → υ → υ × Bool) (userData : υ) :
    let t := (run compare hash (createHashWithSize size) ops).2
    (Presents t (fun n =>
        foreachHash Walking.table (present compare hash function) n ⟨t,userData,[]⟩) ↔
      ∀ i ∈ Chain.contents t.nonemptyBucketIndex, i < 2 ^ 31) ∧
    (Presents t (fun n =>
        iterateTable Walking.table (present compare hash function) n ⟨t,userData,[]⟩) ↔
      ∀ i ∈ Chain.contents t.nonemptyBucketIndex, i < 2 ^ 31) := by
  intro t
  have hk := class_keys he hhash
  have hvalid := ((holds_create he hash hsize).run hhash ops).2.1.valid
  exact ⟨foreachHash_presents function userData hk he.refl hvalid,
    iterateTable_presents function userData hk he.refl hvalid⟩

section Instances

def evens (_ value : Nat) (seen : Nat) : Nat × Bool := (seen + 1,value % 2 == 0)

def smallTable : LinkedTable Nat Nat :=
  (run sameKey UInt32.ofNat (createHashWithSize 2) [.insert 1 10,.insert 3 11,.insert 4 12]).2

theorem small_table_presented :
    Presents smallTable
      (fun n => foreachHash Walking.table (present sameKey UInt32.ofNat evens) n ⟨smallTable,0,[]⟩) := by
  have hhash : ∀ a b, sameKey a b = true → UInt32.ofNat a = UInt32.ofNat b :=
    fun a b h => congrArg UInt32.ofNat (eq_of_beq h)
  refine (walks_present_iff sameKey UInt32.ofNat sameKey_equivalence hhash 2 (by decide)
    [.insert 1 10,.insert 3 11,.insert 4 12] evens 0).1.mpr ?_
  decide +kernel

def keep (_ : Nat) (_ : Unit) (seen : Nat) : Nat × Bool := (seen + 1,false)

def hugeTable : LinkedTable Nat Unit :=
  (run sameKey UInt32.ofNat (createHashWithSize 2147483649) [.insert 2147483648 ()]).2

theorem huge_table_not_presented :
    ¬ Presents hugeTable
      (fun n => foreachHash Walking.table (present sameKey UInt32.ofNat keep) n ⟨hugeTable,0,[]⟩) ∧
    ¬ Presents hugeTable
      (fun n => iterateTable Walking.table (present sameKey UInt32.ofNat keep) n ⟨hugeTable,0,[]⟩) := by
  have hhash : ∀ a b, sameKey a b = true → UInt32.ofNat a = UInt32.ofNat b :=
    fun a b h => congrArg UInt32.ofNat (eq_of_beq h)
  have hk := class_keys sameKey_equivalence hhash
  have hsize : (0 : UInt32) < 2147483649 := by decide
  have hvalid : hugeTable.Valid sameKey UInt32.ofNat fun _ => True :=
    ((holds_create sameKey_equivalence UInt32.ofNat hsize).run hhash [.insert 2147483648 ()]).2.1.valid
  have hlarge : ¬ ∀ i ∈ Chain.contents hugeTable.nonemptyBucketIndex, i < 2 ^ 31 := by decide +kernel
  refine ⟨fun hpresents => hlarge ?_,fun hpresents => hlarge ?_⟩
  · exact (foreachHash_presents keep 0 hk sameKey_equivalence.refl hvalid).mp hpresents
  · exact (iterateTable_presents keep 0 hk sameKey_equivalence.refl hvalid).mp hpresents

end Instances

end LinkedTable

end Trema.Table
