import Trema.Table.HashTable
import Mathlib.Logic.Function.Basic

namespace Trema.Table

open Library

variable {κ ν : Type} [DecidableEq κ] {compare : κ → κ → Bool} {hash : κ → UInt32} {t : HashTable κ ν} {m : κ → Option ν}

-- A table whose keys compare equal only when they are, as the function from keys to values that it is.
structure Tracks (compare : κ → κ → Bool) (hash : κ → UInt32) (t : HashTable κ ν) (m : κ → Option ν) : Prop where
  valid : t.Valid compare hash fun _ => True
  found : ∀ key, lookupHashEntry compare hash t key = m key

omit [DecidableEq κ] in
theorem Tracks.congr {m' : κ → Option ν} (h : Tracks compare hash t m) (hm : ∀ key, m key = m' key) :
    Tracks compare hash t m' := ⟨h.valid,fun key => (h.found key).trans (hm key)⟩

omit [DecidableEq κ] in
theorem tracks_create (compare : κ → κ → Bool) (hash : κ → UInt32) :
    Tracks compare hash (createHash : HashTable κ ν) fun _ => none :=
  ⟨createHash_valid _ _ _,fun _ => rfl⟩

variable (hcompare : ∀ x y, compare x y = true ↔ x = y)
include hcompare

theorem Tracks.insert (h : Tracks compare hash t m) (key : κ) (value : ν) :
    Tracks compare hash (insertHashEntry compare hash t key value).2 (Function.update m key (some value)) := by
  refine ⟨insertHashEntry_keeps (exact_keys hcompare) h.valid value trivial,fun key' => ?_⟩
  rw [lookup_insert_exact hcompare h.valid,h.found,Function.update_apply]

theorem Tracks.delete (h : Tracks compare hash t m) (key : κ) :
    (deleteHashEntry compare hash t key).1 = m key ∧
      Tracks compare hash (deleteHashEntry compare hash t key).2 (Function.update m key none) := by
  refine ⟨?_,deleteHashEntry_valid h.valid key,fun key' => ?_⟩
  · rw [fst_deleteHashEntry,h.found]
  · rw [lookup_delete_exact hcompare h.valid,h.found,Function.update_apply]

theorem Tracks.modify (h : Tracks compare hash t m) (key : κ) (f : ν → ν) :
    Tracks compare hash (modifyHashEntry compare hash t key f) (Function.update m key ((m key).map f)) := by
  refine ⟨modifyHashEntry_valid (exact_keys hcompare) h.valid key f,fun key' => ?_⟩
  rw [lookup_modify_exact hcompare h.valid,h.found,Function.update_apply]
  split
  · rename_i hkey
    rw [hkey]
  · rfl

omit [DecidableEq κ] in
theorem Tracks.mem_iff (h : Tracks compare hash t m) {key : κ} {value : ν} :
    (key,value) ∈ foreachHash t ↔ m key = some value := by
  rw [← h.found]
  exact ⟨fun he => lookup_of_mem_exact hcompare h.valid he,mem_of_lookup_exact hcompare h.valid⟩

-- A walk whose callback deletes some of the entries that it is given.
def sweep (compare : κ → κ → Bool) (hash : κ → UInt32) (condemned : κ × ν → Bool) (t : HashTable κ ν) : HashTable κ ν :=
  (foreachHash t).foldl (fun t e => if condemned e then (deleteHashEntry compare hash t e.1).2 else t) t

theorem Tracks.foldl_delete (condemned : κ × ν → Bool) (l : List (κ × ν)) (h : Tracks compare hash t m) :
    Tracks compare hash (l.foldl (fun t e => if condemned e then (deleteHashEntry compare hash t e.1).2 else t) t)
      fun key => if l.any fun e => decide (e.1 = key) && condemned e then none else m key := by
  induction l generalizing t m with
  | nil => exact h
  | cons e l ih =>
    rw [List.foldl_cons]
    by_cases hdrop : condemned e = true
    · rw [if_pos hdrop]
      refine (ih (h.delete hcompare e.1).2).congr fun key => ?_
      rw [Function.update_apply,List.any_cons,hdrop,Bool.and_true]
      by_cases hkey : key = e.1
      · rw [if_pos hkey,decide_eq_true hkey.symm,Bool.true_or,if_pos rfl,ite_self]
      · rw [if_neg hkey,decide_eq_false (Ne.symm hkey),Bool.false_or]
    · rw [if_neg hdrop]
      refine (ih h).congr fun key => ?_
      rw [List.any_cons,eq_false_of_ne_true hdrop,Bool.and_false,Bool.false_or]

theorem Tracks.sweep (condemned : κ × ν → Bool) (h : Tracks compare hash t m) :
    Tracks compare hash (sweep compare hash condemned t) fun key =>
      (m key).filter fun value => !condemned (key,value) := by
  refine (h.foldl_delete hcompare condemned (foreachHash t)).congr fun key => ?_
  cases hm : m key with
  | none => simp
  | some value =>
    have hmem := (h.mem_iff hcompare).mpr hm
    by_cases hdrop : condemned (key,value) = true
    · rw [if_pos (List.any_eq_true.mpr ⟨_,hmem,by simp [hdrop]⟩)]
      rw [Option.filter_some,hdrop]
      rfl
    · rw [if_neg,Option.filter_some,eq_false_of_ne_true hdrop]
      · rfl
      · intro hany
        obtain ⟨⟨k,v⟩,he,hv⟩ := List.any_eq_true.mp hany
        rw [Bool.and_eq_true,decide_eq_true_eq] at hv
        obtain ⟨rfl,hv⟩ := hv
        have hsame := ((h.mem_iff hcompare).mp he).symm.trans hm
        injection hsame with hsame
        exact hdrop (hsame ▸ hv)

-- A walk whose callback changes each value it is given, through its pointer.
def adjust (compare : κ → κ → Bool) (hash : κ → UInt32) (f : κ → ν → ν) (t : HashTable κ ν) : HashTable κ ν :=
  (foreachHash t).foldl (fun t e => modifyHashEntry compare hash t e.1 (f e.1)) t

theorem Tracks.adjust (f : κ → ν → ν) (h : Tracks compare hash t m) :
    Tracks compare hash (adjust compare hash f t) fun key => (m key).map (f key) := by
  have hfold : ∀ (l : List κ) (t : HashTable κ ν) (m : κ → Option ν), l.Nodup → Tracks compare hash t m →
      Tracks compare hash (l.foldl (fun t k => modifyHashEntry compare hash t k (f k)) t)
        fun key => if key ∈ l then (m key).map (f key) else m key := by
    intro l
    induction l with
    | nil => intro t m _ h; simpa using h
    | cons k l ih =>
      intro t m hd h
      obtain ⟨hk,hd⟩ := List.nodup_cons.mp hd
      refine (ih _ _ hd (h.modify hcompare k (f k))).congr fun key => ?_
      rw [Function.update_apply]
      by_cases hkey : key = k
      · rw [hkey]
        simp [hk]
      · simp [hkey]
  have hall := hfold _ t m (keys_nodup_exact hcompare h.valid) h
  rw [List.foldl_map] at hall
  refine hall.congr fun key => ?_
  cases hm : m key with
  | none => simp
  | some value =>
    have hmem : key ∈ (foreachHash t).map Prod.fst := List.mem_map.mpr ⟨_,(h.mem_iff hcompare).mpr hm,rfl⟩
    rw [if_pos hmem]

end Trema.Table
