import Trema.PacketinFilter.Filter
import Trema.Table.HashWalk
import Trema.Table.Match

namespace Trema.Management

open Library Table
open PacketinFilter (CString)

def statKeyLength : Nat := 256

structure StatEntry where
  key : Bytes
  value : UInt64
deriving DecidableEq, Repr

def text (s : Bytes) : Bytes := s.takeWhile (· ≠ 0)

def compareString (x y : Bytes) : Bool := x == y

-- The length is passed as an int.
def hashString (key : Bytes) : UInt32 := hashCore (key.take (LinkedTable.asInt key.length).toNat)

-- An entry lies under its own key, up to the terminator.
abbrev Stats := HashTable Bytes StatEntry

inductive StatOperation where
  | add (key : CString)
  | increment (key : CString)
  | reset

section Code

def initStat : Stats := createHash

def lookupStat (stats : Stats) (key : Bytes) : Option StatEntry := lookupHashEntry compareString hashString stats key

def addStatEntry (key : CString) (stats : Stats) : Bool × Stats :=
  match lookupStat stats key.bytes with
  | some _ => (false,stats)
  | none =>
    let entry : StatEntry := ⟨(strncpy key.bytes statKeyLength).set (statKeyLength - 1) 0,0⟩
    (true,(insertHashEntry compareString hashString stats (text entry.key) entry).2)

def countUp (stats : Stats) (key : Bytes) : Stats :=
  modifyHashEntry compareString hashString stats key fun entry => { entry with value := entry.value + 1 }

def incrementStat (key : CString) (stats : Stats) : Run Empty Stats :=
  match lookupStat stats key.bytes with
  | some _ => .ok (countUp stats key.bytes)
  | none =>
    let (added,stats) := addStatEntry key stats
    if added = false then .ok stats
    else
      match lookupStat stats key.bytes with
      | some _ => .ok (countUp stats key.bytes)
      | none => .error .aborted

def resetStats (stats : Stats) : Stats :=
  (foreachHash stats).foldl
    (fun stats e => (deleteHashEntry compareString hashString stats (text e.2.key)).2) stats

def foreachStat (stats : Stats) : List StatEntry := (foreachHash stats).map Prod.snd

def StatOperation.apply (stats : Stats) : StatOperation → Run Empty Stats
  | .add key => .ok (addStatEntry key stats).2
  | .increment key => incrementStat key stats
  | .reset => .ok (resetStats stats)

def runStats (ops : List StatOperation) : Run Empty Stats := ops.foldlM StatOperation.apply initStat

end Code

-- What one operation does to the counter of a key; a longer key loses its end when it is added.
def counterStep (key : Bytes) (count : Option Nat) : StatOperation → Option Nat
  | .add added =>
    if added.bytes.take 255 = key then if added.bytes.length ≤ 255 then count.or (some 0) else some 0
    else count
  | .increment counted => if counted.bytes = key then some (count.getD 0 + 1) else count
  | .reset => none

def counter (ops : List StatOperation) (key : Bytes) : Option Nat := ops.foldl (counterStep key) none

def StatOperation.Short : StatOperation → Prop
  | .increment key => key.bytes.length ≤ 255
  | _ => True

def padded (key : Bytes) : Bytes := key ++ List.replicate (statKeyLength - key.length) 0

structure Represents (stats : Stats) (count : Bytes → Option Nat) : Prop where
  valid : stats.Valid compareString hashString fun _ => True
  kept : ∀ e ∈ foreachHash stats, e.2.key = padded e.1 ∧ e.1.length ≤ 255 ∧ 0 ∉ e.1
  counted : ∀ key, (lookupStat stats key).map StatEntry.value = (count key).map UInt64.ofNat

section Texts

theorem compareString_iff (x y : Bytes) : compareString x y = true ↔ x = y := beq_iff_eq

theorem string_keys : KeyFunctions compareString hashString fun _ => True := exact_keys compareString_iff

theorem text_padded {key : Bytes} (hkey : 0 ∉ key) (hshort : key.length ≤ 255) : text (padded key) = key := by
  have hzero : List.replicate (statKeyLength - key.length) (0 : UInt8) =
      0 :: List.replicate (statKeyLength - key.length - 1) 0 := by
    rw [← List.replicate_succ]
    congr 1
    simp only [statKeyLength]
    omega
  rw [text,padded,hzero,List.takeWhile_append_of_pos,List.takeWhile_cons_of_neg,List.append_nil]
  · simp
  · intro b hb
    simpa using fun h : b = 0 => hkey (h ▸ hb)

theorem stored_key (key : Bytes) : (strncpy key statKeyLength).set (statKeyLength - 1) 0 = padded (key.take 255) := by
  by_cases hshort : key.length ≤ 255
  · have hlen : (strncpy key statKeyLength)[255]? = some 0 := by
      rw [strncpy,List.take_of_length_le (by simp only [statKeyLength]; omega),List.getElem?_append_right hshort,
        List.getElem?_replicate,if_pos (by simp only [statKeyLength]; omega)]
    obtain ⟨h255,hzero⟩ := List.getElem?_eq_some_iff.mp hlen
    rw [List.take_of_length_le hshort,padded]
    have hset := List.set_getElem_self h255
    rw [hzero] at hset
    refine hset.trans ?_
    rw [strncpy,List.take_of_length_le (by simp only [statKeyLength]; omega)]
  · have hzero : statKeyLength - key.length = 0 := by simp only [statKeyLength]; omega
    have hone : statKeyLength - (key.take 255).length = 1 := by
      rw [List.length_take,Nat.min_eq_left (by omega)]
      rfl
    have hlt : 255 < key.length := by omega
    have hlast : key.take statKeyLength = key.take 255 ++ [key[255]] := (List.take_append_getElem hlt).symm
    rw [strncpy,padded,hzero,hone,hlast,List.replicate_zero,List.append_nil,List.set_append_right]
    · have hlen : statKeyLength - 1 - (key.take 255).length = 0 := by
        rw [List.length_take,Nat.min_eq_left (by omega)]
        rfl
      rw [hlen]
      rfl
    · rw [List.length_take,Nat.min_eq_left (by omega)]
      exact le_rfl

theorem not_mem_take {key : Bytes} (hkey : 0 ∉ key) (n : Nat) : 0 ∉ key.take n :=
  fun h => hkey (List.mem_of_mem_take h)

end Texts

section Steps

variable {stats : Stats} {count : Bytes → Option Nat}

theorem represents_init : Represents initStat fun _ => none where
  valid := createHash_valid _ _ _
  kept := by simp [initStat,createHash,createHashWithSize,foreachHash]
  counted := fun key => by rw [lookupStat,initStat,createHash,lookup_create]; rfl

theorem Represents.found (h : Represents stats count) {key : Bytes} {entry : StatEntry}
    (hfind : lookupStat stats key = some entry) : key.length ≤ 255 ∧ ∃ n, count key = some n := by
  refine ⟨(h.kept _ (mem_of_lookup_exact compareString_iff h.valid hfind)).2.1,?_⟩
  have hcount := h.counted key
  rw [hfind] at hcount
  cases hn : count key with
  | none =>
    rw [hn] at hcount
    cases hcount
  | some n => exact ⟨n,rfl⟩

theorem Represents.missing (h : Represents stats count) {key : Bytes} (hfind : lookupStat stats key = none) :
    count key = none := by
  have hcount := h.counted key
  rw [hfind] at hcount
  cases hn : count key with
  | none => rfl
  | some n =>
    rw [hn] at hcount
    cases hcount

theorem Represents.insert (h : Represents stats count) {key : Bytes} (hkey : 0 ∉ key) (hshort : key.length ≤ 255) :
    Represents (insertHashEntry compareString hashString stats key ⟨padded key,0⟩).2
      fun k => if k = key then some 0 else count k where
  valid := insertHashEntry_keeps string_keys h.valid _ trivial
  kept := by
    intro e he
    rcases List.mem_cons.mp ((foreach_insert string_keys h.valid key _).mem_iff.mp he) with rfl | he
    · exact ⟨rfl,hshort,hkey⟩
    · exact h.kept e (List.mem_filter.mp he).1
  counted := by
    intro k
    rw [lookupStat,lookup_insert_exact compareString_iff h.valid]
    split
    · rfl
    · exact h.counted k

theorem Represents.add (h : Represents stats count) (key : CString) :
    Represents (addStatEntry key stats).2 fun k => counterStep k (count k) (.add key) := by
  rw [addStatEntry]
  cases hfind : lookupStat stats key.bytes with
  | some entry =>
    obtain ⟨hshort,n,hn⟩ := h.found hfind
    have hsame : (fun k => counterStep k (count k) (.add key)) = count := by
      funext k
      rw [counterStep,List.take_of_length_le hshort]
      split
      · rename_i hk
        rw [← hk,hn]
        simp
      · rfl
    rw [hsame]
    exact h
  | none =>
    have hnul := not_mem_take key.unterminated 255
    have hlen : (key.bytes.take 255).length ≤ 255 := by simp
    have hsame : (fun k => counterStep k (count k) (.add key)) =
        fun k => if k = key.bytes.take 255 then some 0 else count k := by
      funext k
      rw [counterStep]
      by_cases hk : key.bytes.take 255 = k
      · rw [if_pos hk,if_pos hk.symm]
        split
        · rename_i hshort
          rw [List.take_of_length_le hshort] at hk
          rw [← hk,h.missing hfind]
          rfl
        · rfl
      · rw [if_neg hk,if_neg (Ne.symm hk)]
    rw [hsame]
    simp only [stored_key,text_padded hnul hlen]
    exact h.insert hnul hlen

theorem Represents.countUp (h : Represents stats count) {key : Bytes} {n : Nat} (hn : count key = some n) :
    Represents (countUp stats key) fun k => if key = k then some (n + 1) else count k where
  valid := modifyHashEntry_valid string_keys h.valid _ _
  kept := by
    intro e he
    rw [Management.countUp,foreach_modifyHashEntry string_keys h.valid] at he
    obtain ⟨e',he',rfl⟩ := List.mem_map.mp he
    have hkept := h.kept e' he'
    split
    · exact hkept
    · exact hkept
  counted := by
    intro k
    have hcount := h.counted k
    rw [lookupStat] at hcount
    rw [lookupStat,Management.countUp,lookup_modify_exact compareString_iff h.valid]
    by_cases hk : key = k
    · subst hk
      rw [if_pos rfl,if_pos rfl]
      rw [hn] at hcount
      obtain ⟨entry,hfind,hvalue⟩ := Option.map_eq_some_iff.mp hcount
      have hnext : UInt64.ofNat n + 1 = UInt64.ofNat (n + 1) := (UInt64.ofNat_add n 1).symm
      rw [hfind,Option.map_some,Option.map_some,Option.map_some,hvalue,hnext]
    · rw [if_neg (Ne.symm hk),if_neg hk]
      exact hcount

theorem Represents.increment (h : Represents stats count) (key : CString) :
    (255 < key.bytes.length → incrementStat key stats = .error .aborted) ∧
      (key.bytes.length ≤ 255 → ∃ stats', incrementStat key stats = .ok stats' ∧
        Represents stats' fun k => counterStep k (count k) (.increment key)) := by
  have hadd := h.add key
  cases hfind : lookupStat stats key.bytes with
  | some entry =>
    obtain ⟨hshort,n,hn⟩ := h.found hfind
    refine ⟨fun hlong => absurd hshort (Nat.not_le.mpr hlong),fun _ => ⟨_,by rw [incrementStat,hfind],?_⟩⟩
    have hsame : (fun k => counterStep k (count k) (.increment key)) =
        fun k => if key.bytes = k then some (n + 1) else count k := by
      funext k
      rw [counterStep]
      by_cases hk : key.bytes = k
      · rw [if_pos hk,if_pos hk,← hk,hn]
        rfl
      · rw [if_neg hk,if_neg hk]
    rw [hsame]
    exact h.countUp hn
  | none =>
    have hadded : (addStatEntry key stats).1 = true := by rw [addStatEntry,hfind]
    have hrun : incrementStat key stats = match lookupStat (addStatEntry key stats).2 key.bytes with
        | some _ => .ok (Management.countUp (addStatEntry key stats).2 key.bytes)
        | none => .error .aborted := by
      rw [incrementStat,hfind]
      simp only [hadded,Bool.true_eq_false,if_false]
    have hnone := h.missing hfind
    constructor
    · intro hlong
      rw [hrun]
      cases hagain : lookupStat (addStatEntry key stats).2 key.bytes with
      | none => rfl
      | some entry => exact absurd (hadd.found hagain).1 (Nat.not_le.mpr hlong)
    · intro hshort
      have hzero : counterStep key.bytes (count key.bytes) (.add key) = some 0 := by
        rw [counterStep,List.take_of_length_le hshort,if_pos rfl,if_pos hshort,hnone]
        rfl
      cases hagain : lookupStat (addStatEntry key stats).2 key.bytes with
      | none =>
        have hlost := hadd.missing hagain
        rw [hzero] at hlost
        cases hlost
      | some entry =>
        refine ⟨_,by rw [hrun,hagain],?_⟩
        have hsame : (fun k => counterStep k (count k) (.increment key)) =
            fun k => if key.bytes = k then some (0 + 1) else counterStep k (count k) (.add key) := by
          funext k
          rw [counterStep,counterStep,List.take_of_length_le hshort]
          by_cases hk : key.bytes = k
          · rw [if_pos hk,if_pos hk,← hk,hnone]
            rfl
          · rw [if_neg hk,if_neg hk,if_neg hk]
        rw [hsame]
        exact hadd.countUp hzero

theorem deleted_keys (h : stats.Valid compareString hashString fun _ => True) (l : List (Bytes × StatEntry)) :
    let left := l.foldl (fun stats e => (deleteHashEntry compareString hashString stats (text e.2.key)).2) stats
    left.Valid compareString hashString (fun _ => True) ∧
      foreachHash left = (foreachHash stats).filter fun e => decide (e.1 ∉ l.map fun e => text e.2.key) := by
  induction l generalizing stats with
  | nil => exact ⟨h,by simp⟩
  | cons e l ih =>
    obtain ⟨hvalid,hleft⟩ := ih (deleteHashEntry_valid h (text e.2.key))
    refine ⟨hvalid,?_⟩
    rw [List.foldl_cons,hleft,foreach_deleteHashEntry string_keys h,List.filter_filter]
    refine List.filter_congr fun e' _ => ?_
    have hne : (!compareString (text e.2.key) e'.1) = decide (e'.1 ≠ text e.2.key) := by
      rw [Bool.eq_iff_iff]
      simp only [compareString,Bool.not_eq_true',beq_eq_false_iff_ne,decide_eq_true_eq]
      exact ne_comm
    rw [hne,List.map_cons]
    simp only [List.mem_cons,not_or,Bool.decide_and,Bool.and_comm]

theorem Represents.reset (h : Represents stats count) : Represents (resetStats stats) fun _ => none := by
  obtain ⟨hvalid,hleft⟩ := deleted_keys h.valid (foreachHash stats)
  have hempty : foreachHash (resetStats stats) = [] := by
    rw [resetStats,hleft,List.filter_eq_nil_iff]
    intro e he
    obtain ⟨hkey,hshort,hnul⟩ := h.kept e he
    simp only [decide_eq_true_eq,not_not]
    exact List.mem_map.mpr ⟨e,he,by rw [hkey,text_padded hnul hshort]⟩
  refine ⟨hvalid,?_,fun key => ?_⟩
  · rw [hempty]
    simp
  · have hreset : (resetStats stats).Valid compareString hashString fun _ => True := hvalid
    rw [lookupStat,lookupHashEntry_eq string_keys hreset,hempty]
    rfl

-- One operation: a key that is too long to be counted stops the program.
theorem Represents.apply (h : Represents stats count) (op : StatOperation) :
    (¬ op.Short → op.apply stats = .error .aborted) ∧
      (op.Short → ∃ stats', op.apply stats = .ok stats' ∧ Represents stats' fun k => counterStep k (count k) op) := by
  cases op with
  | add key => exact ⟨fun hlong => absurd trivial hlong,fun _ => ⟨_,rfl,h.add key⟩⟩
  | increment key =>
    obtain ⟨hlong,hshort⟩ := h.increment key
    exact ⟨fun h => hlong (Nat.not_le.mp h),hshort⟩
  | reset => exact ⟨fun hlong => absurd trivial hlong,fun _ => ⟨_,rfl,h.reset⟩⟩

theorem Represents.run (h : Represents stats count) (ops : List StatOperation) :
    ((∃ op ∈ ops, ¬ op.Short) → ops.foldlM StatOperation.apply stats = .error .aborted) ∧
      ((∀ op ∈ ops, op.Short) → ∃ stats', ops.foldlM StatOperation.apply stats = .ok stats' ∧
        Represents stats' fun k => ops.foldl (counterStep k) (count k)) := by
  induction ops generalizing stats count with
  | nil => exact ⟨fun ⟨op,hop,_⟩ => absurd hop (by simp),fun _ => ⟨stats,rfl,h⟩⟩
  | cons op ops ih =>
    obtain ⟨hlong,hshort⟩ := h.apply op
    by_cases hop : op.Short
    · obtain ⟨stats',hrun,hnext⟩ := hshort hop
      obtain ⟨hrest,hall⟩ := ih hnext
      rw [List.foldlM_cons,hrun,ok_bind]
      refine ⟨fun ⟨bad,hbad,hnot⟩ => hrest ⟨bad,?_,hnot⟩,fun h => hall fun op hop => h op (List.mem_cons_of_mem _ hop)⟩
      rcases List.mem_cons.mp hbad with rfl | hbad
      · exact absurd hop hnot
      · exact hbad
    · rw [List.foldlM_cons,hlong hop]
      exact ⟨fun _ => rfl,fun h => absurd (h op List.mem_cons_self) hop⟩

end Steps

theorem counter_increments (keys : List CString) (key : Bytes) :
    counter (keys.map .increment) key =
      if keys.countP (fun k => k.bytes = key) = 0 then none else some (keys.countP fun k => k.bytes = key) := by
  have hfold : ∀ (keys : List CString) (start : Option Nat),
      (keys.map StatOperation.increment).foldl (counterStep key) start =
        if keys.countP (fun k => k.bytes = key) = 0 then start
        else some (start.getD 0 + keys.countP fun k => k.bytes = key) := by
    intro keys
    induction keys with
    | nil => exact fun start => rfl
    | cons k keys ih =>
      intro start
      rw [List.map_cons,List.foldl_cons,ih,counterStep,List.countP_cons]
      by_cases hk : k.bytes = key
      · simp only [hk,if_true,decide_true]
        split
        · rename_i hzero
          rw [if_neg (by omega),hzero]
        · rw [if_neg (by omega)]
          congr 1
          simp only [Option.getD_some]
          omega
      · simp only [hk,if_false,decide_false,Nat.add_zero,Bool.false_eq_true]
  rw [counter,hfold]
  simp

end Trema.Management
