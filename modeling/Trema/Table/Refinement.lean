import Trema.Table.MatchTable
import Trema.Library.Ranked

namespace Trema.Table

open Library
open OpenFlow (OfpMatch)

variable {δ : Type}

-- The entries of the table in the order they were inserted.
abbrev OrderedMap (δ : Type) := List (MatchEntry δ)

def keyed (m : OfpMatch) (priority : UInt16) (e : MatchEntry δ) : Bool :=
  compareMatchStrict e.mtch m && (exactMatch m || e.priority == priority)

def stored (m : OfpMatch) (priority : UInt16) (data : δ) : MatchEntry δ :=
  ⟨m,if exactMatch m then 0 else priority,data⟩

def refilled (m : OfpMatch) (priority : UInt16) (data : δ) (e : MatchEntry δ) : MatchEntry δ :=
  if keyed m priority e then { e with data := data } else e

def MatchEntry.rank (e : MatchEntry δ) : Nat := e.priority.toNat

def Meets (e m : OfpMatch) : Prop := if exactMatch m then Covers e m else Overlaps e m

namespace OrderedMap

def find (s : OrderedMap δ) (m : OfpMatch) (priority : UInt16) : Option (MatchEntry δ) :=
  s.find? (keyed m priority)

def insert (s : OrderedMap δ) (m : OfpMatch) (priority : UInt16) (data : δ) : Bool × OrderedMap δ :=
  if (s.find m priority).isSome then (false,s)
  else (true,s ++ [stored m priority data])

def update (s : OrderedMap δ) (m : OfpMatch) (priority : UInt16) (data : δ) : Bool × OrderedMap δ :=
  if (s.find m priority).isSome then
    (true,s.map (refilled m priority data))
  else (false,s)

def remove [Inhabited δ] (s : OrderedMap δ) (m : OfpMatch) (priority : UInt16) : δ × OrderedMap δ :=
  (entryData (s.find m priority),s.filter fun e => !keyed m priority e)

def exact (s : OrderedMap δ) : List (MatchEntry δ) := s.filter fun e => exactMatch e.mtch

def wild (s : OrderedMap δ) : List (MatchEntry δ) :=
  ranked MatchEntry.rank (s.filter fun e => !exactMatch e.mtch)

open Classical in
noncomputable def winner (s : OrderedMap δ) (m : OfpMatch) : Option (MatchEntry δ) :=
  match s.exact.find? fun e => compareMatchStrict e.mtch m with
  | some e => some e
  | none => s.wild.find? fun e => decide (Meets e.mtch m)

end OrderedMap

theorem compareMatch_iff_meets {e m : OfpMatch} : compareMatch e m = true ↔ Meets e m := by
  rw [Meets]
  split
  · rename_i hm
    exact compareMatch_iff_covers hm
  · exact compareMatch_iff_overlaps

structure Represents (t : MatchTable δ) (s : OrderedMap δ) : Prop where
  valid : t.exactTable.Valid compareMatchStrict hashExactMatchEntry fun m => exactMatch m = true
  exact : (foreachHash t.exactTable).Perm (s.exact.map fun e => (e.mtch,e))
  wild : t.wildcardsTable = s.wild
  keys : s.Pairwise fun a b => ¬ keyed b.mtch b.priority a = true
  dummy : ∀ e ∈ s, exactMatch e.mtch = true → e.priority = 0

theorem matchKeys : KeyFunctions compareMatchStrict hashExactMatchEntry
    (fun m => exactMatch m = true) where
  symm _ _ := compareMatchStrict_symm
  trans _ _ _ := compareMatchStrict_trans
  congr _ _ := hash_congr

section Keys

variable {m : OfpMatch} {priority : UInt16} {s : OrderedMap δ}

theorem keyed_exact (hm : exactMatch m = true) (e : MatchEntry δ) :
    keyed m priority e = compareMatchStrict e.mtch m := by simp [keyed,hm]

theorem keyed_wild (hm : exactMatch m = false) :
    (keyed m priority : MatchEntry δ → Bool) = isEntry m priority := by
  funext e
  simp [keyed,isEntry,hm,Bool.and_comm]

theorem exactMatch_of_keyed {e : MatchEntry δ} (h : keyed m priority e = true) :
    exactMatch e.mtch = exactMatch m := by
  rw [keyed,Bool.and_eq_true] at h
  exact exactMatch_congr h.1

theorem compareMatchStrict_comm (x y : OfpMatch) :
    compareMatchStrict x y = compareMatchStrict y x :=
  Bool.eq_iff_iff.mpr ⟨compareMatchStrict_symm,compareMatchStrict_symm⟩

theorem keyed_unique {a b : MatchEntry δ} (ha : keyed m priority a = true)
    (hb : keyed m priority b = true) : keyed b.mtch b.priority a = true := by
  have hexact := exactMatch_of_keyed hb
  rw [keyed,Bool.and_eq_true,Bool.or_eq_true] at *
  refine ⟨compareMatchStrict_trans ha.1 (compareMatchStrict_symm hb.1),?_⟩
  rcases hb.2 with h | h
  · exact .inl (hexact.trans h)
  · rcases ha.2 with h' | h'
    · exact .inl (hexact.trans h')
    · exact .inr (by rw [eq_of_beq h,eq_of_beq h']; simp)

theorem atMostOne_keyed (h : s.Pairwise fun a b => ¬ keyed b.mtch b.priority a = true) :
    AtMostOne (keyed m priority) s :=
  atMostOne_of_keys (R := fun a b => keyed b.mtch b.priority a = true) h
    fun _ _ ha hb => keyed_unique ha hb

theorem find?_filter_of_imp {α : Type} {p q : α → Bool} {l : List α}
    (h : ∀ a ∈ l, p a = true → q a = true) : (l.filter q).find? p = l.find? p := by
  rw [List.find?_filter]
  induction l with
  | nil => rfl
  | cons a l ih =>
    have hl := ih fun b hb => h b (by simp [hb])
    by_cases hp : p a = true
    · rw [List.find?_cons_of_pos hp,List.find?_cons_of_pos (by simp [hp,h a (by simp) hp])]
    · rw [List.find?_cons_of_neg hp,List.find?_cons_of_neg (by simp [hp]),hl]

theorem Represents.keyed_self {t : MatchTable δ} (h : Represents t s) {a b : MatchEntry δ}
    (ha : a ∈ s) (hb : b ∈ s) (hab : keyed b.mtch b.priority a = true) : a = b := by
  have hself : keyed b.mtch b.priority b = true := by simp [keyed,compareMatchStrict_refl]
  have hone : AtMostOne (keyed b.mtch b.priority) s := atMostOne_keyed h.keys
  exact Option.some.inj ((hone.find?_eq_some.mpr ⟨ha,hab⟩).symm.trans
    (hone.find?_eq_some.mpr ⟨hb,hself⟩))

end Keys

section Wildcards

variable {m : OfpMatch} {priority : UInt16} {l : List (MatchEntry δ)}

theorem rank_lt {a b : MatchEntry δ} : a.rank < b.rank ↔ a.priority < b.priority :=
  UInt16.lt_iff_toNat_lt.symm

theorem isEntry_of_lt {e : MatchEntry δ} (h : e.priority < priority) : isEntry m priority e = false := by
  have hne : e.priority ≠ priority := by
    rintro rfl
    exact absurd h (UInt16.lt_irrefl _)
  simp [isEntry,hne]

theorem isEntry_after {e : MatchEntry δ} (hl : Ranked MatchEntry.rank (e :: l))
    (h : e.priority < priority) : ∀ a ∈ e :: l, isEntry m priority a = false := by
  intro a ha
  rcases List.mem_cons.mp ha with rfl | ha
  · exact isEntry_of_lt h
  · refine isEntry_of_lt (UInt16.lt_iff_toNat_lt.mpr ?_)
    have hle : a.rank ≤ e.rank := (List.pairwise_cons.mp hl).1 a ha
    exact lt_of_le_of_lt hle (UInt16.lt_iff_toNat_lt.mp h)

theorem lookupWildcardsMatchStrictEntry_eq (hl : Ranked MatchEntry.rank l) :
    lookupWildcardsMatchStrictEntry m priority l = l.find? (isEntry m priority) := by
  induction l with
  | nil => rfl
  | cons e l ih =>
    rw [lookupWildcardsMatchStrictEntry]
    split
    · rename_i hlt
      refine (List.find?_eq_none.mpr fun a ha => ?_).symm
      simp [isEntry_after hl hlt a ha]
    · split
      · rename_i he
        rw [List.find?_cons_of_pos he]
      · rename_i he
        rw [List.find?_cons_of_neg he,ih (List.pairwise_cons.mp hl).2]

theorem insertBefore_eq {α : Type} {l : List α} {n : Nat} (x : α) (hpos : n ≠ 0)
    (hlt : n < l.length) : insertBefore l n x = l.take n ++ x :: l.drop n := by
  induction l generalizing n with
  | nil => exact absurd hlt (by simp)
  | cons e l ih =>
    match n, hpos with
    | 1, _ =>
      cases l with
      | nil => exact absurd hlt (by simp)
      | cons e' l => rfl
    | n + 2, _ =>
      simp only [List.length_cons] at hlt
      rw [insertBefore,ih (by omega) (by omega)]
      rfl

theorem findPlace_none (hl : Ranked MatchEntry.rank l) :
    findPlace m priority l = none ↔ (l.find? (isEntry m priority)).isSome = true := by
  induction l with
  | nil => simp [findPlace]
  | cons e l ih =>
    rw [findPlace]
    split
    · rename_i hlt
      have hnone : (e :: l).find? (isEntry m priority) = none :=
        List.find?_eq_none.mpr fun a ha => by simp [isEntry_after hl hlt a ha]
      simp [hnone]
    · split
      · rename_i he
        simp [he]
      · rename_i he
        rw [Option.map_eq_none_iff,ih (List.pairwise_cons.mp hl).2,List.find?_cons_of_neg he]

theorem findPlace_some {n : Nat} (new : MatchEntry δ) (hnew : new.priority = priority)
    (h : findPlace m priority l = some n) :
    n ≤ l.length ∧ l.take n ++ new :: l.drop n = place MatchEntry.rank new l := by
  induction l generalizing n with
  | nil =>
    injection h with h
    subst h
    exact ⟨le_rfl,rfl⟩
  | cons e l ih =>
    rw [findPlace] at h
    rw [place]
    split at h
    · rename_i hlt
      injection h with h
      subst h
      rw [← hnew] at hlt
      exact ⟨Nat.zero_le _,by rw [if_pos (rank_lt.mpr hlt)]; rfl⟩
    · rename_i hge
      split at h
      · exact absurd h (by simp)
      · obtain ⟨k,hk,rfl⟩ := Option.map_eq_some_iff.mp h
        obtain ⟨hle,heq⟩ := ih hk
        rw [← hnew] at hge
        refine ⟨by simpa using hle,?_⟩
        rw [if_neg fun hlt => hge (rank_lt.mp hlt),← heq]
        rfl

theorem insertWildcardsMatchEntry_eq (hl : Ranked MatchEntry.rank l) (data : δ) :
    insertWildcardsMatchEntry l m priority data =
      if (l.find? (isEntry m priority)).isSome then (false,l)
      else (true,place MatchEntry.rank ⟨m,priority,data⟩ l) := by
  rw [insertWildcardsMatchEntry]
  split
  · rename_i hnone
    rw [if_pos ((findPlace_none hl).mp hnone)]
  · rename_i n hsome
    obtain ⟨hle,heq⟩ := findPlace_some ⟨m,priority,data⟩ rfl hsome
    have hfresh : ¬ (l.find? (isEntry m priority)).isSome = true := by
      rw [← findPlace_none hl,hsome]
      simp
    rw [if_neg hfresh,← heq]
    split
    · rename_i htail
      rw [htail,List.take_length,List.drop_length]
      rfl
    · rename_i htail
      split
      · rename_i hhead
        rw [hhead]
        rfl
      · rename_i hhead
        rw [insertBefore_eq _ hhead (by omega)]

end Wildcards

section Simulation

variable {t : MatchTable δ} {s : OrderedMap δ} {m : OfpMatch} {priority : UInt16}

theorem Represents.lookupExact (h : Represents t s) (m : OfpMatch) :
    lookupExactMatchStrictEntry t.exactTable m =
      s.exact.find? fun e => compareMatchStrict e.mtch m := by
  rw [lookupExactMatchStrictEntry,lookupHashEntry_eq matchKeys h.valid,
    (h.valid.atMostOne matchKeys m).find?_perm h.exact,List.find?_map,Option.map_map]
  have hfun : (fun e : OfpMatch × MatchEntry δ => compareMatchStrict m e.1) ∘
      (fun e : MatchEntry δ => (e.mtch,e)) = fun e => compareMatchStrict e.mtch m :=
    funext fun e => compareMatchStrict_comm _ _
  rw [hfun]
  exact Option.map_id'

theorem Represents.lookupExact_keyed (h : Represents t s) (hm : exactMatch m = true) :
    lookupExactMatchStrictEntry t.exactTable m = s.find m priority := by
  have hkeyed : keyed m priority = fun e : MatchEntry δ => compareMatchStrict e.mtch m :=
    funext fun e => keyed_exact hm e
  rw [h.lookupExact,OrderedMap.find,OrderedMap.exact,hkeyed]
  refine find?_filter_of_imp fun e _ he => ?_
  rw [exactMatch_congr he,hm]

theorem Represents.wild_ranked (h : Represents t s) : Ranked MatchEntry.rank t.wildcardsTable := by
  rw [h.wild]
  exact pairwise_ranked _

theorem Represents.atMostOne_wild (h : Represents t s) (hm : exactMatch m = false) :
    AtMostOne (isEntry m priority) (s.filter fun e => !exactMatch e.mtch) := by
  rw [← keyed_wild hm]
  exact atMostOne_keyed (h.keys.filter _)

theorem Represents.find?_wild (h : Represents t s) (hm : exactMatch m = false) :
    t.wildcardsTable.find? (isEntry m priority) = s.find m priority := by
  rw [h.wild,OrderedMap.wild,
    ← (h.atMostOne_wild hm).find?_perm (ranked_perm _).symm,OrderedMap.find,← keyed_wild hm]
  refine find?_filter_of_imp fun e _ he => ?_
  rw [exactMatch_of_keyed he,hm]
  rfl

theorem Represents.lookupStrict [Inhabited δ] (h : Represents t s) (m : OfpMatch)
    (priority : UInt16) :
    lookupMatchStrictEntry t m priority = entryData (s.find m priority) := by
  rw [lookupMatchStrictEntry]
  split
  · rename_i hm
    rw [h.lookupExact_keyed hm]
  · rename_i hm
    rw [lookupWildcardsMatchStrictEntry_eq h.wild_ranked,h.find?_wild (by simpa using hm)]

theorem Represents.lookup [Inhabited δ] (h : Represents t s) (m : OfpMatch) :
    lookupMatchEntry t m = entryData (s.winner m) := by
  have hfun : (fun e : MatchEntry δ => compareMatch e.mtch m) =
      fun e => @decide (Meets e.mtch m) (Classical.propDecidable _) := by
    funext e
    exact Bool.eq_iff_iff.mpr (compareMatch_iff_meets.trans
      (@decide_eq_true_iff _ (Classical.propDecidable _)).symm)
  rw [lookupMatchEntry,OrderedMap.winner,h.lookupExact]
  refine congrArg entryData ?_
  cases hexact : s.exact.find? fun e => compareMatchStrict e.mtch m with
  | some entry => rfl
  | none =>
    rw [lookupWildcardsMatchEntry,h.wild]
    exact congrArg (List.find? · s.wild) hfun

theorem keyed_stored (e : MatchEntry δ) (data : δ) :
    keyed (stored m priority data).mtch (stored m priority data).priority e = keyed m priority e := by
  rw [stored]
  by_cases hm : exactMatch m = true
  · rw [keyed_exact hm,keyed_exact hm]
  · rw [if_neg hm]

theorem Represents.keys_append (h : Represents t s) (data : δ) (hnew : s.find m priority = none) :
    (s ++ [stored m priority data]).Pairwise fun a b => ¬ keyed b.mtch b.priority a = true := by
  refine List.pairwise_append.mpr ⟨h.keys,List.pairwise_singleton _ _,fun a ha b hb => ?_⟩
  rw [List.mem_singleton.mp hb,keyed_stored]
  exact List.find?_eq_none.mp hnew a ha

theorem Represents.dummy_append (h : Represents t s) (m : OfpMatch) (priority : UInt16) (data : δ) :
    ∀ e ∈ s ++ [stored m priority data], exactMatch e.mtch = true → e.priority = 0 := by
  intro e he hm
  rcases List.mem_append.mp he with he | he
  · exact h.dummy e he hm
  · rw [List.mem_singleton.mp he] at hm ⊢
    exact if_pos hm

theorem Represents.insert (h : Represents t s) (m : OfpMatch) (priority : UInt16) (data : δ) :
    (insertMatchEntry t m priority data).1 = (s.insert m priority data).1 ∧
      Represents (insertMatchEntry t m priority data).2 (s.insert m priority data).2 := by
  have hdummy := h.dummy_append m priority data
  rw [insertMatchEntry,OrderedMap.insert]
  by_cases hm : exactMatch m = true
  · have hstored : stored m priority data = ⟨m,0,data⟩ := by rw [stored,if_pos hm]
    rw [if_pos hm]
    have hsame : lookupExactMatchStrictEntry t.exactTable m = s.find m priority :=
      h.lookupExact_keyed hm
    simp only [insertExactMatchEntry,hsame]
    cases hfind : s.find m priority with
    | some e => exact ⟨rfl,h⟩
    | none =>
      have hkeys := h.keys_append data hfind
      have hlookup : lookupHashEntry compareMatchStrict hashExactMatchEntry t.exactTable m = none :=
        (h.lookupExact_keyed hm).trans hfind
      refine ⟨rfl,insertHashEntry_valid h.valid _ hm hlookup,?_,?_,hkeys,hdummy⟩
      · refine (foreach_insertHashEntry h.valid _ hlookup).trans ?_
        change List.Perm _ (((s ++ [stored m priority data]).filter _).map _)
        rw [List.filter_append,List.filter_cons_of_pos (by exact hm),List.filter_nil,List.map_append,
          hstored]
        exact (h.exact.cons _).trans (List.perm_append_singleton _ _).symm
      · change t.wildcardsTable = ranked _ ((s ++ [stored m priority data]).filter _)
        rw [List.filter_append,List.filter_cons_of_neg (by simp [stored,hm]),List.filter_nil,
          List.append_nil]
        exact h.wild
  · have hm' : exactMatch m = false := by simpa using hm
    have hstored : stored m priority data = ⟨m,priority,data⟩ := by rw [stored,if_neg hm]
    rw [if_neg hm]
    simp only [insertWildcardsMatchEntry_eq h.wild_ranked,h.find?_wild hm']
    cases hfind : s.find m priority with
    | some e => exact ⟨rfl,h⟩
    | none =>
      have hkeys := h.keys_append data hfind
      refine ⟨rfl,h.valid,?_,?_,hkeys,hdummy⟩
      · change List.Perm _ (((s ++ [stored m priority data]).filter _).map _)
        rw [List.filter_append,List.filter_cons_of_neg (by simp [stored,hm']),List.filter_nil,
          List.append_nil]
        exact h.exact
      · change place MatchEntry.rank _ t.wildcardsTable =
          ranked _ ((s ++ [stored m priority data]).filter _)
        rw [h.wild,OrderedMap.wild,place_ranked,List.filter_append,
          List.filter_cons_of_pos (by simp [stored,hm']),List.filter_nil,hstored]

section Refilling

variable (data : δ) (e : MatchEntry δ)

@[simp] theorem refilled_mtch : (refilled m priority data e).mtch = e.mtch := by
  rw [refilled]
  split <;> rfl

@[simp] theorem refilled_priority : (refilled m priority data e).priority = e.priority := by
  rw [refilled]
  split <;> rfl

theorem refilled_other (h : exactMatch e.mtch ≠ exactMatch m) : refilled m priority data e = e := by
  rw [refilled,if_neg fun hk => h (exactMatch_of_keyed hk)]

theorem filter_refilled (p : OfpMatch → Bool) :
    (s.map (refilled m priority data)).filter (fun e => p e.mtch) =
      (s.filter fun e => p e.mtch).map (refilled m priority data) := by
  rw [List.filter_map]
  have hfun : (fun e : MatchEntry δ => p e.mtch) ∘ refilled m priority data = fun e => p e.mtch :=
    funext fun e => by rw [Function.comp,refilled_mtch]
  rw [hfun]

theorem Represents.keys_refilled (h : Represents t s) (m : OfpMatch) (priority : UInt16) (data : δ) :
    (s.map (refilled m priority data)).Pairwise fun a b => ¬ keyed b.mtch b.priority a = true := by
  refine List.pairwise_map.mpr (h.keys.imp fun {a b} hab => ?_)
  rw [refilled_mtch,refilled_priority,keyed,refilled_mtch,refilled_priority]
  exact hab

theorem Represents.dummy_refilled (h : Represents t s) (m : OfpMatch) (priority : UInt16) (data : δ) :
    ∀ e ∈ s.map (refilled m priority data), exactMatch e.mtch = true → e.priority = 0 := by
  intro e he hm
  obtain ⟨a,ha,rfl⟩ := List.mem_map.mp he
  rw [refilled_mtch] at hm
  rw [refilled_priority]
  exact h.dummy a ha hm

end Refilling

theorem Represents.update (h : Represents t s) (m : OfpMatch) (priority : UInt16) (data : δ) :
    (updateMatchEntry t m priority data).1 = (s.update m priority data).1 ∧
      Represents (updateMatchEntry t m priority data).2 (s.update m priority data).2 := by
  have hkeys := h.keys_refilled m priority data
  have hdummy := h.dummy_refilled m priority data
  rw [updateMatchEntry,OrderedMap.update]
  by_cases hm : exactMatch m = true
  · have hsame : lookupExactMatchStrictEntry t.exactTable m = s.find m priority :=
      h.lookupExact_keyed hm
    rw [if_pos hm]
    simp only [updateExactMatchEntry,hsame]
    cases hfind : s.find m priority with
    | none => exact ⟨rfl,h⟩
    | some e =>
      refine ⟨rfl,modifyHashEntry_valid matchKeys h.valid m
        (fun entry => { entry with data := data }),?_,?_,hkeys,hdummy⟩
      · change List.Perm (foreachHash (modifyHashEntry _ _ _ _ _)) (((s.map _).filter _).map _)
        rw [foreach_modifyHashEntry matchKeys h.valid,filter_refilled data exactMatch]
        refine (h.exact.map _).trans (.of_eq ?_)
        rw [List.map_map,List.map_map]
        refine List.map_congr_left fun a _ => ?_
        simp only [Function.comp,refilled,keyed_exact hm,
          compareMatchStrict_comm m a.mtch]
        split <;> rfl
      · change t.wildcardsTable = ranked _ ((s.map _).filter _)
        rw [filter_refilled data fun m => !exactMatch m,h.wild,OrderedMap.wild]
        refine congrArg _ ((List.map_id _).symm.trans (List.map_congr_left fun a ha => ?_))
        have hne : exactMatch a.mtch ≠ exactMatch m := by
          have := (List.mem_filter.mp ha).2
          simp only [Bool.not_eq_true'] at this
          rw [this,hm]
          simp
        rw [refilled_other data a hne]
        rfl
  · have hm' : exactMatch m = false := by simpa using hm
    rw [if_neg hm]
    simp only [updateWildcardsMatchEntry,lookupWildcardsMatchStrictEntry_eq h.wild_ranked,
      h.find?_wild hm']
    cases hfind : s.find m priority with
    | none => exact ⟨rfl,h⟩
    | some e =>
      refine ⟨rfl,h.valid,?_,?_,hkeys,hdummy⟩
      · change List.Perm _ (((s.map _).filter _).map _)
        rw [filter_refilled data exactMatch]
        refine h.exact.trans (.of_eq ?_)
        refine congrArg _ ((List.map_id _).symm.trans (List.map_congr_left fun a ha => ?_))
        have hne : exactMatch a.mtch ≠ exactMatch m := by
          rw [(List.mem_filter.mp ha).2,hm']
          simp
        rw [refilled_other data a hne]
        rfl
      · have hone : AtMostOne (isEntry m priority) t.wildcardsTable := by
          rw [h.wild]
          exact (h.atMostOne_wild hm').perm (ranked_perm _).symm
        change modifyFirst _ _ t.wildcardsTable = ranked _ ((s.map _).filter _)
        rw [hone.modifyFirst,h.wild,OrderedMap.wild,filter_refilled data fun m => !exactMatch m,
          ← map_ranked fun a => by rw [MatchEntry.rank,refilled_priority]; rfl]
        refine List.map_congr_left fun a _ => ?_
        rw [refilled,keyed_wild hm']

theorem Represents.sub (h : Represents t s) (p : MatchEntry δ → Bool) :
    ((s.filter p).Pairwise fun a b => ¬ keyed b.mtch b.priority a = true) ∧
      ∀ e ∈ s.filter p, exactMatch e.mtch = true → e.priority = 0 :=
  ⟨h.keys.filter _,fun e he => h.dummy e (List.mem_filter.mp he).1⟩

theorem filter_unkeyed (p : OfpMatch → Bool) (hp : ∀ e ∈ s, p e.mtch = true →
    exactMatch e.mtch ≠ exactMatch m) :
    (s.filter fun e => !keyed m priority e).filter (fun e => p e.mtch) =
      s.filter fun e => p e.mtch := by
  rw [List.filter_comm]
  refine List.filter_eq_self.mpr fun e he => ?_
  have hne := hp e (List.mem_filter.mp he).1 (List.mem_filter.mp he).2
  by_cases hk : keyed m priority e = true
  · exact absurd (exactMatch_of_keyed hk) hne
  · simpa using hk

theorem Represents.remove [Inhabited δ] (h : Represents t s) (m : OfpMatch) (priority : UInt16) :
    (deleteMatchStrictEntry t m priority).1 = (s.remove m priority).1 ∧
      Represents (deleteMatchStrictEntry t m priority).2 (s.remove m priority).2 := by
  obtain ⟨hkeys,hdummy⟩ := h.sub fun e => !keyed m priority e
  have hmissing : s.find m priority = none → (s.filter fun e => !keyed m priority e) = s := by
    intro hfind
    refine List.filter_eq_self.mpr fun e he => ?_
    simpa using List.find?_eq_none.mp hfind e he
  rw [deleteMatchStrictEntry,OrderedMap.remove]
  by_cases hm : exactMatch m = true
  · have hsame : lookupExactMatchStrictEntry t.exactTable m = s.find m priority :=
      h.lookupExact_keyed hm
    rw [if_pos hm]
    simp only [deleteExactMatchStrictEntry,hsame]
    cases hfind : s.find m priority with
    | none => exact ⟨rfl,by rw [hmissing hfind]; exact h⟩
    | some e =>
      refine ⟨rfl,deleteHashEntry_valid h.valid m,?_,?_,hkeys,hdummy⟩
      · change List.Perm (foreachHash (deleteHashEntry _ _ _ _).2) (((s.filter _).filter _).map _)
        rw [foreach_deleteHashEntry matchKeys h.valid,List.filter_comm]
        refine (h.exact.filter _).trans (.of_eq ?_)
        rw [List.filter_map]
        refine congrArg _ (List.filter_congr fun a _ => ?_)
        rw [Function.comp,keyed_exact hm,compareMatchStrict_comm]
      · change t.wildcardsTable = ranked _ ((s.filter _).filter _)
        rw [filter_unkeyed (fun m => !exactMatch m),h.wild,OrderedMap.wild]
        intro a _ ha
        rw [hm]
        simpa using ha
  · have hm' : exactMatch m = false := by simpa using hm
    rw [if_neg hm]
    simp only [deleteWildcardsMatchStrictEntry,lookupWildcardsMatchStrictEntry_eq h.wild_ranked,
      h.find?_wild hm']
    cases hfind : s.find m priority with
    | none => exact ⟨rfl,by rw [hmissing hfind]; exact h⟩
    | some e =>
      refine ⟨rfl,h.valid,?_,?_,hkeys,hdummy⟩
      · change List.Perm _ (((s.filter _).filter _).map _)
        rw [filter_unkeyed exactMatch]
        · exact h.exact
        · intro a _ ha
          rw [hm',ha]
          simp
      · have hone : AtMostOne (isEntry m priority) t.wildcardsTable := by
          rw [h.wild]
          exact (h.atMostOne_wild hm').perm (ranked_perm _).symm
        change t.wildcardsTable.eraseP _ = ranked _ ((s.filter _).filter _)
        rw [hone.eraseP,h.wild,OrderedMap.wild,filter_ranked,List.filter_comm,keyed_wild hm']

end Simulation

end Trema.Table
