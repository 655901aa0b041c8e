import Trema.Table.HashWalk
import Trema.Table.Runs

namespace Trema.Table

open Library
open OpenFlow (OfpMatch)

variable {δ σ α : Type}

-- A match entry is named by the address of its list element: each has one of its own.
structure LinkedMatchTable (δ : Type) where
  exactTable : LinkedTable OfpMatch (MatchEntry δ)
  wildcardsTable : Chain (MatchEntry δ)
  allocated : Nat

namespace LinkedMatchTable

def initMatchTable : LinkedMatchTable δ := ⟨LinkedTable.createHash,[],0⟩

section Operations

variable [Inhabited δ]

def deleteExactMatchStrictEntry (exactTable : LinkedTable OfpMatch (MatchEntry δ)) (m : OfpMatch) :
    δ × LinkedTable OfpMatch (MatchEntry δ) :=
  match LinkedTable.lookupHashEntry compareMatchStrict hashExactMatchEntry exactTable m with
  | none => (default,exactTable)
  | some entry =>
    (entry.data,(LinkedTable.deleteHashEntry compareMatchStrict hashExactMatchEntry exactTable m).2)

def lookupWildcardsMatchStrictEntry (m : OfpMatch) (priority : UInt16) :
    Chain (MatchEntry δ) → Option (Nat × MatchEntry δ)
  | [] => none
  | element :: l =>
    if element.2.priority < priority then none
    else if isEntry m priority element.2 then some element
    else lookupWildcardsMatchStrictEntry m priority l

def deleteWildcardsMatchStrictEntry (wildcardsTable : Chain (MatchEntry δ)) (m : OfpMatch)
    (priority : UInt16) : δ × Chain (MatchEntry δ) :=
  match lookupWildcardsMatchStrictEntry m priority wildcardsTable with
  | none => (default,wildcardsTable)
  | some element => (element.2.data,Chain.unlink wildcardsTable element.1)

def deleteMatchStrictEntry (t : LinkedMatchTable δ) (m : OfpMatch) (priority : UInt16) :
    δ × LinkedMatchTable δ :=
  if exactMatch m then
    let r := deleteExactMatchStrictEntry t.exactTable m
    (r.1,{ t with exactTable := r.2 })
  else
    let r := deleteWildcardsMatchStrictEntry t.wildcardsTable m priority
    (r.1,{ t with wildcardsTable := r.2 })

end Operations

section Map

variable (criteria : Option OfpMatch) (table : σ → LinkedMatchTable δ)
  (function : OfpMatch → UInt16 → δ → σ → σ)

def mapExactMatchTable (n : Nat) (s : σ) : Run Empty σ :=
  LinkedTable.foreachHash (fun s => (table s).exactTable)
    (fun e s => visitEntry criteria function s e.2) n s

def mapWildcardsMatchTable (n : Nat) (s : σ) : Run Empty σ :=
  Chain.walk (fun s => (table s).wildcardsTable) (fun entry s => .ok (visitEntry criteria function s entry))
    n (Chain.first (table s).wildcardsTable) s

def mapMatchTable (n : Nat) (s : σ) : Run Empty σ :=
  mapExactMatchTable criteria table function n s >>= mapWildcardsMatchTable criteria table function n

end Map

-- The table without the addresses of its cells.
def forget (t : LinkedMatchTable δ) : MatchTable δ :=
  ⟨t.exactTable.forget,Chain.contents t.wildcardsTable⟩

structure Valid (t : LinkedMatchTable δ) : Prop where
  exact : t.exactTable.Valid compareMatchStrict hashExactMatchEntry fun m => exactMatch m = true
  sized : t.exactTable.numberOfBuckets = 65521
  distinct : (Chain.addresses t.wildcardsTable).Nodup
  fresh : ∀ a ∈ Chain.addresses t.wildcardsTable, a < t.allocated

section Deletion

variable [Inhabited δ] {t : LinkedMatchTable δ}

omit [Inhabited δ] in
theorem lookupWildcards_forget (m : OfpMatch) (priority : UInt16) (c : Chain (MatchEntry δ)) :
    (lookupWildcardsMatchStrictEntry m priority c).map Prod.snd =
      Table.lookupWildcardsMatchStrictEntry m priority (Chain.contents c) := by
  induction c with
  | nil => rfl
  | cons element c ih =>
    rw [lookupWildcardsMatchStrictEntry,Chain.contents_cons,Table.lookupWildcardsMatchStrictEntry]
    split
    · rfl
    · split
      · rfl
      · exact ih

omit [Inhabited δ] in
theorem lookupWildcards_some {m : OfpMatch} {priority : UInt16} {c : Chain (MatchEntry δ)}
    {element : Nat × MatchEntry δ} (h : lookupWildcardsMatchStrictEntry m priority c = some element) :
    c.find? (fun e => isEntry m priority e.2) = some element := by
  induction c with
  | nil => exact absurd h (by simp [lookupWildcardsMatchStrictEntry])
  | cons head c ih =>
    rw [lookupWildcardsMatchStrictEntry] at h
    split at h
    · exact absurd h (by simp)
    · split at h
      · rename_i he
        exact (List.find?_cons_of_pos (by exact he)).trans h
      · rename_i he
        exact (List.find?_cons_of_neg (by exact he)).trans (ih h)

theorem deleteExact_forget (h : t.Valid) (m : OfpMatch) :
    (deleteExactMatchStrictEntry t.exactTable m).1 =
        (Table.deleteExactMatchStrictEntry t.exactTable.forget m).1 ∧
      (deleteExactMatchStrictEntry t.exactTable m).2.forget =
        (Table.deleteExactMatchStrictEntry t.exactTable.forget m).2 := by
  rw [deleteExactMatchStrictEntry,Table.deleteExactMatchStrictEntry,lookupExactMatchStrictEntry,
    LinkedTable.lookupHashEntry_forget]
  cases Table.lookupHashEntry compareMatchStrict hashExactMatchEntry t.exactTable.forget m with
  | none => exact ⟨rfl,rfl⟩
  | some entry => exact ⟨rfl,(LinkedTable.forget_deleteHashEntry h.exact m).2⟩

theorem deleteWildcards_forget (h : t.Valid) (m : OfpMatch) (priority : UInt16) :
    (deleteWildcardsMatchStrictEntry t.wildcardsTable m priority).1 =
        (Table.deleteWildcardsMatchStrictEntry (Chain.contents t.wildcardsTable) m priority).1 ∧
      Chain.contents (deleteWildcardsMatchStrictEntry t.wildcardsTable m priority).2 =
        (Table.deleteWildcardsMatchStrictEntry (Chain.contents t.wildcardsTable) m priority).2 := by
  rw [deleteWildcardsMatchStrictEntry,Table.deleteWildcardsMatchStrictEntry,← lookupWildcards_forget]
  cases hfind : lookupWildcardsMatchStrictEntry m priority t.wildcardsTable with
  | none => exact ⟨rfl,rfl⟩
  | some element =>
    exact ⟨rfl,Chain.contents_unlink_find (isEntry m priority) h.distinct (lookupWildcards_some hfind)⟩

theorem deleteMatchStrictEntry_forget (h : t.Valid) (m : OfpMatch) (priority : UInt16) :
    (deleteMatchStrictEntry t m priority).1 = (Table.deleteMatchStrictEntry t.forget m priority).1 ∧
      (deleteMatchStrictEntry t m priority).2.forget =
        (Table.deleteMatchStrictEntry t.forget m priority).2 := by
  rw [deleteMatchStrictEntry,Table.deleteMatchStrictEntry]
  split
  · obtain ⟨hdata,htable⟩ := deleteExact_forget h m
    exact ⟨hdata,congrArg (fun exact => MatchTable.mk exact _) htable⟩
  · obtain ⟨hdata,htable⟩ := deleteWildcards_forget h m priority
    exact ⟨hdata,congrArg (MatchTable.mk _) htable⟩

theorem deleteMatchStrictEntry_valid (h : t.Valid) (m : OfpMatch) (priority : UInt16) :
    (deleteMatchStrictEntry t m priority).2.Valid := by
  rw [deleteMatchStrictEntry]
  split
  · simp only [deleteExactMatchStrictEntry]
    split
    · exact h
    · exact ⟨LinkedTable.deleteHashEntry_valid matchKeys h.exact m,
        (LinkedTable.numberOfBuckets_deleteHashEntry h.exact m).trans h.sized,h.distinct,h.fresh⟩
  · simp only [deleteWildcardsMatchStrictEntry]
    split
    · exact h
    · exact ⟨h.exact,h.sized,Chain.nodup_unlink h.distinct _,
        fun a ha => h.fresh a (((Chain.unlink_sublist _ _).map Prod.fst).subset ha)⟩

end Deletion

section Walks

variable [Inhabited δ] (acc : δ → α → α)

-- A walker that deletes the entry it is given and makes something of the data it held.
def deletingWalker (m : OfpMatch) (priority : UInt16) (_ : δ) (r : α × LinkedMatchTable δ) :
    α × LinkedMatchTable δ :=
  let d := deleteMatchStrictEntry r.2 m priority
  (acc d.1 r.1,d.2)

def forgottenWalker (m : OfpMatch) (priority : UInt16) (_ : δ) (r : α × MatchTable δ) :
    α × MatchTable δ :=
  let d := Table.deleteMatchStrictEntry r.2 m priority
  (acc d.1 r.1,d.2)

def Kept (r : α × LinkedMatchTable δ) : Prop := r.2.Valid ∧ ∃ s, Represents r.2.forget s

variable {acc} {criteria : Option OfpMatch} {r : α × LinkedMatchTable δ}

variable (acc criteria) in
theorem visit_forget (h : Kept r) (e : MatchEntry δ) :
    Kept (visitEntry criteria (deletingWalker acc) r e) ∧
      ((visitEntry criteria (deletingWalker acc) r e).1,
        (visitEntry criteria (deletingWalker acc) r e).2.forget) =
        visitEntry criteria (forgottenWalker acc) (r.1,r.2.forget) e := by
  obtain ⟨hvalid,s,hs⟩ := h
  rw [visitEntry,visitEntry]
  split
  · obtain ⟨hdata,htable⟩ := deleteMatchStrictEntry_forget hvalid e.mtch e.priority
    simp only [deletingWalker,forgottenWalker]
    refine ⟨⟨deleteMatchStrictEntry_valid hvalid _ _,(s.remove e.mtch e.priority).2,?_⟩,?_⟩
    · simp only
      rw [htable]
      exact (hs.remove e.mtch e.priority).2
    · rw [hdata,htable]
  · exact ⟨⟨hvalid,s,hs⟩,rfl⟩

variable (acc criteria) in
theorem foldl_forget (h : Kept r) (es : List (MatchEntry δ)) :
    Kept (es.foldl (visitEntry criteria (deletingWalker acc)) r) ∧
      ((es.foldl (visitEntry criteria (deletingWalker acc)) r).1,
        (es.foldl (visitEntry criteria (deletingWalker acc)) r).2.forget) =
        es.foldl (visitEntry criteria (forgottenWalker acc)) (r.1,r.2.forget) := by
  induction es generalizing r with
  | nil => exact ⟨h,rfl⟩
  | cons e es ih =>
    obtain ⟨hnext,heq⟩ := visit_forget acc criteria h e
    rw [List.foldl_cons,List.foldl_cons,← heq]
    exact ih hnext

omit [Inhabited δ] in
theorem Kept.stored (h : Kept r) {i : Nat} {e : OfpMatch × MatchEntry δ}
    (he : e ∈ LinkedTable.entriesAt r.2.exactTable i) :
    e.1 = e.2.mtch ∧ exactMatch e.2.mtch = true := by
  obtain ⟨hvalid,s,hs⟩ := h
  have hmem : e ∈ foreachHash r.2.exactTable.forget :=
    hvalid.exact.table.mem_foreach.mpr (by rw [hvalid.exact.table.placed i e he]; exact he)
  obtain ⟨entry,-,rfl⟩ := List.mem_map.mp (hs.exact.mem_iff.mp hmem)
  exact ⟨rfl,hvalid.exact.table.good i _ he⟩

theorem exact_deletes (criteria : Option OfpMatch) (acc : δ → α → α) :
    LinkedTable.Deletes compareMatchStrict hashExactMatchEntry (fun m => exactMatch m = true)
      (fun r : α × LinkedMatchTable δ => r.2.exactTable)
      (fun e r => visitEntry criteria (deletingWalker acc) r e.2) Kept := by
  refine ⟨fun r h => h.1.exact,fun r i pre cell rest h hc => ⟨(visit_forget acc criteria h cell.2.2).1,?_⟩⟩
  have hmem : cell.2 ∈ LinkedTable.entriesAt r.2.exactTable i := by
    rw [LinkedTable.entriesAt_eq,hc]
    exact Chain.mem_contents (by simp)
  obtain ⟨hkey,hexact⟩ := h.stored hmem
  obtain ⟨htrims,hleft⟩ := LinkedTable.delete_presented matchKeys compareMatchStrict_refl h.1.exact hc
  rw [visitEntry]
  split
  · have hlookup : LinkedTable.lookupHashEntry compareMatchStrict hashExactMatchEntry r.2.exactTable
        cell.2.2.mtch = some cell.2.2 := by
      rw [LinkedTable.lookupHashEntry_forget,← hkey]
      refine mem_foreach_lookup matchKeys h.1.exact.table compareMatchStrict_refl ?_
      rw [h.1.exact.table.mem_foreach,h.1.exact.table.placed i _ hmem]
      exact hmem
    have hdelete : (deletingWalker acc cell.2.2.mtch cell.2.2.priority cell.2.2.data r).2.exactTable =
        (LinkedTable.deleteHashEntry compareMatchStrict hashExactMatchEntry r.2.exactTable cell.2.1).2 := by
      simp only [deletingWalker,deleteMatchStrictEntry,hexact,if_true,deleteExactMatchStrictEntry,hlookup,
        hkey]
    rw [hdelete]
    exact ⟨htrims,pre,hleft⟩
  · exact ⟨.refl h.1.exact i,pre ++ [cell],by rw [hc]; simp⟩

omit [Inhabited δ] in
theorem Kept.lookup_cell (h : Kept r) {cell : Nat × MatchEntry δ} (hmem : cell ∈ r.2.wildcardsTable) :
    exactMatch cell.2.mtch = false ∧
      lookupWildcardsMatchStrictEntry cell.2.mtch cell.2.priority r.2.wildcardsTable = some cell := by
  obtain ⟨hvalid,s,hs⟩ := h
  have hcontents : cell.2 ∈ Chain.contents r.2.wildcardsTable := Chain.mem_contents hmem
  have hwildcards : Chain.contents r.2.wildcardsTable = s.wild := hs.wild
  have hwild : exactMatch cell.2.mtch = false := by
    rw [hwildcards,OrderedMap.wild,mem_ranked,List.mem_filter] at hcontents
    simpa using hcontents.2
  have hself : isEntry cell.2.mtch cell.2.priority cell.2 = true := by
    simp [isEntry,compareMatchStrict_refl]
  have hone : AtMostOne (isEntry cell.2.mtch cell.2.priority) (Chain.contents r.2.wildcardsTable) := by
    rw [hwildcards]
    exact (hs.atMostOne_wild hwild).perm (ranked_perm _).symm
  have hcells : AtMostOne (fun e : Nat × MatchEntry δ => isEntry cell.2.mtch cell.2.priority e.2)
      r.2.wildcardsTable := List.pairwise_map.mp hone
  have hsearch := lookupWildcards_forget cell.2.mtch cell.2.priority r.2.wildcardsTable
  have hranked : Ranked MatchEntry.rank (Chain.contents r.2.wildcardsTable) := hs.wild_ranked
  rw [lookupWildcardsMatchStrictEntry_eq hranked,hone.find?_eq_some.mpr ⟨hcontents,hself⟩,
    Option.map_eq_some_iff] at hsearch
  obtain ⟨element,hlookup,-⟩ := hsearch
  have hfound := lookupWildcards_some hlookup
  rw [hcells.find?_eq_some.mpr ⟨hmem,hself⟩] at hfound
  exact ⟨hwild,hlookup.trans hfound.symm⟩

theorem wildcards_spared (criteria : Option OfpMatch) (acc : δ → α → α) :
    Chain.Spares (fun r : α × LinkedMatchTable δ => r.2.wildcardsTable)
      (fun entry r => (.ok (visitEntry criteria (deletingWalker acc) r entry) :
        Run Empty (α × LinkedMatchTable δ))) Kept := by
  intro r r' pre cell rest h hc hok
  simp only at hc ⊢
  obtain rfl := Except.ok.inj hok
  refine ⟨(visit_forget acc criteria h cell.2).1,?_⟩
  rw [visitEntry]
  split
  · obtain ⟨hwild,hfind⟩ := h.lookup_cell (show cell ∈ r.2.wildcardsTable by rw [hc]; simp)
    refine ⟨pre,?_⟩
    simp only [deletingWalker,deleteMatchStrictEntry,hwild,deleteWildcardsMatchStrictEntry,hfind,
      Bool.false_eq_true,if_false]
    rw [hc]
    exact Chain.unlink_append (hc ▸ h.1.distinct)
  · exact ⟨pre ++ [cell],by rw [hc]; simp⟩

variable (acc criteria) in
theorem wildcards_shrink (es : List (MatchEntry δ)) (r : α × LinkedMatchTable δ) :
    (es.foldl (visitEntry criteria (deletingWalker acc)) r).2.wildcardsTable.length ≤
      r.2.wildcardsTable.length := by
  induction es generalizing r with
  | nil => exact le_rfl
  | cons e es ih =>
    refine (ih _).trans ?_
    rw [visitEntry]
    split
    · simp only [deletingWalker,deleteMatchStrictEntry]
      split
      · exact le_rfl
      · simp only [deleteWildcardsMatchStrictEntry]
        split
        · exact le_rfl
        · exact (Chain.unlink_sublist _ _).length_le
    · exact le_rfl

variable (acc criteria) in
theorem mapMatchTable_forget (h : Kept r) :
    ∃ r' bound, (∀ n, bound ≤ n → mapMatchTable criteria Prod.snd (deletingWalker acc) n r = .ok r') ∧
      Kept r' ∧ (r'.1,r'.2.forget) =
        Table.mapMatchTable criteria Prod.snd (forgottenWalker acc) (r.1,r.2.forget) := by
  have hsmall : ∀ i ∈ Chain.contents r.2.exactTable.nonemptyBucketIndex, i < 2 ^ 31 := by
    intro i hi
    have hlt := LinkedTable.index_lt h.1.exact hi
    rw [h.1.sized] at hlt
    exact hlt.trans (by decide)
  obtain ⟨hkept,heq⟩ := foldl_forget acc criteria h ((foreachHash r.2.exactTable.forget).map Prod.snd)
  obtain ⟨hkept',heq'⟩ := foldl_forget acc criteria hkept (Chain.contents
    (((foreachHash r.2.exactTable.forget).map Prod.snd).foldl
      (visitEntry criteria (deletingWalker acc)) r).2.wildcardsTable)
  refine ⟨_,r.2.exactTable.nonemptyBucketIndex.length + (foreachHash r.2.exactTable.forget).length +
    r.2.wildcardsTable.length,fun n hn => ?_,hkept',?_⟩
  · have hexact : mapExactMatchTable criteria Prod.snd (deletingWalker acc) n r =
        .ok (((foreachHash r.2.exactTable.forget).map Prod.snd).foldl
          (visitEntry criteria (deletingWalker acc)) r) := by
      rw [List.foldl_map]
      exact ((exact_deletes criteria acc).foreachHash (n := n) h (by omega)).1 hsmall
    have hshrink := wildcards_shrink acc criteria ((foreachHash r.2.exactTable.forget).map Prod.snd) r
    have hwild := Chain.walk_all (fun r hr => hr.1.distinct) (wildcards_spared criteria acc) hkept
      (hshrink.trans (show _ ≤ n by omega))
    rw [mapMatchTable,hexact,ok_bind,mapWildcardsMatchTable]
    exact hwild.trans (Chain.visited_ok (fun entry r =>
      visitEntry criteria (deletingWalker acc) r entry) _ _)
  · rw [heq']
    exact congrArg (fun q : α × MatchTable δ =>
      q.2.wildcardsTable.foldl (visitEntry criteria (forgottenWalker acc)) q) heq

end Walks

end LinkedMatchTable

end Trema.Table
