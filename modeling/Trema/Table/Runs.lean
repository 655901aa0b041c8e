import Trema.Table.Refinement

namespace Trema.Table

open Library
open OpenFlow (OfpMatch)

variable {δ : Type}

inductive Operation (δ : Type) where
  | insert (m : OfpMatch) (priority : UInt16) (data : δ)
  | update (m : OfpMatch) (priority : UInt16) (data : δ)
  | deleteStrict (m : OfpMatch) (priority : UInt16)
  | lookupStrict (m : OfpMatch) (priority : UInt16)
  | lookup (m : OfpMatch)
  | deleteMapped (criteria : Option OfpMatch) (chosen : OfpMatch → UInt16 → δ → Bool)

inductive Answer (δ : Type) where
  | status (result : Bool)
  | data (data : δ)
  | done
deriving DecidableEq, Repr

section Steps

variable [Inhabited δ]

def deleteWalker (chosen : OfpMatch → UInt16 → δ → Bool) (m : OfpMatch) (priority : UInt16)
    (data : δ) (t : MatchTable δ) : MatchTable δ :=
  if chosen m priority data then (deleteMatchStrictEntry t m priority).2 else t

def step (t : MatchTable δ) : Operation δ → Answer δ × MatchTable δ
  | .insert m priority data =>
    let r := insertMatchEntry t m priority data
    (.status r.1,r.2)
  | .update m priority data =>
    let r := updateMatchEntry t m priority data
    (.status r.1,r.2)
  | .deleteStrict m priority =>
    let r := deleteMatchStrictEntry t m priority
    (.data r.1,r.2)
  | .lookupStrict m priority => (.data (lookupMatchStrictEntry t m priority),t)
  | .lookup m => (.data (lookupMatchEntry t m),t)
  | .deleteMapped criteria chosen => (.done,mapMatchTable criteria id (deleteWalker chosen) t)

def run (t : MatchTable δ) : List (Operation δ) → List (Answer δ) × MatchTable δ
  | [] => ([],t)
  | op :: ops =>
    let r := run (step t op).2 ops
    ((step t op).1 :: r.1,r.2)

end Steps

namespace OrderedMap

def removeMapped (s : OrderedMap δ) (criteria : Option OfpMatch)
    (chosen : OfpMatch → UInt16 → δ → Bool) : OrderedMap δ :=
  s.filter fun e => !(selects criteria e.mtch && chosen e.mtch e.priority e.data)

variable [Inhabited δ]

noncomputable def step (s : OrderedMap δ) : Operation δ → Answer δ × OrderedMap δ
  | .insert m priority data =>
    let r := s.insert m priority data
    (.status r.1,r.2)
  | .update m priority data =>
    let r := s.update m priority data
    (.status r.1,r.2)
  | .deleteStrict m priority =>
    let r := s.remove m priority
    (.data r.1,r.2)
  | .lookupStrict m priority => (.data (entryData (s.find m priority)),s)
  | .lookup m => (.data (entryData (s.winner m)),s)
  | .deleteMapped criteria chosen => (.done,s.removeMapped criteria chosen)

noncomputable def run (s : OrderedMap δ) : List (Operation δ) → List (Answer δ) × OrderedMap δ
  | [] => ([],s)
  | op :: ops =>
    let r := run (s.step op).2 ops
    ((s.step op).1 :: r.1,r.2)

end OrderedMap

theorem represents_init : Represents (initMatchTable : MatchTable δ) [] :=
  ⟨createHash_valid _ _ _,.refl _,by simp [initMatchTable,OrderedMap.wild,ranked],.nil,by simp⟩

section Mapping

variable [Inhabited δ] {t : MatchTable δ} {s : OrderedMap δ} {criteria : Option OfpMatch}
  {chosen : OfpMatch → UInt16 → δ → Bool}

def condemned (criteria : Option OfpMatch) (chosen : OfpMatch → UInt16 → δ → Bool)
    (e : MatchEntry δ) : Bool := selects criteria e.mtch && chosen e.mtch e.priority e.data

theorem visitEntry_delete (t : MatchTable δ) (e : MatchEntry δ) :
    visitEntry criteria (deleteWalker chosen) t e =
      if condemned criteria chosen e then (deleteMatchStrictEntry t e.mtch e.priority).2 else t := by
  rw [visitEntry,condemned,deleteWalker]
  by_cases hs : selects criteria e.mtch = true
  · simp [hs]
  · simp [hs]

theorem Represents.foldl_delete (h : Represents t s) (es : List (MatchEntry δ)) :
    Represents (es.foldl (visitEntry criteria (deleteWalker chosen)) t)
      (s.filter fun x => !es.any fun e => condemned criteria chosen e && keyed e.mtch e.priority x) := by
  induction es generalizing t s with
  | nil =>
    rw [List.foldl_nil,List.filter_eq_self.mpr (by simp)]
    exact h
  | cons e es ih =>
    rw [List.foldl_cons,visitEntry_delete]
    by_cases hc : condemned criteria chosen e = true
    · rw [if_pos hc]
      have hnext := ih (h.remove e.mtch e.priority).2
      rw [OrderedMap.remove,List.filter_filter] at hnext
      refine cast (congrArg _ (List.filter_congr fun x _ => ?_)) hnext
      rw [List.any_cons,hc,Bool.true_and,Bool.not_or,Bool.and_comm]
    · rw [if_neg hc]
      refine cast (congrArg _ (List.filter_congr fun x _ => ?_)) (ih h)
      rw [List.any_cons]
      simp [hc]

omit [Inhabited δ] in
theorem Represents.any_condemned (h : Represents t s) {es : List (MatchEntry δ)}
    (hes : ∀ e ∈ es, e ∈ s) {x : MatchEntry δ} (hx : x ∈ s) :
    (es.any fun e => condemned criteria chosen e && keyed e.mtch e.priority x) = true ↔
      x ∈ es ∧ condemned criteria chosen x = true := by
  rw [List.any_eq_true]
  constructor
  · rintro ⟨e,he,hboth⟩
    rw [Bool.and_eq_true] at hboth
    rw [h.keyed_self hx (hes e he) hboth.2]
    exact ⟨he,hboth.1⟩
  · rintro ⟨he,hc⟩
    exact ⟨x,he,by simp [hc,keyed,compareMatchStrict_refl]⟩

theorem Represents.removeMapped (h : Represents t s) (criteria : Option OfpMatch)
    (chosen : OfpMatch → UInt16 → δ → Bool) :
    Represents (mapMatchTable criteria id (deleteWalker chosen) t) (s.removeMapped criteria chosen) := by
  have hvisited : ∀ e, e ∈ (foreachHash t.exactTable).map Prod.snd ↔ e ∈ s.exact := by
    intro e
    rw [(h.exact.map Prod.snd).mem_iff,List.map_map]
    simp
  have hexact : Represents (((foreachHash t.exactTable).map Prod.snd).foldl
      (visitEntry criteria (deleteWalker chosen)) t)
      (s.filter fun x => !(exactMatch x.mtch && condemned criteria chosen x)) := by
    refine cast (congrArg _ (List.filter_congr fun x hx => ?_)) (h.foldl_delete _)
    refine congrArg _ (Bool.eq_iff_iff.mpr ?_)
    rw [h.any_condemned (fun e he => (List.mem_filter.mp ((hvisited e).mp he)).1) hx,hvisited,
      Bool.and_eq_true,OrderedMap.exact,List.mem_filter]
    exact ⟨fun hm => ⟨hm.1.2,hm.2⟩,fun hm => ⟨⟨hx,hm.1⟩,hm.2⟩⟩
  refine cast (congrArg _ ?_) (hexact.foldl_delete (((foreachHash t.exactTable).map Prod.snd).foldl
    (visitEntry criteria (deleteWalker chosen)) t).wildcardsTable)
  have hsame : ∀ x ∈ s.filter fun x => !(exactMatch x.mtch && condemned criteria chosen x),
      (!(((foreachHash t.exactTable).map Prod.snd).foldl
        (visitEntry criteria (deleteWalker chosen)) t).wildcardsTable.any fun e =>
          condemned criteria chosen e && keyed e.mtch e.priority x) =
        !(!exactMatch x.mtch && condemned criteria chosen x) := by
    intro x hx
    refine congrArg _ (Bool.eq_iff_iff.mpr ?_)
    have hmem : ∀ e, e ∈ (((foreachHash t.exactTable).map Prod.snd).foldl
        (visitEntry criteria (deleteWalker chosen)) t).wildcardsTable ↔
        e ∈ (s.filter fun x => !(exactMatch x.mtch && condemned criteria chosen x)) ∧
          (!exactMatch e.mtch) = true := by
      intro e
      rw [hexact.wild,OrderedMap.wild,mem_ranked,List.mem_filter]
    rw [hexact.any_condemned (fun e he => ((hmem e).mp he).1) hx,hmem,Bool.and_eq_true]
    exact ⟨fun hm => ⟨hm.1.2,hm.2⟩,fun hm => ⟨⟨hx,hm.1⟩,hm.2⟩⟩
  rw [List.filter_congr hsame,List.filter_filter,OrderedMap.removeMapped]
  refine List.filter_congr fun x _ => ?_
  change _ = !condemned criteria chosen x
  cases exactMatch x.mtch <;> cases condemned criteria chosen x <;> rfl

theorem Represents.step (h : Represents t s) (op : Operation δ) :
    (step t op).1 = (s.step op).1 ∧ Represents (step t op).2 (s.step op).2 := by
  cases op with
  | insert m priority data =>
    obtain ⟨ha,hr⟩ := h.insert m priority data
    exact ⟨congrArg Answer.status ha,hr⟩
  | update m priority data =>
    obtain ⟨ha,hr⟩ := h.update m priority data
    exact ⟨congrArg Answer.status ha,hr⟩
  | deleteStrict m priority =>
    obtain ⟨ha,hr⟩ := h.remove m priority
    exact ⟨congrArg Answer.data ha,hr⟩
  | lookupStrict m priority => exact ⟨congrArg Answer.data (h.lookupStrict m priority),h⟩
  | lookup m => exact ⟨congrArg Answer.data (h.lookup m),h⟩
  | deleteMapped criteria chosen => exact ⟨rfl,h.removeMapped criteria chosen⟩

theorem Represents.run (h : Represents t s) (ops : List (Operation δ)) :
    (run t ops).1 = (s.run ops).1 ∧ Represents (run t ops).2 (s.run ops).2 := by
  induction ops generalizing t s with
  | nil => exact ⟨rfl,h⟩
  | cons op ops ih =>
    obtain ⟨ha,hr⟩ := h.step op
    obtain ⟨has,hrs⟩ := ih hr
    refine ⟨?_,hrs⟩
    change (Table.step t op).1 :: (Table.run _ ops).1 = _ :: _
    rw [ha,has]

end Mapping

theorem Represents.wild_distinct {t : MatchTable δ} {s : OrderedMap δ} (h : Represents t s) :
    t.wildcardsTable.Pairwise fun a b =>
      ¬ (a.priority = b.priority ∧ compareMatchStrict a.mtch b.mtch = true) := by
  have hsymm : ∀ {a b : MatchEntry δ}, ¬ (a.priority = b.priority ∧
      compareMatchStrict a.mtch b.mtch = true) → ¬ (b.priority = a.priority ∧
        compareMatchStrict b.mtch a.mtch = true) := by
    intro a b hab hba
    exact hab ⟨hba.1.symm,compareMatchStrict_symm hba.2⟩
  rw [h.wild]
  refine (ranked_perm _).symm.pairwise ?_ hsymm
  refine (h.keys.filter _).imp fun hab hboth => hab ?_
  simp [keyed,hboth.1,hboth.2]

theorem Represents.exact_distinct {t : MatchTable δ} {s : OrderedMap δ} (h : Represents t s) :
    s.exact.Pairwise fun a b => ¬ compareMatchStrict a.mtch b.mtch = true := by
  refine List.Pairwise.imp_of_mem ?_ (h.keys.filter _)
  intro a b _ hb hab hboth
  refine hab ?_
  rw [keyed_exact (List.mem_filter.mp hb).2]
  exact hboth

theorem filter_priority_wild (s : OrderedMap δ) (priority : UInt16) :
    s.wild.filter (fun e => e.priority == priority) =
      s.filter fun e => !exactMatch e.mtch && e.priority == priority := by
  have hsame : ∀ e : MatchEntry δ, (e.priority == priority) = decide (e.rank = priority.toNat) :=
    fun e => Bool.eq_iff_iff.mpr
      (beq_iff_eq.trans (UInt16.toNat_inj.symm.trans decide_eq_true_iff.symm))
  simp only [hsame]
  rw [OrderedMap.wild,filter_ranked_eq,List.filter_filter]
  exact List.filter_congr fun e _ => Bool.and_comm _ _

section Reached

variable [Inhabited δ]

def reached (ops : List (Operation δ)) : MatchTable δ := (run initMatchTable ops).2

noncomputable def OrderedMap.reached (ops : List (Operation δ)) : OrderedMap δ :=
  (OrderedMap.run [] ops).2

theorem represents_reached (ops : List (Operation δ)) :
    Represents (reached ops) (OrderedMap.reached ops) := (represents_init.run ops).2

theorem match_table_refines (ops : List (Operation δ)) :
    (run (initMatchTable : MatchTable δ) ops).1 = (OrderedMap.run [] ops).1 ∧
    ((reached ops).wildcardsTable.Pairwise fun a b => b.priority ≤ a.priority) ∧
    (∀ priority, (reached ops).wildcardsTable.filter (fun e => e.priority == priority) =
      (OrderedMap.reached ops).filter fun e => !exactMatch e.mtch && e.priority == priority) ∧
    ((reached ops).wildcardsTable.Pairwise fun a b =>
      ¬ (a.priority = b.priority ∧ compareMatchStrict a.mtch b.mtch = true)) ∧
    ((foreachHash (reached ops).exactTable).map Prod.snd).Perm (OrderedMap.reached ops).exact ∧
    ((OrderedMap.reached ops).exact.Pairwise fun a b =>
      ¬ compareMatchStrict a.mtch b.mtch = true) := by
  have h := represents_reached ops
  refine ⟨(represents_init.run ops).1,?_,fun priority => ?_,h.wild_distinct,?_,h.exact_distinct⟩
  · exact h.wild_ranked.imp fun hab => UInt16.le_iff_toNat_le.mpr hab
  · rw [h.wild,filter_priority_wild]
  · refine (h.exact.map Prod.snd).trans (.of_eq ?_)
    rw [List.map_map]
    exact List.map_id _

end Reached

def portMatch (inPort : UInt16) : OfpMatch :=
  ⟨OpenFlow.ofpfwAll &&& ~~~ofpfwInPort,inPort,⟨0,0,0,0,0,0⟩,⟨0,0,0,0,0,0⟩,0,0,0,0,0,0,0,0,0,0,0⟩

def anyPacket : OfpMatch :=
  ⟨OpenFlow.ofpfwAll,0,⟨0,0,0,0,0,0⟩,⟨0,0,0,0,0,0⟩,0,0,0,0,0,0,0,0,0,0,0⟩

theorem lookup_without_cover :
    lookupExactMatchStrictEntry (reached [Operation.insert (portMatch 1) 1 7]).exactTable
      anyPacket = none ∧
    (∀ e ∈ (reached [Operation.insert (portMatch 1) 1 7]).wildcardsTable,
      ¬ Covers e.mtch anyPacket) ∧
    lookupMatchEntry (reached [Operation.insert (portMatch 1) 1 7]) anyPacket = 7 := by
  refine ⟨by decide,?_,by decide⟩
  intro e he hcovers
  have hentry : (reached [Operation.insert (portMatch 1) 1 7]).wildcardsTable =
      [⟨portMatch 1,1,7⟩] := by decide
  rw [hentry] at he
  rw [List.mem_singleton.mp he] at hcovers
  have hother := hcovers { portMatch 2 with wildcards := 0 } (by decide) (by decide)
  exact absurd hother (by decide)

end Trema.Table
