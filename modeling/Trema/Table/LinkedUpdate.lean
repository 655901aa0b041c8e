import Trema.Table.LinkedMatch

namespace Trema.Table

open Library
open OpenFlow (OfpMatch)

namespace LinkedTable

variable {κ ν : Type} {compare : κ → κ → Bool} {hash : κ → UInt32} {good : κ → Prop}
  {t : LinkedTable κ ν}

variable (compare hash) in
-- A write through the value pointer that lookup_hash_entry returns.
def modifyHashEntry (t : LinkedTable κ ν) (key : κ) (f : ν → ν) : LinkedTable κ ν :=
  let i := getBucketIndex hash t key
  match t.buckets i with
  | none => t
  | some bucket =>
    setBucket t i (some { bucket with
      elements := Chain.modify (fun e => compare key e.1) (fun e => (e.1,f e.2)) bucket.elements })

theorem modifyHashEntry_none {key : κ} (f : ν → ν) (hb : t.buckets (getBucketIndex hash t key) = none) :
    modifyHashEntry compare hash t key f = t := by rw [modifyHashEntry,hb]

theorem modifyHashEntry_some {key : κ} (f : ν → ν) {bucket : Bucket κ ν}
    (hb : t.buckets (getBucketIndex hash t key) = some bucket) :
    modifyHashEntry compare hash t key f = setBucket t (getBucketIndex hash t key) (some { bucket with
      elements := Chain.modify (fun e => compare key e.1) (fun e => (e.1,f e.2)) bucket.elements }) := by
  rw [modifyHashEntry,hb]

theorem forget_modifyHashEntry (t : LinkedTable κ ν) (key : κ) (f : ν → ν) :
    (modifyHashEntry compare hash t key f).forget =
      Table.modifyHashEntry compare hash t.forget key f := by
  have hbuckets : (Table.modifyHashEntry compare hash t.forget key f).buckets =
      (Table.setBucket t.forget (getBucketIndex hash t key) (modifyFirst (fun e => compare key e.1)
        (fun e => (e.1,f e.2)) (entriesAt t (getBucketIndex hash t key)))).buckets := by
    rw [Table.modifyHashEntry,getBucketIndex_forget,buckets_forget]
  cases hb : t.buckets (getBucketIndex hash t key) with
  | none =>
    rw [entriesAt_none hb] at hbuckets
    have hsame : t.forget.buckets = (Table.modifyHashEntry compare hash t.forget key f).buckets := by
      rw [hbuckets]
      funext j
      by_cases hj : j = getBucketIndex hash t key
      · rw [hj,Table.setBucket_self,buckets_forget,entriesAt_none hb]
        rfl
      · exact (Table.setBucket_ne _ _ hj).symm
    rw [modifyHashEntry_none f hb]
    exact congrArg (fun b => HashTable.mk b _ _) hsame
  | some bucket =>
    rw [entriesAt_some hb] at hbuckets
    rw [modifyHashEntry_some f hb,forget_setBucket rfl rfl,entriesAt_some (setBucket_self _ _ _),
      Chain.contents_modify]
    exact congrArg (fun b => HashTable.mk b _ _) hbuckets.symm

theorem modifyHashEntry_valid (hk : KeyFunctions compare hash good) (h : t.Valid compare hash good)
    (key : κ) (f : ν → ν) : (modifyHashEntry compare hash t key f).Valid compare hash good := by
  have hforget : (modifyHashEntry compare hash t key f).forget =
      Table.modifyHashEntry compare hash t.forget key f := forget_modifyHashEntry t key f
  have htable : (modifyHashEntry compare hash t key f).forget.Valid compare hash good := by
    rw [hforget]
    exact Table.modifyHashEntry_valid hk h.table key f
  have hcount : (Table.foreachHash (modifyHashEntry compare hash t key f).forget).length =
      (Table.foreachHash t.forget).length := by
    rw [hforget,foreach_modifyHashEntry hk h.table,List.length_map]
  cases hb : t.buckets (getBucketIndex hash t key) with
  | none =>
    rw [modifyHashEntry_none f hb]
    exact h
  | some bucket =>
    rw [modifyHashEntry_some f hb] at htable hcount ⊢
    have hcases : ∀ j b, (setBucket t (getBucketIndex hash t key) (some { bucket with
        elements := Chain.modify (fun e => compare key e.1) (fun e => (e.1,f e.2)) bucket.elements })).buckets j
          = some b → ∃ b', t.buckets j = some b' ∧ b.data = b'.data ∧
            Chain.addresses b.elements = Chain.addresses b'.elements := by
      intro j b hj
      by_cases hi : j = getBucketIndex hash t key
      · rw [hi,setBucket_self] at hj
        obtain rfl := Option.some.inj hj
        refine ⟨bucket,by rw [hi]; exact hb,rfl,?_⟩
        exact Chain.addresses_modify (fun e => compare key e.1) (fun e => (e.1,f e.2)) bucket.elements
      · rw [setBucket_ne t _ hi] at hj
        exact ⟨b,hj,rfl,rfl⟩
    refine ⟨htable,h.sized,?_,?_,?_,h.distinctIndex,?_,h.freshIndex,?_⟩
    · intro j b hj hnil
      obtain ⟨b',hb',-,haddresses⟩ := hcases j b hj
      rw [hnil,Chain.addresses,Chain.addresses] at haddresses
      exact h.occupied j b' hb' (List.map_eq_nil_iff.mp haddresses.symm)
    · intro j b hj
      obtain ⟨b',hb',hdata,-⟩ := hcases j b hj
      rw [hdata]
      exact h.backed j b' hb'
    · intro j b hj
      obtain ⟨b',hb',-,haddresses⟩ := hcases j b hj
      rw [haddresses]
      exact h.distinct j b' hb'
    · intro j b hj
      obtain ⟨b',hb',-,haddresses⟩ := hcases j b hj
      rw [haddresses]
      exact h.fresh j b' hb'
    · exact h.counted.trans (by rw [hcount])

theorem numberOfBuckets_modifyHashEntry (t : LinkedTable κ ν) (key : κ) (f : ν → ν) :
    (modifyHashEntry compare hash t key f).numberOfBuckets = t.numberOfBuckets := by
  rw [modifyHashEntry]
  split
  · rfl
  · rfl

end LinkedTable

section Before

variable {α β : Type}

theorem map_insertBefore (f : α → β) (l : List α) (n : Nat) (x : α) :
    (insertBefore l n x).map f = insertBefore (l.map f) n (f x) := by
  induction l generalizing n with
  | nil => simp [insertBefore]
  | cons e l ih =>
    rcases n with _ | _ | n
    · cases l <;> rfl
    · cases l <;> rfl
    · rw [insertBefore,List.map_cons,ih,List.map_cons,insertBefore]

theorem insertBefore_perm (l : List α) (n : Nat) (x : α) :
    insertBefore l n x = l ∨ (insertBefore l n x).Perm (x :: l) := by
  fun_induction insertBefore l n x with
  | case1 e e' l x => exact .inr (.swap x e _)
  | case2 e l n x ih =>
    rcases ih with ih | ih
    · exact .inl (congrArg (e :: ·) ih)
    · exact .inr ((ih.cons e).trans (.swap x e l))
  | case3 l n x => exact .inl rfl

end Before

namespace LinkedMatchTable

variable {δ : Type}

def insertExactMatchEntry (exactTable : LinkedTable OfpMatch (MatchEntry δ)) (m : OfpMatch) (data : δ) :
    Bool × LinkedTable OfpMatch (MatchEntry δ) :=
  match LinkedTable.lookupHashEntry compareMatchStrict hashExactMatchEntry exactTable m with
  | some _ => (false,exactTable)
  | none => (true,(LinkedTable.insertHashEntry compareMatchStrict hashExactMatchEntry exactTable m
      ⟨m,0,data⟩).2)

def updateExactMatchEntry (exactTable : LinkedTable OfpMatch (MatchEntry δ)) (m : OfpMatch) (data : δ) :
    Bool × LinkedTable OfpMatch (MatchEntry δ) :=
  match LinkedTable.lookupHashEntry compareMatchStrict hashExactMatchEntry exactTable m with
  | none => (false,exactTable)
  | some _ => (true,LinkedTable.modifyHashEntry compareMatchStrict hashExactMatchEntry exactTable m
      fun entry => { entry with data := data })

def placeElement (wildcardsTable : Chain (MatchEntry δ)) (element : Nat)
    (new : Nat × MatchEntry δ) : Chain (MatchEntry δ) :=
  if element = wildcardsTable.length then appendToTail wildcardsTable new
  else if element = 0 then insertInFront wildcardsTable new
  else insertBefore wildcardsTable element new

def insertMatchEntry (t : LinkedMatchTable δ) (m : OfpMatch) (priority : UInt16) (data : δ) :
    Bool × LinkedMatchTable δ :=
  if exactMatch m then
    let r := insertExactMatchEntry t.exactTable m data
    (r.1,{ t with exactTable := r.2 })
  else
    match findPlace m priority (Chain.contents t.wildcardsTable) with
    | none => (false,t)
    | some element =>
      (true,{ t with
        wildcardsTable := placeElement t.wildcardsTable element (t.allocated,⟨m,priority,data⟩)
        allocated := t.allocated + 1 })

def updateMatchEntry (t : LinkedMatchTable δ) (m : OfpMatch) (priority : UInt16) (data : δ) :
    Bool × LinkedMatchTable δ :=
  if exactMatch m then
    let r := updateExactMatchEntry t.exactTable m data
    (r.1,{ t with exactTable := r.2 })
  else
    match lookupWildcardsMatchStrictEntry m priority t.wildcardsTable with
    | none => (false,t)
    | some _ =>
      let wildcardsTable :=
        Chain.modify (isEntry m priority) (fun entry => { entry with data := data }) t.wildcardsTable
      (true,{ t with wildcardsTable := wildcardsTable })

def lookupMatchStrictEntry [Inhabited δ] (t : LinkedMatchTable δ) (m : OfpMatch) (priority : UInt16) : δ :=
  entryData (if exactMatch m then
      LinkedTable.lookupHashEntry compareMatchStrict hashExactMatchEntry t.exactTable m
    else (lookupWildcardsMatchStrictEntry m priority t.wildcardsTable).map Prod.snd)

variable {t : LinkedMatchTable δ}

theorem init_valid : (initMatchTable : LinkedMatchTable δ).Valid :=
  ⟨LinkedTable.createHashWithSize_valid _ _ _ (by decide),rfl,.nil,by simp [initMatchTable,Chain.addresses]⟩

theorem lookupMatchStrictEntry_forget [Inhabited δ] (t : LinkedMatchTable δ) (m : OfpMatch)
    (priority : UInt16) :
    lookupMatchStrictEntry t m priority = Table.lookupMatchStrictEntry t.forget m priority := by
  rw [lookupMatchStrictEntry,Table.lookupMatchStrictEntry,lookupWildcards_forget,
    LinkedTable.lookupHashEntry_forget]
  rfl

theorem insertExact_forget (h : t.Valid) (m : OfpMatch) (data : δ) :
    (insertExactMatchEntry t.exactTable m data).1 =
        (Table.insertExactMatchEntry t.exactTable.forget m data).1 ∧
      (insertExactMatchEntry t.exactTable m data).2.forget =
        (Table.insertExactMatchEntry t.exactTable.forget m data).2 := by
  rw [insertExactMatchEntry,Table.insertExactMatchEntry,lookupExactMatchStrictEntry,
    LinkedTable.lookupHashEntry_forget]
  cases Table.lookupHashEntry compareMatchStrict hashExactMatchEntry t.exactTable.forget m with
  | none => exact ⟨rfl,LinkedTable.forget_insertHashEntry matchKeys h.exact m _⟩
  | some entry => exact ⟨rfl,rfl⟩

theorem updateExact_forget (t : LinkedMatchTable δ) (m : OfpMatch) (data : δ) :
    (updateExactMatchEntry t.exactTable m data).1 =
        (Table.updateExactMatchEntry t.exactTable.forget m data).1 ∧
      (updateExactMatchEntry t.exactTable m data).2.forget =
        (Table.updateExactMatchEntry t.exactTable.forget m data).2 := by
  rw [updateExactMatchEntry,Table.updateExactMatchEntry,lookupExactMatchStrictEntry,
    LinkedTable.lookupHashEntry_forget]
  cases Table.lookupHashEntry compareMatchStrict hashExactMatchEntry t.exactTable.forget m with
  | none => exact ⟨rfl,rfl⟩
  | some entry => exact ⟨rfl,LinkedTable.forget_modifyHashEntry _ _ _⟩

theorem contents_placeElement (c : Chain (MatchEntry δ)) (n : Nat) (new : Nat × MatchEntry δ) :
    Chain.contents (placeElement c n new) =
      if n = (Chain.contents c).length then appendToTail (Chain.contents c) new.2
      else if n = 0 then insertInFront (Chain.contents c) new.2
      else insertBefore (Chain.contents c) n new.2 := by
  have hlength : (Chain.contents c).length = c.length := List.length_map _
  rw [placeElement,hlength]
  split
  · exact List.map_append
  · split
    · rfl
    · exact map_insertBefore _ _ _ _

theorem insertWildcards_placed {c : Chain (MatchEntry δ)} {m : OfpMatch} {priority : UInt16} {data : δ}
    {n : Nat} (new : Nat × MatchEntry δ) (hplace : findPlace m priority (Chain.contents c) = some n)
    (hnew : new.2 = ⟨m,priority,data⟩) :
    insertWildcardsMatchEntry (Chain.contents c) m priority data =
      (true,Chain.contents (placeElement c n new)) := by
  rw [insertWildcardsMatchEntry,hplace,contents_placeElement,hnew]
  simp only
  split
  · rfl
  · split
    · rfl
    · rfl

theorem placeElement_perm (c : Chain (MatchEntry δ)) (n : Nat) (new : Nat × MatchEntry δ) :
    placeElement c n new = c ∨ (placeElement c n new).Perm (new :: c) := by
  rw [placeElement]
  split
  · exact .inr List.perm_append_comm
  · split
    · exact .inr (.refl _)
    · exact insertBefore_perm _ _ _

theorem insertMatchEntry_forget (h : t.Valid) (m : OfpMatch) (priority : UInt16) (data : δ) :
    (insertMatchEntry t m priority data).1 = (Table.insertMatchEntry t.forget m priority data).1 ∧
      (insertMatchEntry t m priority data).2.forget =
        (Table.insertMatchEntry t.forget m priority data).2 := by
  rw [insertMatchEntry,Table.insertMatchEntry]
  split
  · obtain ⟨hresult,htable⟩ := insertExact_forget h m data
    exact ⟨hresult,congrArg (fun exact => MatchTable.mk exact _) htable⟩
  · cases hplace : findPlace m priority (Chain.contents t.wildcardsTable) with
    | none =>
      have hsame : insertWildcardsMatchEntry t.forget.wildcardsTable m priority data =
          (false,Chain.contents t.wildcardsTable) := by
        rw [insertWildcardsMatchEntry,forget,hplace]
      rw [hsame]
      exact ⟨rfl,rfl⟩
    | some n =>
      have hplaced := insertWildcards_placed (t.allocated,⟨m,priority,data⟩) hplace rfl
      have hsame : insertWildcardsMatchEntry t.forget.wildcardsTable m priority data = _ := hplaced
      rw [hsame]
      exact ⟨rfl,rfl⟩

theorem updateMatchEntry_forget (t : LinkedMatchTable δ) (m : OfpMatch) (priority : UInt16) (data : δ) :
    (updateMatchEntry t m priority data).1 = (Table.updateMatchEntry t.forget m priority data).1 ∧
      (updateMatchEntry t m priority data).2.forget =
        (Table.updateMatchEntry t.forget m priority data).2 := by
  rw [updateMatchEntry,Table.updateMatchEntry]
  split
  · obtain ⟨hresult,htable⟩ := updateExact_forget t m data
    exact ⟨hresult,congrArg (fun exact => MatchTable.mk exact _) htable⟩
  · rw [Table.updateWildcardsMatchEntry]
    simp only [forget]
    rw [← lookupWildcards_forget]
    cases lookupWildcardsMatchStrictEntry m priority t.wildcardsTable with
    | none => exact ⟨rfl,rfl⟩
    | some element =>
      refine ⟨rfl,congrArg (MatchTable.mk _) ?_⟩
      simp only [Option.map_some]
      exact Chain.contents_modify _ _ _

theorem insertMatchEntry_valid (h : t.Valid) (m : OfpMatch) (priority : UInt16) (data : δ) :
    (insertMatchEntry t m priority data).2.Valid := by
  rw [insertMatchEntry]
  split
  · rename_i hexact
    simp only [insertExactMatchEntry]
    split
    · exact h
    · exact ⟨LinkedTable.insertHashEntry_valid matchKeys h.exact _ hexact,
        (LinkedTable.numberOfBuckets_insertHashEntry h.exact m _).trans h.sized,h.distinct,h.fresh⟩
  · split
    · exact h
    · rename_i n _
      rcases placeElement_perm t.wildcardsTable n (t.allocated,⟨m,priority,data⟩) with hsame | hperm
      · refine ⟨h.exact,h.sized,?_,?_⟩
        · simp only [hsame]
          exact h.distinct
        · simp only [hsame]
          exact fun a ha => Nat.lt_succ_of_lt (h.fresh a ha)
      · have haddresses := hperm.map Prod.fst
        refine ⟨h.exact,h.sized,haddresses.nodup_iff.mpr (List.nodup_cons.mpr ⟨?_,h.distinct⟩),?_⟩
        · exact fun hold => absurd (h.fresh _ hold) (Nat.lt_irrefl _)
        · intro a ha
          rcases List.mem_cons.mp (haddresses.mem_iff.mp ha) with rfl | hold
          · exact Nat.lt_succ_self _
          · exact Nat.lt_succ_of_lt (h.fresh a hold)

theorem updateMatchEntry_valid (h : t.Valid) (m : OfpMatch) (priority : UInt16) (data : δ) :
    (updateMatchEntry t m priority data).2.Valid := by
  rw [updateMatchEntry]
  split
  · simp only [updateExactMatchEntry]
    split
    · exact h
    · refine ⟨?_,?_,h.distinct,h.fresh⟩
      · exact LinkedTable.modifyHashEntry_valid matchKeys h.exact m fun entry => { entry with data := data }
      · exact (LinkedTable.numberOfBuckets_modifyHashEntry _ _ _).trans h.sized
  · split
    · exact h
    · refine ⟨h.exact,h.sized,?_,?_⟩
      · simp only [Chain.addresses_modify]
        exact h.distinct
      · simp only [Chain.addresses_modify]
        exact h.fresh

end LinkedMatchTable

end Trema.Table
