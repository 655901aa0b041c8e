import Trema.PacketinFilter.Filter
import Trema.Table.Inclusion
import Trema.Table.LinkedUpdate
import Mathlib.Data.Nat.Digits.Defs

namespace Trema.PacketinFilter

open Library
open OpenFlow (OfpMatch)
open Table

section Erased

variable {δ α : Type} [Inhabited δ] {t : MatchTable δ} {s : OrderedMap δ} {criteria : Option OfpMatch}

def exactEntries (t : MatchTable δ) : List (MatchEntry δ) := (foreachHash t.exactTable).map Prod.snd

def entries (t : MatchTable δ) : List (MatchEntry δ) := exactEntries t ++ t.wildcardsTable

omit [Inhabited δ] in
theorem mem_exactEntries (h : Represents t s) {e : MatchEntry δ} : e ∈ exactEntries t ↔ e ∈ s.exact := by
  rw [exactEntries,(h.exact.map Prod.snd).mem_iff,List.map_map]
  simp

omit [Inhabited δ] in
theorem mem_wildEntries (h : Represents t s) {e : MatchEntry δ} :
    e ∈ t.wildcardsTable ↔ e ∈ s ∧ exactMatch e.mtch = false := by
  rw [h.wild,OrderedMap.wild,mem_ranked,List.mem_filter]
  simp

omit [Inhabited δ] in
theorem find_self (h : Represents t s) {e : MatchEntry δ} (he : e ∈ s) :
    s.find e.mtch e.priority = some e :=
  (atMostOne_keyed h.keys).find?_eq_some.mpr ⟨he,by simp [keyed,compareMatchStrict_refl]⟩

theorem delete_data (h : Represents t s) {e : MatchEntry δ} (he : e ∈ s) :
    (deleteMatchStrictEntry t e.mtch e.priority).1 = e.data := by
  rw [(h.remove e.mtch e.priority).1,OrderedMap.remove,find_self h he]
  rfl

theorem delete_wild (h : Represents t s) (m : OfpMatch) (priority : UInt16) :
    (deleteMatchStrictEntry t m priority).2.wildcardsTable =
      t.wildcardsTable.filter fun e => !keyed m priority e := by
  rw [(h.remove m priority).2.wild,h.wild,OrderedMap.wild,OrderedMap.wild,OrderedMap.remove,
    filter_ranked,List.filter_comm]

theorem delete_exact (h : Represents t s) (m : OfpMatch) (priority : UInt16) :
    exactEntries (deleteMatchStrictEntry t m priority).2 =
      (exactEntries t).filter fun e => !keyed m priority e := by
  have hkey : ∀ x ∈ foreachHash t.exactTable, exactMatch x.2.mtch = true ∧ x.1 = x.2.mtch := by
    intro x hx
    obtain ⟨e,he,rfl⟩ := List.mem_map.mp (h.exact.mem_iff.mp hx)
    exact ⟨(List.mem_filter.mp he).2,rfl⟩
  by_cases hm : exactMatch m = true
  · have herased : foreachHash (deleteMatchStrictEntry t m priority).2.exactTable =
        (foreachHash t.exactTable).filter fun x => !compareMatchStrict m x.1 := by
      rw [deleteMatchStrictEntry,if_pos hm]
      simp only [deleteExactMatchStrictEntry]
      split
      · rename_i hfind
        rw [lookupExactMatchStrictEntry,lookupHashEntry_eq matchKeys h.valid,Option.map_eq_none_iff] at hfind
        refine (List.filter_eq_self.mpr fun x hx => ?_).symm
        simpa using List.find?_eq_none.mp hfind x hx
      · exact foreach_deleteHashEntry matchKeys h.valid m
    rw [exactEntries,herased,exactEntries,List.filter_map]
    refine congrArg _ (List.filter_congr fun x hx => ?_)
    rw [Function.comp,keyed_exact hm,(hkey x hx).2,compareMatchStrict_comm]
  · have hm' : exactMatch m = false := by simpa using hm
    rw [deleteMatchStrictEntry,if_neg hm]
    refine (List.filter_eq_self.mpr fun e he => ?_).symm
    obtain ⟨x,hx,rfl⟩ := List.mem_map.mp he
    by_cases hk : keyed m priority x.2 = true
    · exact absurd (exactMatch_of_keyed hk) (by rw [(hkey x hx).1,hm']; simp)
    · simpa using hk

variable (criteria) in
-- One phase of the walk over entries of the table: what is left of each of its two parts, and what is
-- made of the data of the selected ones.
theorem foldl_forgotten (acc : δ → α → α) (h : Represents t s) {es : List (MatchEntry δ)}
    (hes : ∀ e ∈ es, e ∈ s) (hdistinct : es.Pairwise fun a b => ¬ keyed a.mtch a.priority b = true) (a : α) :
    let r := es.foldl (visitEntry criteria (LinkedMatchTable.forgottenWalker acc)) (a,t)
    let left := fun x : MatchEntry δ =>
      !es.any fun e => condemned criteria (fun _ _ _ => true) e && keyed e.mtch e.priority x
    Represents r.2 (s.filter left) ∧ exactEntries r.2 = (exactEntries t).filter left ∧
      r.2.wildcardsTable = t.wildcardsTable.filter left ∧
      r.1 = (es.filter fun e => selects criteria e.mtch).foldl (fun a e => acc e.data a) a := by
  induction es generalizing t s a with
  | nil => simpa using h
  | cons e es ih =>
    obtain ⟨hne,hrest⟩ := List.pairwise_cons.mp hdistinct
    intro r left
    by_cases hc : selects criteria e.mtch = true
    · have hdata := delete_data h (hes e (by simp))
      have hstep : visitEntry criteria (LinkedMatchTable.forgottenWalker acc) (a,t) e =
          (acc e.data a,(deleteMatchStrictEntry t e.mtch e.priority).2) := by
        rw [visitEntry,if_pos hc,LinkedMatchTable.forgottenWalker,hdata]
      have hin : ∀ x ∈ es, x ∈ (s.remove e.mtch e.priority).2 := fun x hx =>
        List.mem_filter.mpr ⟨hes x (by simp [hx]),by simpa using hne x hx⟩
      obtain ⟨hr,hexact,hwild,hacc⟩ := ih (h.remove e.mtch e.priority).2 hin hrest (acc e.data a)
      have hleft : ∀ x : MatchEntry δ, left x = ((!es.any fun e =>
          condemned criteria (fun _ _ _ => true) e && keyed e.mtch e.priority x) &&
          !keyed e.mtch e.priority x) := by
        intro x
        simp only [left,List.any_cons,condemned,hc,Bool.true_and,Bool.and_true,Bool.not_or]
        rw [Bool.and_comm]
      simp only [r,List.foldl_cons,hstep]
      rw [List.filter_cons_of_pos (by exact hc),List.foldl_cons]
      refine ⟨?_,?_,?_,hacc⟩
      · rw [List.filter_congr fun x _ => hleft x,← List.filter_filter]
        exact hr
      · rw [List.filter_congr fun x _ => hleft x,← List.filter_filter,← delete_exact h]
        exact hexact
      · rw [List.filter_congr fun x _ => hleft x,← List.filter_filter,← delete_wild h]
        exact hwild
    · have hstep : visitEntry criteria (LinkedMatchTable.forgottenWalker acc) (a,t) e = (a,t) := by
        rw [visitEntry,if_neg hc]
      have hleft : ∀ x : MatchEntry δ, left x = !es.any fun e =>
          condemned criteria (fun _ _ _ => true) e && keyed e.mtch e.priority x := by
        intro x
        simp only [left,List.any_cons,condemned,hc,Bool.false_and,Bool.false_or]
      simp only [r,List.foldl_cons,hstep]
      rw [List.filter_cons_of_neg (by exact hc),funext hleft]
      exact ih h (fun x hx => hes x (by simp [hx])) hrest a

omit [Inhabited δ] in
theorem exactEntries_distinct (h : Represents t s) :
    (exactEntries t).Pairwise fun a b => ¬ keyed a.mtch a.priority b = true := by
  refine List.pairwise_map.mpr (List.Pairwise.imp_of_mem ?_ (h.valid.keys_distinct matchKeys))
  intro x y hx hy hxy hkeyed
  obtain ⟨a,ha,rfl⟩ := List.mem_map.mp (h.exact.mem_iff.mp hx)
  obtain ⟨b,hb,rfl⟩ := List.mem_map.mp (h.exact.mem_iff.mp hy)
  rw [keyed_exact (List.mem_filter.mp ha).2] at hkeyed
  exact hxy (compareMatchStrict_symm hkeyed)

omit [Inhabited δ] in
theorem wildEntries_distinct (h : Represents t s) :
    t.wildcardsTable.Pairwise fun a b => ¬ keyed a.mtch a.priority b = true := by
  refine List.Pairwise.imp_of_mem ?_ h.wild_distinct
  intro a b ha _ hab hkeyed
  rw [keyed_wild ((mem_wildEntries h).mp ha).2,isEntry,Bool.and_eq_true] at hkeyed
  exact hab ⟨(eq_of_beq hkeyed.1).symm,compareMatchStrict_symm hkeyed.2⟩

omit [Inhabited δ] in
theorem left_of_mem (h : Represents t s) {es : List (MatchEntry δ)} (hes : ∀ e ∈ es, e ∈ s)
    {x : MatchEntry δ} (hx : x ∈ es) :
    (!es.any fun e => condemned criteria (fun _ _ _ => true) e && keyed e.mtch e.priority x) =
      !selects criteria x.mtch := by
  refine congrArg _ (Bool.eq_iff_iff.mpr ?_)
  rw [h.any_condemned hes (hes x hx),condemned,Bool.and_true]
  exact and_iff_right hx

omit [Inhabited δ] in
theorem left_of_not_mem (h : Represents t s) {es : List (MatchEntry δ)} (hes : ∀ e ∈ es, e ∈ s)
    {x : MatchEntry δ} (hs : x ∈ s) (hx : x ∉ es) :
    (!es.any fun e => condemned criteria (fun _ _ _ => true) e && keyed e.mtch e.priority x) = true := by
  rw [Bool.not_eq_true',← Bool.not_eq_true,h.any_condemned hes hs]
  exact fun hboth => hx hboth.1

omit [Inhabited δ] in
theorem parts_disjoint (h : Represents t s) {e : MatchEntry δ} (hexact : e ∈ exactEntries t) :
    e ∉ t.wildcardsTable := by
  intro hwild
  have hm := (List.mem_filter.mp ((mem_exactEntries h).mp hexact)).2
  rw [((mem_wildEntries h).mp hwild).2] at hm
  exact absurd hm (by simp)

variable (criteria) in
theorem exact_phase (acc : δ → α → α) (h : Represents t s) (a : α) :
    let r := (exactEntries t).foldl (visitEntry criteria (LinkedMatchTable.forgottenWalker acc)) (a,t)
    (∃ s', Represents r.2 s') ∧
      exactEntries r.2 = (exactEntries t).filter (fun e => !selects criteria e.mtch) ∧
      r.2.wildcardsTable = t.wildcardsTable ∧
      r.1 = ((exactEntries t).filter fun e => selects criteria e.mtch).foldl (fun a e => acc e.data a) a := by
  have hin : ∀ e ∈ exactEntries t, e ∈ s := fun e he =>
    (List.mem_filter.mp ((mem_exactEntries h).mp he)).1
  obtain ⟨hr,hexact,hwild,hacc⟩ :=
    foldl_forgotten criteria acc h hin (exactEntries_distinct h) a
  refine ⟨⟨_,hr⟩,?_,?_,hacc⟩
  · rw [List.filter_congr fun e he => left_of_mem h hin he] at hexact
    exact hexact
  · refine hwild.trans (List.filter_eq_self.mpr fun e he => ?_)
    exact left_of_not_mem h hin ((mem_wildEntries h).mp he).1 fun hexact => parts_disjoint h hexact he

variable (criteria) in
theorem wildcards_phase (acc : δ → α → α) (h : Represents t s) (a : α) :
    let r := t.wildcardsTable.foldl (visitEntry criteria (LinkedMatchTable.forgottenWalker acc)) (a,t)
    exactEntries r.2 = exactEntries t ∧
      r.2.wildcardsTable = t.wildcardsTable.filter (fun e => !selects criteria e.mtch) ∧
      r.1 = (t.wildcardsTable.filter fun e => selects criteria e.mtch).foldl (fun a e => acc e.data a) a := by
  have hin : ∀ e ∈ t.wildcardsTable, e ∈ s := fun e he => ((mem_wildEntries h).mp he).1
  obtain ⟨-,hexact,hwild,hacc⟩ :=
    foldl_forgotten criteria acc h hin (wildEntries_distinct h) a
  refine ⟨?_,?_,hacc⟩
  · refine hexact.trans (List.filter_eq_self.mpr fun e he => ?_)
    exact left_of_not_mem h hin (List.mem_filter.mp ((mem_exactEntries h).mp he)).1 (parts_disjoint h he)
  · rw [List.filter_congr fun e he => left_of_mem h hin he] at hwild
    exact hwild

variable (criteria) in
theorem mapMatchTable_forgotten (acc : δ → α → α) (h : Represents t s) (a : α) :
    let r := mapMatchTable criteria Prod.snd (LinkedMatchTable.forgottenWalker acc) (a,t)
    entries r.2 = (entries t).filter (fun e => !selects criteria e.mtch) ∧
      r.1 = ((entries t).filter fun e => selects criteria e.mtch).foldl (fun a e => acc e.data a) a := by
  obtain ⟨⟨s',h'⟩,hexact,hwild,hacc⟩ := exact_phase criteria acc h a
  obtain ⟨hexact',hwild',hacc'⟩ := wildcards_phase criteria acc h'
    ((exactEntries t).foldl (visitEntry criteria (LinkedMatchTable.forgottenWalker acc)) (a,t)).1
  rw [hexact] at hexact'
  intro r
  refine ⟨?_,?_⟩
  · rw [hwild] at hwild'
    rw [entries,entries,List.filter_append,← hexact',← hwild',← hwild]
    rfl
  · rw [entries,List.filter_append,List.foldl_append,← hacc,← hwild]
    exact hacc'

end Erased

abbrev LinkedFilterTable := LinkedMatchTable (List CString)

namespace LinkedFilterTable

def addPacketinMatchEntry (t : LinkedFilterTable) (m : OfpMatch) (priority : UInt16)
    (serviceName : CString) : Bool × LinkedFilterTable :=
  match LinkedMatchTable.lookupMatchStrictEntry t m priority with
  | [] => (true,(LinkedMatchTable.insertMatchEntry t m priority (appendToTail [] serviceName)).2)
  | services =>
    if serviceName ∈ services then (false,t)
    else (true,(LinkedMatchTable.updateMatchEntry t m priority (appendToTail services serviceName)).2)

def deletePacketinMatchEntry (t : LinkedFilterTable) (m : OfpMatch) (priority : UInt16)
    (serviceName : CString) : Nat × LinkedFilterTable :=
  match LinkedMatchTable.deleteMatchStrictEntry t m priority with
  | ([],t) => (0,t)
  | (head,t) =>
    match head.filter (· ≠ serviceName) with
    | [] => (head.count serviceName,t)
    | remaining =>
      (head.count serviceName,(LinkedMatchTable.insertMatchEntry t m priority remaining).2)

def deleteFilterWalker (m : OfpMatch) (priority : UInt16) (_ : List CString)
    (reply : UInt32 × LinkedFilterTable) : UInt32 × LinkedFilterTable :=
  match LinkedMatchTable.deleteMatchStrictEntry reply.2 m priority with
  | (head,t) => (reply.1 + head.length.toUInt32,t)

def handleDeleteFilterRequest (n : Nat) (t : LinkedFilterTable) (criteria : Criteria) :
    Run Empty (UInt32 × LinkedFilterTable) :=
  if criteria.strict then
    match deletePacketinMatchEntry t criteria.mtch criteria.priority criteria.serviceName with
    | (n,t) => .ok (n.toUInt32,t)
  else LinkedMatchTable.mapMatchTable (some criteria.mtch) Prod.snd deleteFilterWalker n (0,t)

def handle (n : Nat) (t : LinkedFilterTable) : Request → Run Empty LinkedFilterTable
  | .add m priority serviceName => .ok (addPacketinMatchEntry t m priority serviceName).2
  | .delete criteria => handleDeleteFilterRequest n t criteria >>= fun r => .ok r.2

def filterTable (n : Nat) (requests : List Request) : Run Empty LinkedFilterTable :=
  requests.foldlM (handle n) LinkedMatchTable.initMatchTable

section Reachable

variable {t : LinkedFilterTable}

def counted (head : List CString) (n : UInt32) : UInt32 := n + head.length.toUInt32

theorem addPacketinMatchEntry_forget (h : t.Valid) (m : OfpMatch) (priority : UInt16) (name : CString) :
    (addPacketinMatchEntry t m priority name).2.Valid ∧
      (addPacketinMatchEntry t m priority name).2.forget =
        (PacketinFilter.addPacketinMatchEntry t.forget m priority name).2 := by
  rw [addPacketinMatchEntry,PacketinFilter.addPacketinMatchEntry,
    LinkedMatchTable.lookupMatchStrictEntry_forget]
  cases Table.lookupMatchStrictEntry t.forget m priority with
  | nil => exact ⟨LinkedMatchTable.insertMatchEntry_valid h m priority _,
      (LinkedMatchTable.insertMatchEntry_forget h m priority _).2⟩
  | cons service services =>
    simp only
    split
    · exact ⟨h,rfl⟩
    · exact ⟨LinkedMatchTable.updateMatchEntry_valid h m priority _,
        (LinkedMatchTable.updateMatchEntry_forget t m priority _).2⟩

theorem deletePacketinMatchEntry_forget (h : t.Valid) (m : OfpMatch) (priority : UInt16) (name : CString) :
    (deletePacketinMatchEntry t m priority name).2.Valid ∧
      (deletePacketinMatchEntry t m priority name).2.forget =
        (PacketinFilter.deletePacketinMatchEntry t.forget m priority name).2 := by
  obtain ⟨hdata,htable⟩ := LinkedMatchTable.deleteMatchStrictEntry_forget h m priority
  have hvalid := LinkedMatchTable.deleteMatchStrictEntry_valid h m priority
  have hpair : Table.deleteMatchStrictEntry t.forget m priority =
      ((LinkedMatchTable.deleteMatchStrictEntry t m priority).1,
        (LinkedMatchTable.deleteMatchStrictEntry t m priority).2.forget) := by rw [hdata,htable]
  rw [deletePacketinMatchEntry,PacketinFilter.deletePacketinMatchEntry,hpair]
  generalize LinkedMatchTable.deleteMatchStrictEntry t m priority = r at hvalid
  obtain ⟨head,rest⟩ := r
  cases head with
  | nil => exact ⟨hvalid,rfl⟩
  | cons service services =>
    simp only
    cases (service :: services).filter (· ≠ name) with
    | nil => exact ⟨hvalid,rfl⟩
    | cons remaining others => exact ⟨LinkedMatchTable.insertMatchEntry_valid hvalid m priority _,
        (LinkedMatchTable.insertMatchEntry_forget hvalid m priority _).2⟩

theorem looseDelete_forget (h : t.Valid) {s : OrderedMap (List CString)} (hs : Represents t.forget s)
    (criteria : Criteria) (hloose : criteria.strict = false) :
    ∃ r bound, (∀ n, bound ≤ n → handleDeleteFilterRequest n t criteria = .ok r) ∧ r.2.Valid ∧
      (r.1,r.2.forget) = PacketinFilter.handleDeleteFilterRequest t.forget criteria := by
  obtain ⟨r,bound,hrun,hkept,hforget⟩ :=
    LinkedMatchTable.mapMatchTable_forget (r := (0,t)) counted (some criteria.mtch) ⟨h,s,hs⟩
  refine ⟨r,bound,fun n hn => ?_,hkept.1,hforget.trans ?_⟩
  · rw [handleDeleteFilterRequest,hloose,← hrun n hn]
    rfl
  · rw [PacketinFilter.handleDeleteFilterRequest,hloose]
    rfl

theorem handle_forget (h : t.Valid) {s : OrderedMap (List CString)} (hs : Represents t.forget s)
    (request : Request) :
    ∃ t' bound, (∀ n, bound ≤ n → handle n t request = .ok t') ∧ t'.Valid ∧
      t'.forget = PacketinFilter.handle t.forget request := by
  cases request with
  | add m priority name =>
    obtain ⟨hvalid,hforget⟩ := addPacketinMatchEntry_forget h m priority name
    exact ⟨_,0,fun _ _ => rfl,hvalid,hforget⟩
  | delete criteria =>
    cases hstrict : criteria.strict with
    | true =>
      obtain ⟨hvalid,hforget⟩ :=
        deletePacketinMatchEntry_forget h criteria.mtch criteria.priority criteria.serviceName
      refine ⟨_,0,fun n _ => ?_,hvalid,hforget.trans ?_⟩
      · rw [handle,handleDeleteFilterRequest,hstrict]
        rfl
      · rw [PacketinFilter.handle,PacketinFilter.handleDeleteFilterRequest,hstrict]
        rfl
    | false =>
      obtain ⟨r,bound,hrun,hvalid,hforget⟩ := looseDelete_forget h hs criteria hstrict
      refine ⟨r.2,bound,fun n hn => ?_,hvalid,congrArg Prod.snd hforget⟩
      rw [handle,hrun n hn,ok_bind]

-- Enough fuel for every walk of a run of requests gives the table of lists.
theorem filterTable_forget (requests : List Request) :
    ∃ t bound, (∀ n, bound ≤ n → filterTable n requests = .ok t) ∧ t.Valid ∧
      t.forget = PacketinFilter.filterTable requests := by
  induction requests using List.reverseRecOn with
  | nil => exact ⟨_,0,fun _ _ => rfl,LinkedMatchTable.init_valid,rfl⟩
  | append_singleton requests request ih =>
    obtain ⟨t,bound,hrun,hvalid,hforget⟩ := ih
    obtain ⟨s,hs,-⟩ := represents_filterTable requests
    rw [← hforget] at hs
    obtain ⟨t',bound',hrun',hvalid',hforget'⟩ := handle_forget hvalid hs request
    refine ⟨t',max bound bound',fun n hn => ?_,hvalid',?_⟩
    · rw [filterTable,List.foldlM_append]
      change filterTable n requests >>= (fun t => [request].foldlM (handle n) t) = _
      rw [hrun n (le_trans (Nat.le_max_left _ _) hn),ok_bind,List.foldlM_cons,
        hrun' n (le_trans (Nat.le_max_right _ _) hn),ok_bind]
      rfl
    · rw [hforget',hforget,PacketinFilter.filterTable,PacketinFilter.filterTable,List.foldl_append]
      rfl

end Reachable

section Counting

theorem foldl_counted (es : List (MatchEntry (List CString))) (n : UInt32) :
    (es.foldl (fun n e => counted e.data n) n).toNat =
      (n.toNat + (es.map fun e => e.data.length).sum) % 2 ^ 32 := by
  induction es generalizing n with
  | nil =>
    have hlt := n.toNat_lt
    simp only [List.foldl_nil,List.map_nil,List.sum_nil,Nat.add_zero]
    exact (Nat.mod_eq_of_lt hlt).symm
  | cons e es ih =>
    rw [List.foldl_cons,ih,counted,List.map_cons,List.sum_cons,UInt32.toNat_add,
      Nat.toUInt32_eq,UInt32.toNat_ofNat']
    omega

end Counting

def removed (c : OfpMatch) (t : LinkedFilterTable) : List (MatchEntry (List CString)) :=
  (entries t.forget).filter fun e => compareFilterMatch c e.mtch

theorem looseDelete_counted {t : LinkedFilterTable} {requests : List Request}
    (hforget : t.forget = PacketinFilter.filterTable requests) {r : UInt32 × LinkedFilterTable}
    {c : OfpMatch} {priority : UInt16} {serviceName : CString}
    (hr : (r.1,r.2.forget) =
      PacketinFilter.handleDeleteFilterRequest t.forget ⟨c,priority,serviceName,false⟩) :
    entries r.2.forget = (entries t.forget).filter (fun e => !compareFilterMatch c e.mtch) ∧
      r.1.toNat = ((removed c t).map fun e => e.data.length).sum % 2 ^ 32 := by
  obtain ⟨s,hs,-⟩ := represents_filterTable requests
  rw [← hforget] at hs
  obtain ⟨hleft,hcount⟩ := mapMatchTable_forgotten (some c) counted hs (0 : UInt32)
  have hresult : PacketinFilter.handleDeleteFilterRequest t.forget ⟨c,priority,serviceName,false⟩ =
      mapMatchTable (some c) Prod.snd (LinkedMatchTable.forgottenWalker counted) (0,t.forget) := rfl
  rw [hresult] at hr
  refine ⟨?_,?_⟩
  · have htable := congrArg Prod.snd hr
    simp only at htable
    rw [htable]
    exact hleft
  · have hreply := congrArg Prod.fst hr
    simp only at hreply
    rw [hreply,hcount,foldl_counted,UInt32.toNat_zero,Nat.zero_add]
    rfl

theorem loose_deletion (requests : List Request) (c : OfpMatch) (priority : UInt16)
    (serviceName : CString) :
    ∃ t r bound, (∀ n, bound ≤ n → filterTable n requests = .ok t ∧
        handleDeleteFilterRequest n t ⟨c,priority,serviceName,false⟩ = .ok r) ∧
      (∀ e, compareFilterMatch c e = true ↔ ∀ packet, exactMatch packet = true →
        compareMatch e packet = true → compareMatch c packet = true) ∧
      entries r.2.forget = (entries t.forget).filter (fun e => !compareFilterMatch c e.mtch) ∧
      r.1.toNat = ((removed c t).map fun e => e.data.length).sum % 2 ^ 32 := by
  obtain ⟨t,bound,hrun,hvalid,hforget⟩ := filterTable_forget requests
  obtain ⟨s,hs,-⟩ := represents_filterTable requests
  rw [← hforget] at hs
  obtain ⟨r,bound',hrun',-,hr⟩ := looseDelete_forget hvalid hs ⟨c,priority,serviceName,false⟩ rfl
  exact ⟨t,r,max bound bound',fun n hn => ⟨hrun n (le_trans (Nat.le_max_left _ _) hn),
    hrun' n (le_trans (Nat.le_max_right _ _) hn)⟩,fun e => compareFilterMatch_iff_covers,
    looseDelete_counted hforget hr⟩

section Crowd

def serial (i : Nat) : CString where
  bytes := (Nat.digits 255 i).map fun d => UInt8.ofNat (d + 1)
  unterminated := by
    intro h
    obtain ⟨d,hd,heq⟩ := List.mem_map.mp h
    have hlt := Nat.digits_lt_base (by decide) hd
    have hzero := congrArg UInt8.toNat heq
    rw [UInt8.toNat_ofNat'] at hzero
    simp only [UInt8.toNat_zero] at hzero
    omega

theorem serial_injective : Function.Injective serial := by
  have hback : ∀ i, ((serial i).bytes.map fun c => c.toNat - 1) = Nat.digits 255 i := by
    intro i
    rw [serial,List.map_map]
    refine (List.map_congr_left fun d hd => ?_).trans (List.map_id _)
    have hlt := Nat.digits_lt_base (by decide) hd
    rw [Function.comp,UInt8.toNat_ofNat',id]
    omega
  intro i j h
  refine Nat.digits_inj_iff.mp ((hback i).symm.trans ?_)
  rw [h,hback]

theorem lookup_sole {m : OfpMatch} (hm : exactMatch m = false) (priority : UInt16) (names : List CString) :
    Table.lookupMatchStrictEntry ⟨createHash,[⟨m,priority,names⟩]⟩ m priority = names := by
  simp [Table.lookupMatchStrictEntry,hm,Table.lookupWildcardsMatchStrictEntry,isEntry,
    compareMatchStrict_refl,entryData]

theorem filterTable_subscribers {m : OfpMatch} (hm : exactMatch m = false) (priority : UInt16)
    {names : List CString} (hnodup : names.Nodup) (hsome : names ≠ []) :
    PacketinFilter.filterTable (names.map (Request.add m priority)) =
      ⟨createHash,[⟨m,priority,names⟩]⟩ := by
  induction names using List.reverseRecOn with
  | nil => exact absurd rfl hsome
  | append_singleton names name ih =>
    rw [List.map_append,PacketinFilter.filterTable,List.foldl_append]
    change PacketinFilter.handle (PacketinFilter.filterTable _) (.add m priority name) = _
    cases names with
    | nil =>
      have hempty : Table.lookupMatchStrictEntry (initMatchTable : FilterTable) m priority = [] := by
        rw [Table.lookupMatchStrictEntry,hm]
        rfl
      rw [List.map_nil,PacketinFilter.filterTable,List.foldl_nil,PacketinFilter.handle,
        PacketinFilter.addPacketinMatchEntry,hempty]
      simp [Table.insertMatchEntry,hm,initMatchTable,insertWildcardsMatchEntry,findPlace,appendToTail]
    | cons first rest =>
      obtain ⟨hold,-,hnew⟩ := List.nodup_append.mp hnodup
      have hfresh : name ∉ first :: rest := fun hin => hnew name hin name (by simp) rfl
      rw [ih hold (by simp),PacketinFilter.handle,PacketinFilter.addPacketinMatchEntry,lookup_sole hm]
      simp only
      rw [if_neg hfresh]
      simp [Table.updateMatchEntry,hm,updateWildcardsMatchEntry,Table.lookupWildcardsMatchStrictEntry,
        isEntry,compareMatchStrict_refl,modifyFirst,appendToTail]

def crowd (size : Nat) : List Request := ((List.range size).map serial).map (Request.add anyPacket 1)

theorem deleted_count_wraps :
    ∃ t r bound, (∀ n, bound ≤ n → filterTable n (crowd 4294967296) = .ok t ∧
        handleDeleteFilterRequest n t ⟨anyPacket,1,serial 0,false⟩ = .ok r) ∧
      ((removed anyPacket t).map fun e => e.data.length).sum = 4294967296 ∧ r.1 = 0 := by
  obtain ⟨t,bound,hrun,hvalid,hforget⟩ := filterTable_forget (crowd 4294967296)
  obtain ⟨s,hs,-⟩ := represents_filterTable (crowd 4294967296)
  rw [← hforget] at hs
  obtain ⟨r,bound',hrun',-,hr⟩ :=
    looseDelete_forget hvalid hs ⟨anyPacket,1,serial 0,false⟩ rfl
  obtain ⟨-,hcount⟩ := looseDelete_counted hforget hr
  have htotal : ((removed anyPacket t).map fun e => e.data.length).sum = 4294967296 := by
    have hnodup : ((List.range 4294967296).map serial).Nodup :=
      List.nodup_range.map serial_injective
    have hsole := filterTable_subscribers (m := anyPacket) (by decide) 1 hnodup
      (fun hnil => absurd (congrArg List.length hnil) (by simp))
    have hall : compareFilterMatch anyPacket anyPacket = true := by decide
    rw [removed,hforget,crowd,hsole]
    simp only [entries,exactEntries]
    rw [show foreachHash (createHash : HashTable OfpMatch (MatchEntry (List CString))) = [] from rfl,
      List.map_nil,List.nil_append,List.filter_cons_of_pos (by exact hall)]
    simp
  refine ⟨t,r,max bound bound',fun n hn => ⟨hrun n (le_trans (Nat.le_max_left _ _) hn),
    hrun' n (le_trans (Nat.le_max_right _ _) hn)⟩,htotal,UInt32.toNat_inj.mp ?_⟩
  rw [hcount,htotal]
  rfl

end Crowd

end LinkedFilterTable

end Trema.PacketinFilter
