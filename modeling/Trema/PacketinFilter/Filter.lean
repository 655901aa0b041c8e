import Trema.Table.Runs

namespace Trema.PacketinFilter

open Library
open OpenFlow (OfpMatch)
open Table

structure CString where
  bytes : Bytes
  unterminated : 0 ∉ bytes
deriving DecidableEq

theorem CString.nonzero (s : CString) : ∀ c ∈ s.bytes, decide (c ≠ 0) = true := by
  intro c hc
  refine decide_eq_true ?_
  rintro rfl
  exact s.unterminated hc

theorem CString.takeWhile_bytes (s : CString) (rest : Bytes) : (s.bytes ++ 0 :: rest).takeWhile (· ≠ 0) = s.bytes := by
  rw [List.takeWhile_append_of_pos s.nonzero]
  simp

-- The services of an entry are a linked list of allocated names; the empty list is the null pointer.
abbrev FilterTable := MatchTable (List CString)

def addPacketinMatchEntry (t : FilterTable) (m : OfpMatch) (priority : UInt16)
    (serviceName : CString) : Bool × FilterTable :=
  match lookupMatchStrictEntry t m priority with
  | [] => (true,(insertMatchEntry t m priority (appendToTail [] serviceName)).2)
  | services =>
    if serviceName ∈ services then (false,t)
    else (true,(updateMatchEntry t m priority (appendToTail services serviceName)).2)

def deletePacketinMatchEntry (t : FilterTable) (m : OfpMatch) (priority : UInt16)
    (serviceName : CString) : Nat × FilterTable :=
  match deleteMatchStrictEntry t m priority with
  | ([],t) => (0,t)
  | (head,t) =>
    match head.filter (· ≠ serviceName) with
    | [] => (head.count serviceName,t)
    | remaining => (head.count serviceName,(insertMatchEntry t m priority remaining).2)

def deleteFilterWalker (m : OfpMatch) (priority : UInt16) (_ : List CString)
    (reply : UInt32 × FilterTable) : UInt32 × FilterTable :=
  match deleteMatchStrictEntry reply.2 m priority with
  | (head,t) => (reply.1 + head.length.toUInt32,t)

structure Criteria where
  mtch : OfpMatch
  priority : UInt16
  serviceName : CString
  strict : Bool

def handleDeleteFilterRequest (t : FilterTable) (criteria : Criteria) : UInt32 × FilterTable :=
  if criteria.strict then
    match deletePacketinMatchEntry t criteria.mtch criteria.priority criteria.serviceName with
    | (n,t) => (n.toUInt32,t)
  else mapMatchTable (some criteria.mtch) Prod.snd deleteFilterWalker (0,t)

inductive Request where
  | add (m : OfpMatch) (priority : UInt16) (serviceName : CString)
  | delete (criteria : Criteria)

def handle (t : FilterTable) : Request → FilterTable
  | .add m priority serviceName => (addPacketinMatchEntry t m priority serviceName).2
  | .delete criteria => (handleDeleteFilterRequest t criteria).2

def filterTable (requests : List Request) : FilterTable := requests.foldl handle initMatchTable

def winningEntry (t : FilterTable) (packet : OfpMatch) : Option (MatchEntry (List CString)) :=
  (lookupExactMatchStrictEntry t.exactTable packet).or
    (lookupWildcardsMatchEntry t.wildcardsTable packet)

def forwarded (t : FilterTable) (packet : OfpMatch) : List CString := lookupMatchEntry t packet

theorem forwarded_eq (t : FilterTable) (packet : OfpMatch) :
    forwarded t packet = entryData (winningEntry t packet) := by
  rw [forwarded,lookupMatchEntry,winningEntry]
  cases lookupExactMatchStrictEntry t.exactTable packet <;> rfl

section Reachable

variable {t : FilterTable} {s : OrderedMap (List CString)}

def Served (s : OrderedMap (List CString)) : Prop := ∀ e ∈ s, e.data ≠ [] ∧ e.data.Nodup

theorem served_insert (h : Served s) {m : OfpMatch} {priority : UInt16} {services : List CString}
    (hsome : services ≠ []) (hnodup : services.Nodup) : Served (s.insert m priority services).2 := by
  intro e he
  rw [OrderedMap.insert] at he
  split at he
  · exact h e he
  · rcases List.mem_append.mp he with he | he
    · exact h e he
    · rw [List.mem_singleton.mp he]
      exact ⟨hsome,hnodup⟩

theorem served_update (h : Served s) {m : OfpMatch} {priority : UInt16} {services : List CString}
    (hsome : services ≠ []) (hnodup : services.Nodup) : Served (s.update m priority services).2 := by
  intro e he
  rw [OrderedMap.update] at he
  split at he
  · obtain ⟨a,ha,rfl⟩ := List.mem_map.mp he
    rw [refilled]
    split
    · exact ⟨hsome,hnodup⟩
    · exact h a ha
  · exact h e he

theorem served_filter (h : Served s) (p : MatchEntry (List CString) → Bool) : Served (s.filter p) :=
  fun e he => h e (List.mem_filter.mp he).1

theorem nodup_find (h : Served s) (m : OfpMatch) (priority : UInt16) :
    (entryData (s.find m priority)).Nodup := by
  cases hfind : s.find m priority with
  | none => exact List.nodup_nil
  | some e => exact (h e (List.mem_of_find?_eq_some hfind)).2

theorem represents_add (h : Represents t s) (hs : Served s) (m : OfpMatch) (priority : UInt16)
    (name : CString) :
    ∃ s', Represents (addPacketinMatchEntry t m priority name).2 s' ∧ Served s' := by
  have hlookup := h.lookupStrict m priority
  have hnodup := nodup_find hs m priority
  rw [addPacketinMatchEntry]
  split
  · exact ⟨_,(h.insert _ _ _).2,served_insert hs (by simp [appendToTail]) (by simp [appendToTail])⟩
  · split
    · exact ⟨_,h,hs⟩
    · rename_i hnew
      rw [hlookup] at hnew ⊢
      refine ⟨_,(h.update _ _ _).2,served_update hs (by simp [appendToTail]) ?_⟩
      exact hnodup.append (List.nodup_singleton name) (by simpa using hnew)

theorem represents_delete (h : Represents t s) (hs : Served s) (m : OfpMatch) (priority : UInt16)
    (name : CString) :
    ∃ s', Represents (deletePacketinMatchEntry t m priority name).2 s' ∧ Served s' := by
  obtain ⟨hhead,hremoved⟩ := h.remove m priority
  have hnodup := nodup_find hs m priority
  have hleft : Served (s.remove m priority).2 := served_filter hs _
  rw [deletePacketinMatchEntry]
  split
  · rename_i hd
    rw [hd] at hremoved
    exact ⟨_,hremoved,hleft⟩
  · rename_i hd
    rw [hd] at hremoved hhead
    split
    · exact ⟨_,hremoved,hleft⟩
    · rename_i hsome
      refine ⟨_,(hremoved.insert _ _ _).2,served_insert hleft hsome ?_⟩
      exact List.Nodup.filter _ ((congrArg List.Nodup hhead).mpr hnodup)

theorem mapMatchTable_deleteFilterWalker (criteria : Option OfpMatch) (n : UInt32) (t : FilterTable) :
    (mapMatchTable criteria Prod.snd deleteFilterWalker (n,t)).2 =
      mapMatchTable criteria id (deleteWalker fun _ _ _ => true) t := by
  have hvisit : ∀ (r : UInt32 × FilterTable) (e : MatchEntry (List CString)),
      visitEntry criteria (deleteWalker fun _ _ _ => true) r.2 e =
        (visitEntry criteria deleteFilterWalker r e).2 := by
    intro r e
    rw [visitEntry,visitEntry]
    split <;> rfl
  have hfold : ∀ (es : List (MatchEntry (List CString))) (r : UInt32 × FilterTable),
      es.foldl (visitEntry criteria (deleteWalker fun _ _ _ => true)) r.2 =
        (es.foldl (visitEntry criteria deleteFilterWalker) r).2 :=
    fun es r => List.foldl_hom Prod.snd hvisit
  simp only [mapMatchTable,id_eq]
  rw [hfold _ (n,t),hfold]

theorem represents_handle (h : Represents t s) (hs : Served s) (request : Request) :
    ∃ s', Represents (handle t request) s' ∧ Served s' := by
  cases request with
  | add m priority name => exact represents_add h hs m priority name
  | delete criteria =>
    rw [handle,handleDeleteFilterRequest]
    split
    · exact represents_delete h hs _ _ _
    · rw [mapMatchTable_deleteFilterWalker]
      exact ⟨_,h.removeMapped _ _,served_filter hs _⟩

theorem represents_filterTable (requests : List Request) :
    ∃ s, Represents (filterTable requests) s ∧ Served s := by
  induction requests using List.reverseRecOn with
  | nil => exact ⟨_,represents_init,by simp [Served]⟩
  | append_singleton requests request ih =>
    obtain ⟨s,h,hs⟩ := ih
    rw [filterTable,List.foldl_append]
    exact represents_handle h hs request

end Reachable

end Trema.PacketinFilter
