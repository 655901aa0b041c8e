import Trema.Library.Probe
import Trema.OpenFlow.Protocol
import Trema.SwitchManager.XidRuns

namespace Trema.SwitchManager

open Library
open OpenFlow (uint32Max)
open Table

variable {σ : Type}

def nextXid (transactionId : UInt32) : UInt32 :=
  if transactionId ≠ uint32Max then transactionId + 1 else 0

def xidInUse (t : XidTable σ) (xid : UInt32) : Bool := (t.lookupXidEntry xid).isSome

-- The counter is left as it is at its largest value, and the search then starts from there.
def searchXid (t : XidTable σ) (transactionId : UInt32) : Probe UInt32 :=
  if transactionId ≠ uint32Max then
    probe nextXid (xidInUse t) (transactionId + 1) 4294967296 (transactionId + 1)
  else probe nextXid (xidInUse t) 0 4294967296 transactionId

-- The counter is set to what is returned.
def generateXid (t : XidTable σ) (transactionId : UInt32) : UInt32 :=
  match searchXid t transactionId with
  | .found xid => xid
  | .exhausted => 0
  | .outOfFuel => 0

theorem nextXid_eq (xid : UInt32) : nextXid xid = xid + 1 := by
  rw [nextXid]
  split
  · rfl
  · rename_i hmax
    rw [not_not] at hmax
    rw [hmax]
    decide

theorem iterate_nextXid (k : Nat) (xid : UInt32) : nextXid^[k] xid = xid + UInt32.ofNat k := by
  induction k generalizing xid with
  | zero => simp
  | succ k ih =>
    rw [Function.iterate_succ_apply,ih,nextXid_eq,UInt32.ofNat_add,UInt32.add_assoc]
    congr 1
    exact UInt32.add_comm _ _

theorem iterate_injective {i j : Nat} (hi : i < 4294967296) (hj : j < 4294967296) {xid : UInt32}
    (h : nextXid^[i] xid = nextXid^[j] xid) : i = j := by
  rw [iterate_nextXid,iterate_nextXid,UInt32.add_right_inj] at h
  have hnat := congrArg UInt32.toNat h
  rwa [UInt32.toNat_ofNat_of_lt' hi,UInt32.toNat_ofNat_of_lt' hj] at hnat

-- generate_xid is called between the runs' steps, and inside an insertion.
def XidTable.Reachable (t : XidTable σ) : Prop :=
  ∃ events, t = initXidTable.run events ∨ t = (initXidTable.run events).emptyNextSlot

theorem XidTable.Reachable.consistent {t : XidTable σ} (h : t.Reachable) : t.Consistent := by
  obtain ⟨events,rfl | rfl⟩ := h
  · exact init_consistent.run events
  · exact (emptyNextSlot_spec (init_consistent.run events)).1.consistent

section Search

variable {t : XidTable σ}

theorem xidInUse_eq_false {xid : UInt32} : xidInUse t xid = false ↔ t.lookupXidEntry xid = none := by
  rw [xidInUse,Option.isSome_eq_false_iff,Option.isNone_iff_eq_none]

def liveXids (t : XidTable σ) : List UInt32 := (foreachHash t.hash).map Prod.fst

theorem mem_liveXids (h : t.Consistent) {xid : UInt32} (hused : xidInUse t xid = true) :
    xid ∈ liveXids t := by
  obtain ⟨e,he⟩ := Option.isSome_iff_exists.mp hused
  exact List.mem_map.mpr ⟨(xid,e),mem_of_lookup h.valid he,rfl⟩

-- Below its largest value the counter goes to one of the next values that is free.
theorem searchXid_below (h : t.Consistent) {transactionId : UInt32} (hmax : transactionId ≠ uint32Max) :
    ∃ k < 4294967295, searchXid t transactionId = .found (transactionId + UInt32.ofNat (k + 1)) ∧
      t.lookupXidEntry (transactionId + UInt32.ofNat (k + 1)) = none := by
  have hlength : (liveXids t).length ≤ 4096 := by
    rw [liveXids,List.length_map]
    exact h.length_le
  have hdistinct : ∀ i j, i < j → j ≤ (liveXids t).length →
      nextXid^[i] (transactionId + 1) ≠ nextXid^[j] (transactionId + 1) := by
    intro i j hij hj heq
    have := iterate_injective (by omega) (by omega) heq
    omega
  obtain ⟨k,hk,hfound,hfree⟩ := probe_free (fun xid hused => mem_liveXids h hused) hdistinct
    (n := 4294967296) (by omega)
  have hvalue : nextXid^[k] (transactionId + 1) = transactionId + UInt32.ofNat (k + 1) := by
    rw [← iterate_nextXid,Function.iterate_succ_apply,nextXid_eq]
  rw [hvalue] at hfound hfree
  refine ⟨k,by omega,?_,xidInUse_eq_false.mp hfree⟩
  rw [searchXid,if_pos hmax]
  exact hfound

theorem searchXid_largest : searchXid t uint32Max =
    if (t.lookupXidEntry uint32Max).isSome then .exhausted else .found uint32Max := by
  rw [searchXid,if_neg (by simp)]
  split
  · rename_i hlive
    refine probe_exhausted (k := 0) (by decide) ?_ (fun j hj => absurd hj (Nat.not_lt_zero j)) rfl
    intro j hj
    rw [Nat.le_zero.mp hj]
    exact hlive
  · rename_i hfree
    refine probe_found (k := 0) (by decide) (fun j hj => absurd hj (Nat.not_lt_zero j))
      (fun j hj => absurd hj (Nat.not_lt_zero j)) ?_
    simpa [xidInUse] using hfree

theorem generateXid_below (h : t.Consistent) {transactionId : UInt32} (hmax : transactionId ≠ uint32Max) :
    t.lookupXidEntry (generateXid t transactionId) = none ∧ generateXid t transactionId ≠ transactionId := by
  obtain ⟨k,hk,hfound,hfree⟩ := searchXid_below h hmax
  rw [generateXid,hfound]
  refine ⟨hfree,?_⟩
  intro hsame
  rw [UInt32.add_eq_left] at hsame
  have hnat := congrArg UInt32.toNat hsame
  rw [UInt32.toNat_ofNat_of_lt' (Nat.succ_lt_succ hk)] at hnat
  exact absurd hnat (Nat.succ_ne_zero k)

end Search

theorem generated_xid_fresh_iff (t : XidTable σ) (h : t.Reachable) (transactionId : UInt32) :
    searchXid t transactionId ≠ .outOfFuel ∧
    (t.lookupXidEntry (generateXid t transactionId) = none ∧ generateXid t transactionId ≠ transactionId ↔
      transactionId ≠ uint32Max ∨
        (t.lookupXidEntry uint32Max).isSome = true ∧ t.lookupXidEntry 0 = none) := by
  by_cases hmax : transactionId = uint32Max
  · subst hmax
    have hsearch := searchXid_largest (t := t)
    rw [generateXid,hsearch]
    split
    · rename_i hlive
      refine ⟨by simp,?_⟩
      constructor
      · rintro ⟨hfree,_⟩
        exact .inr ⟨hlive,hfree⟩
      · rintro (hne | ⟨_,hfree⟩)
        · exact absurd rfl hne
        · exact ⟨hfree,by decide⟩
    · rename_i hfree
      refine ⟨by simp,?_⟩
      constructor
      · rintro ⟨_,hne⟩
        exact absurd rfl hne
      · rintro (hne | ⟨hlive,_⟩)
        · exact absurd rfl hne
        · exact absurd hlive hfree
  · obtain ⟨k,_,hfound,_⟩ := searchXid_below h.consistent hmax
    refine ⟨by rw [hfound]; simp,?_⟩
    exact iff_of_true (generateXid_below h.consistent hmax) (.inl hmax)

theorem init_reachable : (initXidTable : XidTable σ).Reachable := ⟨[],.inl rfl⟩

-- The two next xids are live.
def busyTable : XidTable Nat := initXidTable.run [.insert 1 10 7,.insert 2 11 7]

theorem busy_xid_fresh :
    (busyTable.lookupXidEntry 1).isSome = true ∧ (busyTable.lookupXidEntry 2).isSome = true ∧
      busyTable.lookupXidEntry (generateXid busyTable 0) = none ∧ generateXid busyTable 0 ≠ 0 :=
  ⟨by decide,by decide,(generated_xid_fresh_iff busyTable ⟨_,.inl rfl⟩ 0).2.mpr (.inl (by decide))⟩

-- The xid of the previous call is returned again.
theorem largest_xid_repeated :
    (initXidTable : XidTable Nat).Reachable ∧
      generateXid (initXidTable : XidTable Nat) uint32Max = uint32Max := by
  refine ⟨init_reachable,?_⟩
  rw [generateXid,searchXid_largest]
  rfl

end Trema.SwitchManager
