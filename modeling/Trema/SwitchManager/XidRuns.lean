import Trema.SwitchManager.XidTable

namespace Trema.SwitchManager

open Table

variable {σ : Type}

def XidEvent.isInsert : XidEvent σ → Bool
  | .insert _ _ _ => true
  | _ => false

def insertions (events : List (XidEvent σ)) : Nat := events.countP XidEvent.isInsert

-- The entry with the xid is deleted, or the xid is generated again.
def XidEvent.Removes (xid : UInt32) : XidEvent σ → Prop
  | .insert xid' _ _ => xid' = xid
  | .delete xid' => xid' = xid
  | .lookup _ => False

namespace XidTable

variable {t : XidTable σ}

theorem allocated_step (h : t.Consistent) (event : XidEvent σ) :
    (t.step event).allocated = t.allocated + insertions [event] := by
  cases event with
  | insert xid originalXid serviceName => exact allocated_insert h
  | delete xid =>
    rw [step]
    cases he : t.lookupXidEntry xid with
    | none => rfl
    | some e =>
      have hlive : t.lookupXidEntry e.xid = some e := by
        rw [h.keyed xid e he]
        exact he
      simp only [delete_eq hlive]
      rfl
  | lookup xid => rfl

theorem insertions_cons (event : XidEvent σ) (events : List (XidEvent σ)) :
    insertions (event :: events) = insertions [event] + insertions events := by
  rw [insertions,insertions,insertions,← List.countP_append,List.singleton_append]

theorem allocated_run (h : t.Consistent) (events : List (XidEvent σ)) :
    (t.run events).allocated = t.allocated + insertions events := by
  induction events generalizing t with
  | nil => rfl
  | cons event events ih =>
    rw [run,ih (h.step event),allocated_step h,insertions_cons event events,Nat.add_assoc]

-- What a step does to an entry that was allocated before it.
theorem stays_step (h : t.Consistent) {e : XidEntry σ} (hid : e.id < t.allocated)
    (hindex : e.index = e.id % xidMaxEntries) (event : XidEvent σ) :
    (t.step event).lookupXidEntry e.xid = some e ↔ t.lookupXidEntry e.xid = some e ∧
      ¬ event.Removes e.xid ∧ t.allocated + insertions [event] ≤ e.id + xidMaxEntries := by
  have hage : t.lookupXidEntry e.xid = some e → t.allocated ≤ e.id + xidMaxEntries :=
    fun he => (h.recent _ e he).2
  cases event with
  | insert xid originalXid serviceName =>
    have hslot : t.allocated ≤ e.id + xidMaxEntries →
        (e.index ≠ t.allocated % xidMaxEntries ↔ t.allocated + 1 ≤ e.id + xidMaxEntries) := by
      intro hle
      rw [hindex]
      simp only [xidMaxEntries] at hle ⊢
      omega
    rw [step,lookup_insert_iff h]
    constructor
    · rintro (⟨_,hnew⟩ | ⟨hxid,he,hother⟩)
      · rw [hnew] at hid
        exact absurd hid (Nat.lt_irrefl _)
      · exact ⟨he,fun hsame => hxid hsame.symm,(hslot (hage he)).mp hother⟩
    · rintro ⟨he,hxid,hle⟩
      exact .inr ⟨fun hsame => hxid hsame.symm,he,(hslot (hage he)).mpr hle⟩
  | delete xid =>
    rw [step]
    cases hold : t.lookupXidEntry xid with
    | none =>
      refine ⟨fun he => ⟨he,?_,hage he⟩,And.left⟩
      rintro rfl
      rw [hold] at he
      exact absurd he (by simp)
    | some a =>
      have hkey := h.keyed xid a hold
      subst hkey
      simp only [lookup_delete h hold]
      constructor
      · intro he
        split at he
        · exact absurd he (by simp)
        · rename_i hxid
          exact ⟨he,fun hsame => hxid hsame.symm,hage he⟩
      · rintro ⟨he,hxid,_⟩
        rw [if_neg (fun hsame => hxid hsame.symm)]
        exact he
  | lookup xid => exact ⟨fun he => ⟨he,id,hage he⟩,And.left⟩

theorem stays_run (h : t.Consistent) {e : XidEntry σ} (hid : e.id < t.allocated)
    (hindex : e.index = e.id % xidMaxEntries) (events : List (XidEvent σ)) :
    (t.run events).lookupXidEntry e.xid = some e ↔ t.lookupXidEntry e.xid = some e ∧
      (∀ event ∈ events, ¬ event.Removes e.xid) ∧ t.allocated + insertions events ≤ e.id + xidMaxEntries := by
  induction events generalizing t with
  | nil => exact ⟨fun he => ⟨he,by simp,(h.recent _ e he).2⟩,And.left⟩
  | cons event events ih =>
    have hallocated := allocated_step h event
    have hid' : e.id < (t.step event).allocated := by
      rw [hallocated]
      exact Nat.lt_add_right _ hid
    rw [run,ih (h.step event) hid',stays_step h hid hindex event,hallocated,insertions_cons event events,
      List.forall_mem_cons,← Nat.add_assoc]
    constructor
    · rintro ⟨⟨he,hevent,_⟩,hevents,hle⟩
      exact ⟨he,⟨hevent,hevents⟩,hle⟩
    · rintro ⟨he,⟨hevent,hevents⟩,hle⟩
      exact ⟨⟨he,hevent,Nat.le_trans (Nat.le_add_right _ _) hle⟩,hevents,hle⟩

theorem inserted_stays (before after : List (XidEvent σ)) (xid originalXid : UInt32) (serviceName : σ) :
    (initXidTable.run (before ++ .insert xid originalXid serviceName :: after)).lookupXidEntry xid =
        some ⟨xid,originalXid,serviceName,insertions before % xidMaxEntries,insertions before⟩ ↔
      (∀ event ∈ after, ¬ event.Removes xid) ∧ insertions after < xidMaxEntries := by
  have hbefore := init_consistent.run before
  have hallocated : (initXidTable.run before).allocated = insertions before := by
    rw [allocated_run init_consistent,initXidTable,Nat.zero_add]
  rw [run_append,run]
  generalize initXidTable.run before = t at hbefore hallocated
  let e : XidEntry σ := ⟨xid,originalXid,serviceName,insertions before % xidMaxEntries,insertions before⟩
  have hfound : (t.step (.insert xid originalXid serviceName)).lookupXidEntry xid = some e := by
    rw [step,lookup_insert_iff hbefore,hallocated]
    exact .inl ⟨rfl,rfl⟩
  have hnew : (t.step (.insert xid originalXid serviceName)).allocated = insertions before + 1 := by
    rw [step,allocated_insert hbefore,hallocated]
  have hstays := stays_run (hbefore.step (.insert xid originalXid serviceName)) (e := e)
    (by rw [hnew]; exact Nat.lt_succ_self _) rfl after
  refine hstays.trans ?_
  rw [hnew]
  constructor
  · rintro ⟨_,hafter,hle⟩
    exact ⟨hafter,by simp only [e] at hle; omega⟩
  · rintro ⟨hafter,hlt⟩
    exact ⟨hfound,hafter,by simp only [e]; omega⟩

end XidTable

theorem xid_table_runs (events : List (XidEvent σ)) :
    (∀ i e, (initXidTable.run events).entries i = some e ↔
      (initXidTable.run events).lookupXidEntry e.xid = some e ∧ e.index = i) ∧
    (∀ xid e, (initXidTable.run events).lookupXidEntry xid = some e →
      e.xid = xid ∧ e.index < xidMaxEntries ∧ e.id ∉ (initXidTable.run events).freed) ∧
    (initXidTable.run events).freed.Nodup ∧
    (foreachHash (initXidTable.run events).hash).length ≤ xidMaxEntries ∧
    ∀ before xid originalXid serviceName after,
      events = before ++ .insert xid originalXid serviceName :: after →
      ((initXidTable.run events).lookupXidEntry xid =
          some ⟨xid,originalXid,serviceName,insertions before % xidMaxEntries,insertions before⟩ ↔
        (∀ event ∈ after, ¬ event.Removes xid) ∧ insertions after < xidMaxEntries) := by
  have h := XidTable.init_consistent.run events
  refine ⟨h.slots,?_,h.freedOnce,h.length_le,?_⟩
  · intro xid e he
    refine ⟨h.keyed xid e he,?_,h.unfreed xid e he⟩
    rw [h.placed xid e he]
    exact Nat.mod_lt _ (by decide)
  · rintro before xid originalXid serviceName after rfl
    exact XidTable.inserted_stays before after xid originalXid serviceName

end Trema.SwitchManager
