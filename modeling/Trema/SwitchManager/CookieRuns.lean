import Trema.SwitchManager.CookieSteps

namespace Trema.SwitchManager

open Library
open Table

inductive CookieEvent where
  | insert (cookie : UInt64) (serviceName : Bytes) (flags : UInt16) (now : Int)
  | deleteByCookie (cookie : UInt64)
  | deleteByApplication (cookie : UInt64) (serviceName : Bytes)
  | lookupByCookie (cookie : UInt64)
  | lookupByApplication (cookie : UInt64) (serviceName : Bytes)
  | age (now : ApplicationKey → Int)

namespace CookieTable

-- A deletion of an entry that a lookup has found.
def deleteFound (t : CookieTable) : Option EntryId → Option CookieTable
  | some id => t.deleteCookieEntry id
  | none => some t

def step (t : CookieTable) : CookieEvent → Option CookieTable
  | .insert cookie serviceName flags now => (t.insertCookieEntry cookie serviceName flags now).map Prod.snd
  | .deleteByCookie cookie => t.deleteFound (t.lookupCookieEntryByCookie cookie)
  | .deleteByApplication cookie serviceName =>
    t.deleteFound (t.lookupCookieEntryByApplication cookie serviceName)
  | .lookupByCookie _ => some t
  | .lookupByApplication _ _ => some t
  | .age now => t.ageCookieTable now

def deletedKey (t : CookieTable) (found : Option EntryId) : List CookieAct :=
  ((found.bind t.heap).map fun e => CookieAct.delete e.key).toList

def acts (t : CookieTable) : CookieEvent → List CookieAct
  | .insert cookie serviceName _ now => [.insert ⟨cookie,copyServiceName serviceName⟩ now]
  | .deleteByCookie cookie => t.deletedKey (t.lookupCookieEntryByCookie cookie)
  | .deleteByApplication cookie serviceName =>
    t.deletedKey (t.lookupCookieEntryByApplication cookie serviceName)
  | .lookupByCookie _ => []
  | .lookupByApplication _ _ => []
  | .age now => [.age now]

def run : CookieTable → List CookieEvent → Option (List CookieAct × CookieTable)
  | t, [] => some ([],t)
  | t, event :: events =>
    match t.step event with
    | none => none
    | some t' =>
      match run t' events with
      | none => none
      | some (rest,t'') => some (t.acts event ++ rest,t'')

-- There is a cookie for a new entry, and the reference count of an old one is below INT_MAX.
def Roomy (t : CookieTable) : CookieEvent → Prop
  | .insert cookie serviceName _ _ =>
    match t.lookupCookieEntryByApplication cookie serviceName with
    | none => (foreachHash t.global).length < 18446744073709551614
    | some id => ∀ e, t.heap id = some e → e.referenceCount.toInt < 2147483647
  | _ => True

def RoomyRun : CookieTable → List CookieEvent → Prop
  | _, [] => True
  | t, event :: events => t.Roomy event ∧ ∀ t', t.step event = some t' → RoomyRun t' events

variable {t : CookieTable}

theorem deleteFound_spec (h : t.Linked) {found : Option EntryId}
    (hfound : ∀ id, found = some id → ∃ e, t.heap id = some e) :
    ∃ t', t.deleteFound found = some t' ∧ t'.Linked ∧
      ∀ key, t'.balance key = (t.deletedKey found).foldl (CookieAct.settle key) (t.balance key) := by
  cases found with
  | none => exact ⟨t,rfl,h,fun _ => rfl⟩
  | some id =>
    obtain ⟨e,he⟩ := hfound id rfl
    obtain ⟨t',hdelete,hlinked,hbalance⟩ := delete_spec h he
    refine ⟨t',hdelete,hlinked,?_⟩
    intro key
    rw [hbalance,deletedKey,Option.bind_some,he]
    rfl

theorem step_spec (h : t.Linked) {event : CookieEvent} (hroomy : t.Roomy event) :
    ∃ t', t.step event = some t' ∧ t'.Linked ∧
      ∀ key, t'.balance key = (t.acts event).foldl (CookieAct.settle key) (t.balance key) := by
  cases event with
  | insert cookie serviceName flags now =>
    rw [Roomy] at hroomy
    cases hfound : t.lookupCookieEntryByApplication cookie serviceName with
    | none =>
      rw [hfound] at hroomy
      obtain ⟨t',hinsert,hlinked,hbalance⟩ := insert_new h flags now hfound hroomy
      exact ⟨t',by rw [step,hinsert]; rfl,hlinked,hbalance⟩
    | some id =>
      rw [hfound] at hroomy
      obtain ⟨e,he,_⟩ := (h.application _ id).mp hfound
      obtain ⟨t',hinsert,hlinked,hbalance⟩ := insert_old h flags now hfound he (hroomy e he)
      exact ⟨t',by rw [step,hinsert]; rfl,hlinked,hbalance⟩
  | deleteByCookie cookie =>
    refine deleteFound_spec h fun id hid => ?_
    obtain ⟨e,he,_⟩ := (h.global cookie id).mp hid
    exact ⟨e,he⟩
  | deleteByApplication cookie serviceName =>
    refine deleteFound_spec h fun id hid => ?_
    obtain ⟨e,he,_⟩ := (h.application _ id).mp hid
    exact ⟨e,he⟩
  | lookupByCookie cookie => exact ⟨t,rfl,h,fun _ => rfl⟩
  | lookupByApplication cookie serviceName => exact ⟨t,rfl,h,fun _ => rfl⟩
  | age now => exact age_spec h now

theorem run_cons {event : CookieEvent} {events : List CookieEvent} {t₁ t' : CookieTable} {log : List CookieAct}
    (hstep : t.step event = some t₁) (hrun : t₁.run events = some (log,t')) :
    t.run (event :: events) = some (t.acts event ++ log,t') := by
  rw [run,hstep]
  simp only [hrun]

theorem run_spec (h : t.Linked) {events : List CookieEvent} (hroomy : t.RoomyRun events) :
    ∃ log t', t.run events = some (log,t') ∧ t'.Linked ∧
      ∀ key, t'.balance key = log.foldl (CookieAct.settle key) (t.balance key) := by
  induction events generalizing t with
  | nil => exact ⟨[],t,rfl,h,fun _ => rfl⟩
  | cons event events ih =>
    obtain ⟨t₁,hstep,hlinked,hbalance⟩ := step_spec h hroomy.1
    obtain ⟨log,t',hrun,hlinked',hbalance'⟩ := ih hlinked (hroomy.2 t₁ hstep)
    refine ⟨t.acts event ++ log,t',run_cons hstep hrun,hlinked',?_⟩
    intro key
    rw [hbalance',hbalance,List.foldl_append]

theorem linked_of_run {events : List CookieEvent} (hroomy : initCookieTable.RoomyRun events)
    {log : List CookieAct} (hrun : initCookieTable.run events = some (log,t)) : t.Linked := by
  obtain ⟨log',t',hrun',hlinked,_⟩ := run_spec init_linked hroomy
  rw [hrun] at hrun'
  injection hrun' with hsame
  injection hsame with _ hsame
  rw [hsame]
  exact hlinked

end CookieTable

-- The insertions of the key that no deletion has matched, with the time at which its entry expires.
def outstanding (log : List CookieAct) (key : ApplicationKey) : Option (Int × Int) :=
  log.foldl (CookieAct.settle key) none

theorem cookie_tables_linked (events : List CookieEvent) (hroomy : initCookieTable.RoomyRun events) :
    ∃ log t, initCookieTable.run events = some (log,t) ∧
      (∀ cookie id, t.lookupCookieEntryByCookie cookie = some id → ∃ e, t.heap id = some e ∧
        e.cookie = cookie ∧ 1 ≤ e.referenceCount.toInt ∧ cookie ≠ reservedCookie ∧ cookie ≠ invalidCookie ∧
        t.lookupCookieEntryByApplication e.application.cookie e.application.serviceName = some id) ∧
      (∀ cookie serviceName id, t.lookupCookieEntryByApplication cookie serviceName = some id →
        ∃ e, t.heap id = some e ∧ e.application.cookie = cookie ∧
          e.application.serviceName = copyServiceName serviceName ∧
          t.lookupCookieEntryByCookie e.cookie = some id) ∧
      (∀ id e, t.heap id = some e → t.lookupCookieEntryByCookie e.cookie = some id) ∧
      ∀ cookie serviceName, ((t.lookupCookieEntryByApplication cookie serviceName).bind t.heap).map
        (fun e => (e.referenceCount.toInt,e.expireAt)) = outstanding log ⟨cookie,copyServiceName serviceName⟩ := by
  obtain ⟨log,t,hrun,hlinked,hbalance⟩ := CookieTable.run_spec CookieTable.init_linked hroomy
  refine ⟨log,t,hrun,?_,?_,?_,?_⟩
  · intro cookie id hid
    obtain ⟨e,he,rfl⟩ := (hlinked.global cookie id).mp hid
    have hsound := hlinked.sound id e he
    refine ⟨e,he,rfl,hsound.referenced,hsound.notReserved,hsound.notInvalid,?_⟩
    rw [CookieTable.lookupCookieEntryByApplication,hsound.copied]
    exact (hlinked.application _ id).mpr ⟨e,he,rfl⟩
  · intro cookie serviceName id hid
    obtain ⟨e,he,hkey⟩ := (hlinked.application _ id).mp hid
    refine ⟨e,he,?_,?_,(hlinked.global _ id).mpr ⟨e,he,rfl⟩⟩
    · exact congrArg ApplicationKey.cookie hkey
    · exact congrArg ApplicationKey.serviceName hkey
  · intro id e he
    exact (hlinked.global _ id).mpr ⟨e,he,rfl⟩
  · intro cookie serviceName
    exact hbalance ⟨cookie,copyServiceName serviceName⟩

def cookieEvents : List CookieEvent :=
  [.insert 5 [97] 0 0,.insert 5 [97] 0 1,.insert 6 [98] 0 2,.deleteByCookie 1,.age fun _ => 3]

def cookieActs : List CookieAct :=
  [.insert ⟨5,[97]⟩ 0,.insert ⟨5,[97]⟩ 1,.insert ⟨6,[98]⟩ 2,.delete ⟨5,[97]⟩,.age fun _ => 3]

-- Two applications, one of which has its cookie inserted twice and deleted once.
theorem inserted_and_deleted_linked :
    ∃ log t, initCookieTable.run cookieEvents = some (log,t) ∧
      (∀ id e, t.heap id = some e → t.lookupCookieEntryByCookie e.cookie = some id) ∧
      outstanding log ⟨5,[97]⟩ = some (1,1 + cookieEntryLifetime) ∧
      outstanding log ⟨6,[98]⟩ = some (1,2 + cookieEntryLifetime) ∧
      ∃ e, (t.lookupCookieEntryByApplication 5 [97]).bind t.heap = some e ∧ e.referenceCount.toInt = 1 := by
  have hempty : (foreachHash initCookieTable.global).length < 18446744073709551614 := by decide
  have hroomy : initCookieTable.RoomyRun cookieEvents := by
    refine ⟨hempty,?_⟩
    rintro t₁ ⟨⟩
    refine ⟨?_,?_⟩
    · rintro e ⟨⟩
      decide
    rintro t₂ ⟨⟩
    exact ⟨(by decide : 1 < 18446744073709551614),fun _ _ =>
      ⟨trivial,fun _ _ => ⟨trivial,fun _ _ => trivial⟩⟩⟩
  obtain ⟨log,t,hrun,_,_,hglobal,hcount⟩ := cookie_tables_linked cookieEvents hroomy
  have hlog : cookieActs = log := congrArg Prod.fst (Option.some.inj hrun)
  subst hlog
  refine ⟨_,t,hrun,hglobal,rfl,rfl,?_⟩
  have hone := hcount 5 [97]
  have hout : outstanding cookieActs ⟨5,copyServiceName [97]⟩ = some (1,1 + cookieEntryLifetime) := rfl
  rw [hout,Option.map_eq_some_iff] at hone
  obtain ⟨e,he,hcount⟩ := hone
  exact ⟨e,he,congrArg Prod.fst hcount⟩

namespace CookieTable

variable {t : CookieTable} {id : EntryId} {e : CookieEntry} {cookie : UInt64} {serviceName : Bytes}

theorem run_repeated_insert (hfound : t.lookupCookieEntryByApplication cookie serviceName = some id)
    (hlive : t.lookupCookieEntryByCookie e.cookie = some id) (he : t.heap id = some e) (n : Nat) :
    ∃ log t' e', t.run (List.replicate n (.insert cookie serviceName 0 0)) = some (log,t') ∧
      t'.lookupCookieEntryByCookie e'.cookie = some id ∧ t'.heap id = some e' ∧
      e'.referenceCount = e.referenceCount + Int32.ofNat n := by
  induction n generalizing t e with
  | zero => exact ⟨[],t,e,rfl,hlive,he,by simp⟩
  | succ n ih =>
    let e₁ : CookieEntry := ⟨e.cookie,{ e.application with flags := e.application.flags ||| 0 },
      e.referenceCount + 1,0 + cookieEntryLifetime⟩
    have hstep : t.step (.insert cookie serviceName 0 0) = some (t.writeEntry id (some e₁)) := by
      simp only [step,insertCookieEntry,hfound,he]
      rfl
    have he₁ : (t.writeEntry id (some e₁)).heap id = some e₁ := by rw [heap_write,if_pos rfl]
    obtain ⟨log,t',e',hrun,hlive',he',hcount⟩ := ih (t := t.writeEntry id (some e₁)) (e := e₁) hfound
      hlive he₁
    refine ⟨_,t',e',run_cons hstep hrun,hlive',he',?_⟩
    rw [hcount,Int32.ofNat_add,Int32.add_comm (Int32.ofNat n),← Int32.add_assoc]
    rfl

-- The count of an entry that is inserted over and over wraps round.
theorem run_inserts (cookie : UInt64) (serviceName : Bytes) (n : Nat) :
    ∃ log t id e, initCookieTable.run (List.replicate (n + 1) (.insert cookie serviceName 0 0)) = some (log,t) ∧
      t.lookupCookieEntryByCookie e.cookie = some id ∧ t.heap id = some e ∧
      e.referenceCount = 1 + Int32.ofNat n := by
  have hfresh : initCookieTable.lookupCookieEntryByApplication cookie serviceName = none := rfl
  have hroom : (foreachHash initCookieTable.global).length < 18446744073709551614 := by decide
  obtain ⟨t₁,hinsert,hlinked,hbalance⟩ := insert_new init_linked 0 0 hfresh hroom
  have hfirst := hbalance ⟨cookie,copyServiceName serviceName⟩
  rw [CookieAct.settle,if_pos rfl,balance,Option.map_eq_some_iff] at hfirst
  obtain ⟨e₁,he₁,hcount⟩ := hfirst
  have hone : e₁.referenceCount = 1 := Int32.toInt_inj.mp (congrArg Prod.fst hcount)
  obtain ⟨id,hid,hkey⟩ := (entryOf_iff hlinked).mp he₁
  have hfound : t₁.lookupCookieEntryByApplication cookie serviceName = some id :=
    (hlinked.application _ id).mpr ⟨e₁,hid,hkey⟩
  obtain ⟨log,t',e',hrun,hlive,he',hcount'⟩ := run_repeated_insert hfound
    ((hlinked.global _ id).mpr ⟨e₁,hid,rfl⟩) hid n
  have hstep : initCookieTable.step (.insert cookie serviceName 0 0) = some t₁ := by
    rw [step,hinsert]
    rfl
  exact ⟨_,t',id,e',run_cons hstep hrun,hlive,he',by rw [hcount',hone]⟩

end CookieTable

theorem reference_count_overflows :
    ∃ log t id e, initCookieTable.run (List.replicate (2147483647 + 1) (.insert 5 [97] 0 0)) = some (log,t) ∧
      t.lookupCookieEntryByCookie e.cookie = some id ∧ t.heap id = some e ∧
      e.referenceCount.toInt = -2147483648 := by
  obtain ⟨log,t,id,e,hrun,hlive,he,hcount⟩ := CookieTable.run_inserts 5 [97] 2147483647
  refine ⟨log,t,id,e,hrun,hlive,he,?_⟩
  rw [hcount]
  decide

end Trema.SwitchManager
