import Trema.SwitchManager.CookieSteps

namespace Trema.SwitchManager

open Library
open Table

namespace CookieTable

variable {t : CookieTable} {id : EntryId} {e : CookieEntry}

def Room (t : CookieTable) : Prop := (foreachHash t.global).length < 18446744073709551614

theorem entry_keyed (h : t.Linked) {key : ApplicationKey} (he : t.entryOf key = some e) : e.key = key := by
  obtain ⟨_,_,hkey⟩ := (entryOf_iff h).mp he
  exact hkey

theorem entry_sound (h : t.Linked) {key : ApplicationKey} (he : t.entryOf key = some e) : e.Sound := by
  obtain ⟨j,hj,_⟩ := (entryOf_iff h).mp he
  exact h.sound j e hj

-- The entry that a cookie of the switch stands for.
theorem lookup_cookie_iff (h : t.Linked) {cookie : UInt64} :
    (∃ id, t.lookupCookieEntryByCookie cookie = some id ∧ t.heap id = some e) ↔
      e.cookie = cookie ∧ t.entryOf e.key = some e := by
  constructor
  · rintro ⟨id,hid,he⟩
    obtain ⟨x,hx,hcookie⟩ := (h.global cookie id).mp hid
    rw [he] at hx
    rw [← Option.some.inj hx] at hcookie
    exact ⟨hcookie,entryOf_self h he⟩
  · rintro ⟨rfl,he⟩
    obtain ⟨j,hj,_⟩ := (entryOf_iff h).mp he
    exact ⟨j,(h.global _ j).mpr ⟨e,hj,rfl⟩,hj⟩

theorem same_entry (h : t.Linked) {key key' : ApplicationKey} {x y : CookieEntry}
    (hx : t.entryOf key = some x) (hy : t.entryOf key' = some y) (hcookie : x.cookie = y.cookie) :
    x = y := by
  obtain ⟨i,hi,_⟩ := (entryOf_iff h).mp hx
  obtain ⟨j,hj,_⟩ := (entryOf_iff h).mp hy
  have hij := h.same_cookie hi hj hcookie
  rw [hij,hj] at hi
  exact (Option.some.inj hi).symm

theorem lookup_application_iff {cookie : UInt64} {serviceName : Bytes} :
    (∃ id, t.lookupCookieEntryByApplication cookie serviceName = some id ∧ t.heap id = some e) ↔
      t.entryOf ⟨cookie,copyServiceName serviceName⟩ = some e := by
  rw [entryOf,Option.bind_eq_some_iff]
  rfl

theorem lookup_application_none (h : t.Linked) {cookie : UInt64} {serviceName : Bytes} :
    t.lookupCookieEntryByApplication cookie serviceName = none ↔
      t.entryOf ⟨cookie,copyServiceName serviceName⟩ = none := by
  constructor
  · exact lookupKey_none
  · intro hnone
    cases hid : t.lookupCookieEntryByApplication cookie serviceName with
    | none => rfl
    | some id =>
      obtain ⟨x,hx,_⟩ := (h.application _ id).mp hid
      have hsome := lookup_application_iff.mp ⟨id,hid,hx⟩
      rw [hnone] at hsome
      exact absurd hsome (by simp)

-- The entry that an insertion leaves, where there was one before and where there was none.
structure Inserted (old : Option CookieEntry) (flags : UInt16) (now : Int) (e' : CookieEntry) : Prop where
  kept : ∀ e, old = some e → e'.cookie = e.cookie
  flagged : e'.application.flags = old.elim flags fun e => e.application.flags ||| flags
  counted : e'.referenceCount = old.elim 1 fun e => e.referenceCount + 1
  expires : e'.expireAt = now + cookieEntryLifetime

theorem insert_effect (h : t.Linked) (hroom : t.Room) (cookie : UInt64) (serviceName : Bytes)
    (flags : UInt16) (now : Int)
    (hcount : ∀ e, t.entryOf ⟨cookie,copyServiceName serviceName⟩ = some e →
      e.referenceCount.toInt < 2147483647) :
    ∃ t' e', t.insertCookieEntry cookie serviceName flags now = some (e'.cookie,t') ∧ t'.Linked ∧
      e'.key = ⟨cookie,copyServiceName serviceName⟩ ∧
      Inserted (t.entryOf ⟨cookie,copyServiceName serviceName⟩) flags now e' ∧
      (t.entryOf ⟨cookie,copyServiceName serviceName⟩ = none →
        ∀ key x, t.entryOf key = some x → x.cookie ≠ e'.cookie) ∧
      ∀ key, t'.entryOf key =
        if key = ⟨cookie,copyServiceName serviceName⟩ then some e' else t.entryOf key := by
  cases hold : t.entryOf ⟨cookie,copyServiceName serviceName⟩ with
  | some e =>
    obtain ⟨id,hid,he⟩ := lookup_application_iff.mpr hold
    have hkey := entry_keyed h hold
    have hsound := h.sound id e he
    let e' : CookieEntry := ⟨e.cookie,{ e.application with flags := e.application.flags ||| flags },
      e.referenceCount + 1,now + cookieEntryLifetime⟩
    have hsum : (e.referenceCount + 1).toInt = e.referenceCount.toInt + 1 :=
      toInt_increment hsound.referenced (hcount e hold)
    have hsound' : e'.Sound := by
      refine ⟨?_,hsound.notReserved,hsound.notInvalid,hsound.copied⟩
      rw [hsum]
      exact Int.le_trans hsound.referenced (by omega)
    refine ⟨t.writeEntry id (some e'),e',?_,h.write he rfl rfl hsound',hkey,
      ⟨fun x hx => by rw [← Option.some.inj hx],rfl,rfl,rfl⟩,fun hnone => by simp at hnone,?_⟩
    · simp only [insertCookieEntry,hid,he]
      rfl
    · intro key
      rw [← hkey]
      exact entryOf_write h e' he rfl rfl hsound' key
  | none =>
    have hnew := (lookup_application_none h).mpr hold
    obtain ⟨hfree,hreserved,hinvalid⟩ := generateCookie_fresh h hroom
    let e' : CookieEntry := ⟨t.generateCookie,⟨⟨cookie,copyServiceName serviceName⟩,flags⟩,1,
      now + cookieEntryLifetime⟩
    have hone : 1 ≤ (1 : Int32).toInt := by decide
    have hsound : e'.Sound := ⟨hone,hreserved,hinvalid,copyServiceName_copy serviceName⟩
    refine ⟨t.withEntry e',e',?_,h.add hfree hnew hsound,rfl,⟨fun x hx => by simp at hx,rfl,rfl,rfl⟩,
      fun _ key x hx hcookie => ?_,entryOf_add h hfree hnew hsound⟩
    · have hconflict : (t.allocateCookieEntry cookie serviceName flags now).lookupCookieEntryByCookie
          t.generateCookie = none := hfree
      simp only [insertCookieEntry,hnew,deleteConflict,hconflict]
      rfl
    · obtain ⟨j,hj,_⟩ := (entryOf_iff h).mp hx
      have hsome := (h.global t.generateCookie j).mpr ⟨x,hj,hcookie⟩
      rw [hfree] at hsome
      exact absurd hsome (by simp)

theorem insert_total (h : t.Linked) (hroom : t.Room) (cookie : UInt64) (serviceName : Bytes)
    (flags : UInt16) (now : Int) : ∃ x, t.insertCookieEntry cookie serviceName flags now = some x := by
  cases hold : t.entryOf ⟨cookie,copyServiceName serviceName⟩ with
  | some e =>
    obtain ⟨id,hid,he⟩ := lookup_application_iff.mpr hold
    simp only [insertCookieEntry,hid,he]
    exact ⟨_,rfl⟩
  | none =>
    obtain ⟨t',e',hinsert,_⟩ := insert_effect h hroom cookie serviceName flags now
      (fun x hx => by rw [hold] at hx; simp at hx)
    exact ⟨_,hinsert⟩

-- What is left of an entry once a reference to it has been given up.
def released (e : CookieEntry) : Option CookieEntry :=
  if e.referenceCount > 1 then some { e with referenceCount := e.referenceCount - 1 } else none

theorem delete_effect (h : t.Linked) (he : t.heap id = some e) :
    ∃ t', t.deleteCookieEntry id = some t' ∧ t'.Linked ∧
      ∀ key, t'.entryOf key = if key = e.key then released e else t.entryOf key := by
  have hsound := h.sound id e he
  have hgt : e.referenceCount > 1 ↔ e.referenceCount.toInt > 1 := Int32.lt_iff_toInt_lt
  rw [deleteCookieEntry,he,released]
  simp only
  split
  · rename_i hmore
    have hdiff : (e.referenceCount - 1).toInt = e.referenceCount.toInt - 1 := toInt_decrement hsound.referenced
    have hsound' : { e with referenceCount := e.referenceCount - 1 }.Sound := by
      refine ⟨?_,hsound.notReserved,hsound.notInvalid,hsound.copied⟩
      have hint := hgt.mp hmore
      rw [hdiff]
      omega
    exact ⟨_,rfl,h.write he rfl rfl hsound',entryOf_write h _ he rfl rfl hsound'⟩
  · exact ⟨_,rfl,h.remove he,entryOf_remove h he⟩

theorem released_counts (hsound : e.Sound) {x : CookieEntry}
    (hx : released e = some x) : x.cookie = e.cookie ∧ x.application = e.application ∧
      x.referenceCount.toInt = e.referenceCount.toInt - 1 := by
  rw [released] at hx
  split at hx
  · rw [← Option.some.inj hx]
    exact ⟨rfl,rfl,toInt_decrement hsound.referenced⟩
  · exact absurd hx (by simp)

end CookieTable

end Trema.SwitchManager
