import Trema.Library.Bytes
import Trema.Library.Probe
import Trema.Messenger.Message
import Trema.Table.HashTable
import Trema.Table.Match

namespace Trema.SwitchManager

open Library
open Messenger (messengerServiceNameLength)
open Table

section Keys

def compareCookie (x y : UInt64) : Bool := x == y

def hashCookieEntry (key : UInt64) : UInt32 := hashCore (toHost64 key)

-- The part of an application entry that compare_application looks at.
structure ApplicationKey where
  cookie : UInt64
  serviceName : Bytes
deriving DecidableEq, Repr

def compareApplication (x y : ApplicationKey) : Bool :=
  if x.cookie ≠ y.cookie then false
  else if x.serviceName ≠ y.serviceName then false
  else true

def hashApplication (key : ApplicationKey) : UInt32 := hashCore (toHost64 key.cookie)

theorem compareCookie_iff (x y : UInt64) : compareCookie x y = true ↔ x = y := beq_iff_eq

theorem compareApplication_iff (x y : ApplicationKey) : compareApplication x y = true ↔ x = y := by
  obtain ⟨c,s⟩ := x
  obtain ⟨c',s'⟩ := y
  by_cases hc : c = c' <;> by_cases hs : s = s' <;> simp [compareApplication,hc,hs]

end Keys

abbrev EntryId := Nat

structure ApplicationEntry extends ApplicationKey where
  flags : UInt16
deriving DecidableEq, Repr

structure CookieEntry where
  cookie : UInt64
  application : ApplicationEntry
  referenceCount : Int32
  expireAt : Int
deriving DecidableEq

abbrev CookieEntry.key (e : CookieEntry) : ApplicationKey := e.application.toApplicationKey

-- Both tables hold pointers to the entries on the heap.
structure CookieTable where
  global : HashTable UInt64 EntryId
  application : HashTable ApplicationKey EntryId
  heap : EntryId → Option CookieEntry
  nextId : EntryId
  cookieDough : UInt64

def reservedCookie : UInt64 := 0

def invalidCookie : UInt64 := 18446744073709551615

def cookieEntryLifetime : Int := 86400 * 30

def bucketsSize : Nat := 131063

-- What strncpy leaves of a service name in a field that ends with a null character.
def copyServiceName (serviceName : Bytes) : Bytes := serviceName.take (messengerServiceNameLength - 1)

def initCookieTable : CookieTable :=
  ⟨createHashWithSize bucketsSize,createHashWithSize bucketsSize,fun _ => none,0,0⟩

namespace CookieTable

variable (t : CookieTable)

def lookupCookieEntryByCookie (cookie : UInt64) : Option EntryId :=
  lookupHashEntry compareCookie hashCookieEntry t.global cookie

def lookupKey (key : ApplicationKey) : Option EntryId :=
  lookupHashEntry compareApplication hashApplication t.application key

def lookupCookieEntryByApplication (cookie : UInt64) (serviceName : Bytes) : Option EntryId :=
  t.lookupKey ⟨cookie,copyServiceName serviceName⟩

def nextCookie (cookie : UInt64) : UInt64 := if cookie ≠ invalidCookie - 1 then cookie + 1 else 1

def cookieInUse (cookie : UInt64) : Bool := (t.lookupCookieEntryByCookie cookie).isSome

def searchCookie : Probe UInt64 :=
  probe nextCookie t.cookieInUse (nextCookie t.cookieDough) 18446744073709551616 (nextCookie t.cookieDough)

def generateCookie : UInt64 :=
  match t.searchCookie with
  | .found cookie => cookie
  | .exhausted => reservedCookie
  | .outOfFuel => reservedCookie

def writeEntry (id : EntryId) (e : Option CookieEntry) : CookieTable :=
  { t with heap := fun j => if j = id then e else t.heap j }

-- The entry leaves both tables and is freed.
def removeCookieEntry (id : EntryId) (e : CookieEntry) : CookieTable :=
  let global := (deleteHashEntry compareCookie hashCookieEntry t.global e.cookie).2
  let application := (deleteHashEntry compareApplication hashApplication t.application e.key).2
  { t with global := global, application := application }.writeEntry id none

-- `none` is an access to an entry that has been freed.
def deleteCookieEntry (id : EntryId) : Option CookieTable :=
  match t.heap id with
  | none => none
  | some e =>
    if e.referenceCount > 1 then
      some (t.writeEntry id (some { e with referenceCount := e.referenceCount - 1 }))
    else some (t.removeCookieEntry id e)

def deleteConflict (cookie : UInt64) : Option CookieTable :=
  match t.lookupCookieEntryByCookie cookie with
  | some conflict => t.deleteCookieEntry conflict
  | none => some t

def allocateCookieEntry (originalCookie : UInt64) (serviceName : Bytes) (flags : UInt16) (now : Int) :
    CookieTable :=
  let cookie := t.generateCookie
  let e : CookieEntry :=
    ⟨cookie,⟨⟨originalCookie,copyServiceName serviceName⟩,flags⟩,1,now + cookieEntryLifetime⟩
  { t.writeEntry t.nextId (some e) with nextId := t.nextId + 1, cookieDough := cookie }

def insertHashEntries (id : EntryId) (cookie : UInt64) (key : ApplicationKey) : CookieTable :=
  { t with
    global := (insertHashEntry compareCookie hashCookieEntry t.global cookie id).2
    application := (insertHashEntry compareApplication hashApplication t.application key id).2 }

def insertCookieEntry (originalCookie : UInt64) (serviceName : Bytes) (flags : UInt16) (now : Int) :
    Option (UInt64 × CookieTable) :=
  match t.lookupCookieEntryByApplication originalCookie serviceName with
  | some id =>
    match t.heap id with
    | none => none
    | some e =>
      let application := { e.application with flags := e.application.flags ||| flags }
      some (e.cookie,t.writeEntry id (some
        ⟨e.cookie,application,e.referenceCount + 1,now + cookieEntryLifetime⟩))
  | none =>
    let cookie := t.generateCookie
    match (t.allocateCookieEntry originalCookie serviceName flags now).deleteConflict cookie with
    | none => none
    | some t' =>
      some (cookie,t'.insertHashEntries t.nextId cookie ⟨originalCookie,copyServiceName serviceName⟩)

-- `now` is the time that is read when the entry with the key is visited.
def ageCookieEntry (now : ApplicationKey → Int) (id : EntryId) : Option CookieTable :=
  match t.heap id with
  | none => none
  | some e => if e.expireAt < now e.key then some (t.removeCookieEntry id e) else some t

def ageEach (now : ApplicationKey → Int) : CookieTable → List (UInt64 × EntryId) → Option CookieTable
  | t, [] => some t
  | t, (_,id) :: rest =>
    match t.ageCookieEntry now id with
    | none => none
    | some t => ageEach now t rest

def ageCookieTable (now : ApplicationKey → Int) : Option CookieTable := ageEach now t (foreachHash t.global)

end CookieTable

structure CookieEntry.Sound (e : CookieEntry) : Prop where
  referenced : 1 ≤ e.referenceCount.toInt
  notReserved : e.cookie ≠ reservedCookie
  notInvalid : e.cookie ≠ invalidCookie
  copied : copyServiceName e.application.serviceName = e.application.serviceName

namespace CookieTable

-- Each table finds exactly the entries on the heap, by the key that the entry has in it.
structure Linked (t : CookieTable) : Prop where
  validGlobal : t.global.Valid compareCookie hashCookieEntry fun _ => True
  validApplication : t.application.Valid compareApplication hashApplication fun _ => True
  global : ∀ cookie id, t.lookupCookieEntryByCookie cookie = some id ↔
    ∃ e, t.heap id = some e ∧ e.cookie = cookie
  application : ∀ key id, t.lookupKey key = some id ↔ ∃ e, t.heap id = some e ∧ e.key = key
  bound : ∀ id e, t.heap id = some e → id < t.nextId
  sound : ∀ id e, t.heap id = some e → e.Sound
  dough : t.cookieDough ≠ invalidCookie

theorem init_linked : initCookieTable.Linked := by
  refine ⟨createHashWithSize_valid _ _ _ _,createHashWithSize_valid _ _ _ _,?_,?_,?_,?_,by decide⟩
  · intro cookie id
    have hnone : initCookieTable.lookupCookieEntryByCookie cookie = none := rfl
    rw [hnone]
    simp [initCookieTable]
  · intro key id
    have hnone : initCookieTable.lookupKey key = none := rfl
    rw [hnone]
    simp [initCookieTable]
  · intro id e he
    simp [initCookieTable] at he
  · intro id e he
    simp [initCookieTable] at he

variable {t : CookieTable} {id : EntryId} {e : CookieEntry}

namespace Linked

theorem same_cookie (h : t.Linked) {a b : EntryId} {x y : CookieEntry} (hx : t.heap a = some x)
    (hy : t.heap b = some y) (heq : x.cookie = y.cookie) : a = b := by
  have ha := (h.global x.cookie a).mpr ⟨x,hx,rfl⟩
  have hb := (h.global x.cookie b).mpr ⟨y,hy,heq.symm⟩
  exact Option.some.inj (ha.symm.trans hb)

theorem same_key (h : t.Linked) {a b : EntryId} {x y : CookieEntry} (hx : t.heap a = some x)
    (hy : t.heap b = some y) (heq : x.key = y.key) : a = b := by
  have ha := (h.application x.key a).mpr ⟨x,hx,rfl⟩
  have hb := (h.application x.key b).mpr ⟨y,hy,heq.symm⟩
  exact Option.some.inj (ha.symm.trans hb)

end Linked

theorem heap_write (e' : Option CookieEntry) (j : EntryId) :
    (t.writeEntry id e').heap j = if j = id then e' else t.heap j := rfl

theorem heap_remove (j : EntryId) :
    (t.removeCookieEntry id e).heap j = if j = id then none else t.heap j := rfl

-- An entry that keeps its keys can be written to through its pointer.
theorem exists_write {α : Type} {f : CookieEntry → α} {e' : CookieEntry} (he : t.heap id = some e)
    (hf : f e' = f e) (a : α) (j : EntryId) :
    (∃ x, (t.writeEntry id (some e')).heap j = some x ∧ f x = a) ↔ ∃ x, t.heap j = some x ∧ f x = a := by
  rw [heap_write]
  split
  · rename_i hj
    subst hj
    rw [he]
    simp [hf]
  · rfl

theorem Linked.write (h : t.Linked) {e' : CookieEntry} (he : t.heap id = some e)
    (hcookie : e'.cookie = e.cookie) (hkey : e'.key = e.key) (hsound : e'.Sound) :
    (t.writeEntry id (some e')).Linked := by
  refine ⟨h.validGlobal,h.validApplication,?_,?_,?_,?_,h.dough⟩
  · intro cookie j
    rw [exists_write he hcookie]
    exact h.global cookie j
  · intro key j
    rw [exists_write he hkey]
    exact h.application key j
  · intro j x hx
    rw [heap_write] at hx
    split at hx
    · rename_i hj
      rw [hj]
      exact h.bound id e he
    · exact h.bound j x hx
  · intro j x hx
    rw [heap_write] at hx
    split at hx
    · rw [← Option.some.inj hx]
      exact hsound
    · exact h.sound j x hx

theorem exists_remove {α : Type} {f : CookieEntry → α} (he : t.heap id = some e)
    (hsame : ∀ j x, t.heap j = some x → f x = f e → j = id) (a : α) (j : EntryId) :
    (∃ x, (t.removeCookieEntry id e).heap j = some x ∧ f x = a) ↔
      a ≠ f e ∧ ∃ x, t.heap j = some x ∧ f x = a := by
  rw [heap_remove]
  split
  · rename_i hj
    subst hj
    rw [he]
    simp [eq_comm]
  · rename_i hj
    constructor
    · rintro ⟨x,hx,rfl⟩
      exact ⟨fun heq => hj (hsame j x hx heq),x,hx,rfl⟩
    · exact And.right

theorem cookie_remove (h : t.Linked) (cookie : UInt64) :
    (t.removeCookieEntry id e).lookupCookieEntryByCookie cookie =
      if cookie = e.cookie then none else t.lookupCookieEntryByCookie cookie :=
  lookup_delete_exact compareCookie_iff h.validGlobal e.cookie cookie

theorem key_remove (h : t.Linked) (key : ApplicationKey) :
    (t.removeCookieEntry id e).lookupKey key = if key = e.key then none else t.lookupKey key :=
  lookup_delete_exact compareApplication_iff h.validApplication e.key key

theorem Linked.remove (h : t.Linked) (he : t.heap id = some e) : (t.removeCookieEntry id e).Linked := by
  refine ⟨deleteHashEntry_valid h.validGlobal _,deleteHashEntry_valid h.validApplication _,?_,?_,?_,?_,h.dough⟩
  · intro cookie j
    rw [exists_remove he fun j x hx heq => h.same_cookie hx he heq]
    rw [cookie_remove h]
    split
    · rename_i heq
      simp [heq]
    · rename_i hne
      rw [and_iff_right hne]
      exact h.global cookie j
  · intro key j
    rw [exists_remove he fun j x hx heq => h.same_key hx he heq]
    rw [key_remove h]
    split
    · rename_i heq
      simp [heq]
    · rename_i hne
      rw [and_iff_right hne]
      exact h.application key j
  · intro j x hx
    rw [heap_remove] at hx
    split at hx
    · exact absurd hx (by simp)
    · exact h.bound j x hx
  · intro j x hx
    rw [heap_remove] at hx
    split at hx
    · exact absurd hx (by simp)
    · exact h.sound j x hx

-- The state once a new entry has been allocated and put into both tables.
def withEntry (t : CookieTable) (e : CookieEntry) : CookieTable :=
  { t.writeEntry t.nextId (some e) with nextId := t.nextId + 1, cookieDough := e.cookie }.insertHashEntries
    t.nextId e.cookie e.key

theorem heap_withEntry (j : EntryId) :
    (t.withEntry e).heap j = if j = t.nextId then some e else t.heap j := rfl

theorem exists_withEntry {α : Type} {f : CookieEntry → α} (hfresh : t.heap t.nextId = none) (a : α) (j : EntryId) :
    (∃ x, (t.withEntry e).heap j = some x ∧ f x = a) ↔
      j = t.nextId ∧ f e = a ∨ ∃ x, t.heap j = some x ∧ f x = a := by
  rw [heap_withEntry]
  split
  · rename_i hj
    subst hj
    rw [hfresh]
    simp
  · rename_i hj
    simp [hj]

theorem Linked.fresh (h : t.Linked) : t.heap t.nextId = none := by
  rw [Option.eq_none_iff_forall_ne_some]
  intro e he
  exact absurd (h.bound _ e he) (Nat.lt_irrefl _)

theorem Linked.add (h : t.Linked) (hcookie : t.lookupCookieEntryByCookie e.cookie = none)
    (hkey : t.lookupKey e.key = none) (hsound : e.Sound) : (t.withEntry e).Linked := by
  refine ⟨insertHashEntry_valid h.validGlobal _ trivial hcookie,
    insertHashEntry_valid h.validApplication _ trivial hkey,?_,?_,?_,?_,hsound.notInvalid⟩
  · intro cookie j
    have hlookup : (t.withEntry e).lookupCookieEntryByCookie cookie =
        if cookie = e.cookie then some t.nextId else t.lookupCookieEntryByCookie cookie :=
      lookup_insert_exact compareCookie_iff h.validGlobal e.cookie cookie t.nextId
    rw [hlookup,exists_withEntry h.fresh,← h.global]
    split
    · rename_i heq
      rw [heq,hcookie]
      simp [eq_comm]
    · rename_i hne
      exact (or_iff_right fun hnew => hne hnew.2.symm).symm
  · intro key j
    have hlookup : (t.withEntry e).lookupKey key = if key = e.key then some t.nextId else t.lookupKey key :=
      lookup_insert_exact compareApplication_iff h.validApplication e.key key t.nextId
    rw [hlookup,exists_withEntry h.fresh,← h.application]
    split
    · rename_i heq
      rw [heq,hkey]
      simp [eq_comm]
    · rename_i hne
      exact (or_iff_right fun hnew => hne hnew.2.symm).symm
  · intro j x hx
    rw [heap_withEntry] at hx
    split at hx
    · rename_i hj
      rw [hj]
      exact Nat.lt_succ_self _
    · exact Nat.lt_succ_of_lt (h.bound j x hx)
  · intro j x hx
    rw [heap_withEntry] at hx
    split at hx
    · rw [← Option.some.inj hx]
      exact hsound
    · exact h.sound j x hx

end CookieTable

end Trema.SwitchManager
