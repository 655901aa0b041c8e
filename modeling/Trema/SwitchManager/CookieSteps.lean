import Trema.SwitchManager.CookieTable

namespace Trema.SwitchManager

open Library
open Table

namespace CookieTable

variable {t : CookieTable} {id : EntryId} {e : CookieEntry}

section Generation

-- The cookies that are generated, 1 to UINT64_MAX - 1, follow each other in a circle.
theorem toNat_nextCookie {cookie : UInt64} (h : cookie.toNat < 18446744073709551615) :
    (nextCookie cookie).toNat = cookie.toNat % 18446744073709551614 + 1 := by
  have hlast : (invalidCookie - 1).toNat = 18446744073709551614 := by decide
  rw [nextCookie]
  split
  · rename_i hne
    have hne' : cookie.toNat ≠ 18446744073709551614 := by
      intro heq
      exact hne (UInt64.toNat_inj.mp (heq.trans hlast.symm))
    rw [UInt64.toNat_add]
    have hone : (1 : UInt64).toNat = 1 := rfl
    omega
  · rename_i heq
    rw [not_not] at heq
    rw [heq,hlast]
    rfl

theorem toNat_iterate_nextCookie {cookie : UInt64} (hpos : 1 ≤ cookie.toNat)
    (hle : cookie.toNat ≤ 18446744073709551614) (k : Nat) :
    (nextCookie^[k] cookie).toNat = (cookie.toNat - 1 + k) % 18446744073709551614 + 1 := by
  induction k with
  | zero =>
    rw [Function.iterate_zero_apply]
    omega
  | succ k ih =>
    rw [Function.iterate_succ_apply',toNat_nextCookie (by rw [ih]; omega),ih]
    omega

theorem generateCookie_fresh (h : t.Linked) (hroom : (foreachHash t.global).length < 18446744073709551614) :
    t.lookupCookieEntryByCookie t.generateCookie = none ∧ t.generateCookie ≠ reservedCookie ∧
      t.generateCookie ≠ invalidCookie := by
  have hdough : t.cookieDough.toNat < 18446744073709551615 := by
    refine Nat.lt_of_le_of_ne (Nat.le_of_lt_succ t.cookieDough.toNat_lt) fun heq => h.dough ?_
    exact UInt64.toNat_inj.mp heq
  have hfirst := toNat_nextCookie hdough
  have hpos : 1 ≤ (nextCookie t.cookieDough).toNat := by omega
  have hle : (nextCookie t.cookieDough).toNat ≤ 18446744073709551614 := by omega
  have hused : ∀ cookie, t.cookieInUse cookie = true → cookie ∈ (foreachHash t.global).map Prod.fst := by
    intro cookie hlive
    obtain ⟨j,hj⟩ := Option.isSome_iff_exists.mp hlive
    exact List.mem_map.mpr ⟨(cookie,j),mem_of_lookup_exact compareCookie_iff h.validGlobal hj,rfl⟩
  have hdistinct : ∀ i j, i < j → j ≤ ((foreachHash t.global).map Prod.fst).length →
      nextCookie^[i] (nextCookie t.cookieDough) ≠ nextCookie^[j] (nextCookie t.cookieDough) := by
    intro i j hij hj heq
    have hnat := congrArg UInt64.toNat heq
    rw [toNat_iterate_nextCookie hpos hle,toNat_iterate_nextCookie hpos hle] at hnat
    rw [List.length_map] at hj
    omega
  obtain ⟨k,_,hfound,hfree⟩ := probe_free hused hdistinct (n := 18446744073709551616) (by
    rw [List.length_map]
    omega)
  have hvalue := toNat_iterate_nextCookie hpos hle k
  rw [generateCookie,searchCookie,hfound]
  generalize nextCookie^[k] (nextCookie t.cookieDough) = cookie at hfree hvalue
  refine ⟨?_,?_,?_⟩
  · rwa [cookieInUse,Option.isSome_eq_false_iff,Option.isNone_iff_eq_none] at hfree
  · rintro rfl
    rw [reservedCookie] at hvalue
    exact absurd hvalue (Nat.succ_ne_zero _).symm
  · rintro rfl
    have hmax : invalidCookie.toNat = 18446744073709551615 := by decide
    omega

end Generation

section Entries

variable (t) in
def entryOf (key : ApplicationKey) : Option CookieEntry := (t.lookupKey key).bind t.heap

theorem entryOf_iff (h : t.Linked) {key : ApplicationKey} :
    t.entryOf key = some e ↔ ∃ j, t.heap j = some e ∧ e.key = key := by
  rw [entryOf,Option.bind_eq_some_iff]
  constructor
  · rintro ⟨j,hj,he⟩
    obtain ⟨x,hx,hkey⟩ := (h.application key j).mp hj
    rw [he] at hx
    rw [← Option.some.inj hx] at hkey
    exact ⟨j,he,hkey⟩
  · rintro ⟨j,he,hkey⟩
    exact ⟨j,(h.application key j).mpr ⟨e,he,hkey⟩,he⟩

theorem entryOf_self (h : t.Linked) (he : t.heap id = some e) : t.entryOf e.key = some e :=
  (entryOf_iff h).mpr ⟨id,he,rfl⟩

theorem lookupKey_none {key : ApplicationKey} (hnone : t.lookupKey key = none) :
    t.entryOf key = none := by
  rw [entryOf,hnone]
  rfl

-- One entry is replaced, or put in, or taken away; the others are as before.
theorem entryOf_update (h : t.Linked) {t' : CookieTable} (h' : t'.Linked) {key : ApplicationKey}
    {e' : Option CookieEntry} (hself : ∀ x ∈ e', x.key = key)
    (hheap : ∀ x, (∃ j, t'.heap j = some x) ↔ e' = some x ∨ x.key ≠ key ∧ ∃ j, t.heap j = some x)
    (key' : ApplicationKey) : t'.entryOf key' = if key' = key then e' else t.entryOf key' := by
  refine Option.ext fun x => ?_
  have hexists : (∃ j, t'.heap j = some x ∧ x.key = key') ↔ (∃ j, t'.heap j = some x) ∧ x.key = key' := by
    simp
  rw [entryOf_iff h',hexists,hheap]
  split
  · rename_i heq
    subst heq
    constructor
    · rintro ⟨hnew | ⟨hne,_⟩,hkey⟩
      · exact hnew
      · exact absurd hkey hne
    · intro hnew
      exact ⟨.inl hnew,hself x hnew⟩
  · rename_i hne
    rw [entryOf_iff h]
    constructor
    · rintro ⟨hnew | ⟨_,j,hj⟩,hkey⟩
      · exact absurd (hkey.symm.trans (hself x hnew)) hne
      · exact ⟨j,hj,hkey⟩
    · rintro ⟨j,hj,rfl⟩
      exact ⟨.inr ⟨hne,j,hj⟩,rfl⟩

theorem entryOf_write (h : t.Linked) (e' : CookieEntry) (he : t.heap id = some e)
    (hcookie : e'.cookie = e.cookie) (hkey : e'.key = e.key) (hsound : e'.Sound) (key' : ApplicationKey) :
    (t.writeEntry id (some e')).entryOf key' = if key' = e.key then some e' else t.entryOf key' := by
  refine entryOf_update h (h.write he hcookie hkey hsound) (by simpa using hkey) (fun x => ?_) key'
  constructor
  · rintro ⟨j,hj⟩
    rw [heap_write] at hj
    split at hj
    · exact .inl hj
    · rename_i hne
      exact .inr ⟨fun heq => hne (h.same_key hj he heq),j,hj⟩
  · rintro (hnew | ⟨hne,j,hj⟩)
    · exact ⟨id,by rw [heap_write,if_pos rfl,hnew]⟩
    · refine ⟨j,?_⟩
      rw [heap_write,if_neg]
      · exact hj
      · rintro rfl
        rw [he] at hj
        exact hne (by rw [← Option.some.inj hj])

theorem entryOf_remove (h : t.Linked) (he : t.heap id = some e) (key' : ApplicationKey) :
    (t.removeCookieEntry id e).entryOf key' = if key' = e.key then none else t.entryOf key' := by
  refine entryOf_update h (h.remove he) (by simp) (fun x => ?_) key'
  constructor
  · rintro ⟨j,hj⟩
    rw [heap_remove] at hj
    split at hj
    · exact absurd hj (by simp)
    · rename_i hne
      exact .inr ⟨fun heq => hne (h.same_key hj he heq),j,hj⟩
  · rintro (hnew | ⟨hne,j,hj⟩)
    · exact absurd hnew (by simp)
    · refine ⟨j,?_⟩
      rw [heap_remove,if_neg]
      · exact hj
      · rintro rfl
        rw [he] at hj
        exact hne (by rw [← Option.some.inj hj])

theorem entryOf_add (h : t.Linked) (hcookie : t.lookupCookieEntryByCookie e.cookie = none)
    (hkey : t.lookupKey e.key = none) (hsound : e.Sound) (key' : ApplicationKey) :
    (t.withEntry e).entryOf key' = if key' = e.key then some e else t.entryOf key' := by
  refine entryOf_update h (h.add hcookie hkey hsound) (by simp) (fun x => ?_) key'
  constructor
  · rintro ⟨j,hj⟩
    rw [heap_withEntry] at hj
    split at hj
    · exact .inl hj
    · refine .inr ⟨fun heq => ?_,j,hj⟩
      rw [← heq,(h.application x.key j).mpr ⟨x,hj,rfl⟩] at hkey
      exact absurd hkey (by simp)
  · rintro (hnew | ⟨_,j,hj⟩)
    · exact ⟨t.nextId,by rw [heap_withEntry,if_pos rfl,hnew]⟩
    · refine ⟨j,?_⟩
      rw [heap_withEntry,if_neg]
      · exact hj
      · exact Nat.ne_of_lt (h.bound j x hj)

end Entries

end CookieTable

-- What a run does to the entry with a key: how many insertions are outstanding, and when it expires.
inductive CookieAct where
  | insert (key : ApplicationKey) (now : Int)
  | delete (key : ApplicationKey)
  | age (now : ApplicationKey → Int)

def CookieAct.settle (key : ApplicationKey) (balance : Option (Int × Int)) : CookieAct → Option (Int × Int)
  | .insert key' now =>
    if key = key' then some ((balance.elim 0 Prod.fst) + 1,now + cookieEntryLifetime) else balance
  | .delete key' =>
    if key = key' then balance.bind fun b => if b.1 > 1 then some (b.1 - 1,b.2) else none else balance
  | .age now => balance.bind fun b => if b.2 < now key then none else some b

namespace CookieTable

variable {t : CookieTable} {id : EntryId} {e : CookieEntry}

section Operations

variable (t) in
def balance (key : ApplicationKey) : Option (Int × Int) :=
  (t.entryOf key).map fun e => (e.referenceCount.toInt,e.expireAt)

theorem copyServiceName_copy (serviceName : Bytes) :
    copyServiceName (copyServiceName serviceName) = copyServiceName serviceName := by
  rw [copyServiceName,copyServiceName,List.take_take,Nat.min_self]

theorem toInt_increment {n : Int32} (hpos : 1 ≤ n.toInt) (hlt : n.toInt < 2147483647) :
    (n + 1).toInt = n.toInt + 1 := by
  rw [Int32.toInt_add,Int32.toInt_one,Int.bmod_eq_of_le (by omega) (by omega)]

theorem toInt_decrement {n : Int32} (hpos : 1 ≤ n.toInt) : (n - 1).toInt = n.toInt - 1 := by
  have hlt := n.toInt_lt
  rw [Int32.toInt_sub,Int32.toInt_one,Int.bmod_eq_of_le (by omega) (by omega)]

theorem insert_old (h : t.Linked) {originalCookie : UInt64} {serviceName : Bytes} (flags : UInt16) (now : Int)
    (hfound : t.lookupCookieEntryByApplication originalCookie serviceName = some id)
    (he : t.heap id = some e) (hcount : e.referenceCount.toInt < 2147483647) :
    ∃ t', t.insertCookieEntry originalCookie serviceName flags now = some (e.cookie,t') ∧ t'.Linked ∧
      ∀ key, t'.balance key =
        CookieAct.settle key (t.balance key) (.insert ⟨originalCookie,copyServiceName serviceName⟩ now) := by
  obtain ⟨x,hx,hkey⟩ := (h.application _ id).mp hfound
  rw [he] at hx
  rw [← Option.some.inj hx] at hkey
  have hsound := h.sound id e he
  let e' : CookieEntry := ⟨e.cookie,{ e.application with flags := e.application.flags ||| flags },
    e.referenceCount + 1,now + cookieEntryLifetime⟩
  have hsum : (e.referenceCount + 1).toInt = e.referenceCount.toInt + 1 :=
    toInt_increment hsound.referenced hcount
  have hsound' : e'.Sound := by
    refine ⟨?_,hsound.notReserved,hsound.notInvalid,hsound.copied⟩
    rw [hsum]
    exact Int.le_trans hsound.referenced (by omega)
  have hinsert : t.insertCookieEntry originalCookie serviceName flags now =
      some (e.cookie,t.writeEntry id (some e')) := by
    simp only [insertCookieEntry,hfound,he]
    rfl
  refine ⟨_,hinsert,h.write he rfl rfl hsound',?_⟩
  intro key
  have hentry : (t.writeEntry id (some e')).entryOf key = if key = e.key then some e' else t.entryOf key :=
    entryOf_write h e' he rfl rfl hsound' key
  rw [balance,hentry,CookieAct.settle,← hkey]
  split
  · rename_i heq
    rw [heq,balance,entryOf_self h he]
    simp [e',hsum]
  · rfl

theorem insert_new (h : t.Linked) {originalCookie : UInt64} {serviceName : Bytes} (flags : UInt16) (now : Int)
    (hnew : t.lookupCookieEntryByApplication originalCookie serviceName = none)
    (hroom : (foreachHash t.global).length < 18446744073709551614) :
    ∃ t', t.insertCookieEntry originalCookie serviceName flags now = some (t.generateCookie,t') ∧ t'.Linked ∧
      ∀ key, t'.balance key =
        CookieAct.settle key (t.balance key) (.insert ⟨originalCookie,copyServiceName serviceName⟩ now) := by
  obtain ⟨hfree,hreserved,hinvalid⟩ := generateCookie_fresh h hroom
  let e : CookieEntry := ⟨t.generateCookie,⟨⟨originalCookie,copyServiceName serviceName⟩,flags⟩,1,
    now + cookieEntryLifetime⟩
  have hone : 1 ≤ (1 : Int32).toInt := by decide
  have hsound : e.Sound := ⟨hone,hreserved,hinvalid,copyServiceName_copy serviceName⟩
  have hkey : t.lookupKey e.key = none := hnew
  have hinsert : t.insertCookieEntry originalCookie serviceName flags now =
      some (t.generateCookie,t.withEntry e) := by
    have hconflict : (t.allocateCookieEntry originalCookie serviceName flags now).lookupCookieEntryByCookie
        t.generateCookie = none := hfree
    simp only [insertCookieEntry,hnew,deleteConflict,hconflict]
    rfl
  refine ⟨_,hinsert,h.add hfree hkey hsound,?_⟩
  intro key
  rw [balance,entryOf_add h hfree hkey hsound,CookieAct.settle]
  split
  · rename_i heq
    have hnone : t.entryOf key = none := by
      rw [heq]
      exact lookupKey_none hnew
    rw [balance,hnone]
    rfl
  · rfl

theorem delete_spec (h : t.Linked) (he : t.heap id = some e) :
    ∃ t', t.deleteCookieEntry id = some t' ∧ t'.Linked ∧
      ∀ key, t'.balance key = CookieAct.settle key (t.balance key) (.delete e.key) := by
  have hsound := h.sound id e he
  have hgt : e.referenceCount > 1 ↔ e.referenceCount.toInt > 1 := Int32.lt_iff_toInt_lt
  rw [deleteCookieEntry,he]
  simp only
  split
  · rename_i hmore
    let e' : CookieEntry := { e with referenceCount := e.referenceCount - 1 }
    have hdiff : (e.referenceCount - 1).toInt = e.referenceCount.toInt - 1 := toInt_decrement hsound.referenced
    have hsound' : e'.Sound := by
      refine ⟨?_,hsound.notReserved,hsound.notInvalid,hsound.copied⟩
      have hint := hgt.mp hmore
      rw [hdiff]
      omega
    refine ⟨_,rfl,h.write he rfl rfl hsound',?_⟩
    intro key
    have hentry : (t.writeEntry id (some e')).entryOf key = if key = e.key then some e' else t.entryOf key :=
      entryOf_write h e' he rfl rfl hsound' key
    rw [balance,hentry,CookieAct.settle]
    split
    · rename_i heq
      rw [heq,balance,entryOf_self h he]
      simp [e',hdiff,hgt.mp hmore]
    · rfl
  · rename_i hlast
    refine ⟨_,rfl,h.remove he,?_⟩
    intro key
    rw [balance,entryOf_remove h he,CookieAct.settle]
    split
    · rename_i heq
      rw [heq,balance,entryOf_self h he]
      simp [hgt.not.mp hlast]
    · rfl

def remaining (now : ApplicationKey → Int) (e : CookieEntry) : Option CookieEntry :=
  if e.expireAt < now e.key then none else some e

theorem ageCookieEntry_spec (h : t.Linked) (now : ApplicationKey → Int) (he : t.heap id = some e) :
    ∃ t', t.ageCookieEntry now id = some t' ∧ t'.Linked ∧
      ∀ j, t'.heap j = if j = id then remaining now e else t.heap j := by
  rw [ageCookieEntry,he,remaining]
  simp only
  split
  · exact ⟨_,rfl,h.remove he,heap_remove⟩
  · refine ⟨_,rfl,h,?_⟩
    intro j
    split
    · rename_i hj
      rw [hj,he]
    · rfl

-- The sweep visits the entries in the list, each of them once.
theorem ageEach_spec (now : ApplicationKey → Int) {l : List (UInt64 × EntryId)} (h : t.Linked)
    (hnodup : (l.map Prod.snd).Nodup) (hlive : ∀ j ∈ l.map Prod.snd, ∃ e, t.heap j = some e) :
    ∃ t', ageEach now t l = some t' ∧ t'.Linked ∧ ∀ j, t'.heap j =
      if j ∈ l.map Prod.snd then (t.heap j).bind (remaining now) else t.heap j := by
  induction l generalizing t with
  | nil => exact ⟨t,rfl,h,by simp⟩
  | cons p l ih =>
    obtain ⟨cookie,id⟩ := p
    rw [List.map_cons,List.nodup_cons] at hnodup
    obtain ⟨e,he⟩ := hlive id (by simp)
    obtain ⟨t₁,hstep,hlinked,hheap⟩ := ageCookieEntry_spec h now he
    have hrest : ∀ j ∈ l.map Prod.snd, ∃ e, t₁.heap j = some e := by
      intro j hj
      rw [hheap,if_neg]
      · exact hlive j (by simp [hj])
      · rintro rfl
        exact hnodup.1 hj
    obtain ⟨t',hrun,hlinked',hheap'⟩ := ih hlinked hnodup.2 hrest
    refine ⟨t',by rw [ageEach,hstep]; exact hrun,hlinked',?_⟩
    intro j
    rw [hheap',hheap]
    by_cases hj : j = id
    · subst hj
      rw [if_neg hnodup.1,if_pos rfl,if_pos (by simp),he]
      rfl
    · have hmem : j ∈ ((cookie,id) :: l).map Prod.snd ↔ j ∈ l.map Prod.snd := by
        rw [List.map_cons,List.mem_cons,or_iff_right hj]
      rw [if_neg hj]
      simp only [hmem]

theorem age_spec (h : t.Linked) (now : ApplicationKey → Int) :
    ∃ t', t.ageCookieTable now = some t' ∧ t'.Linked ∧
      ∀ key, t'.balance key = CookieAct.settle key (t.balance key) (.age now) := by
  have hlive : ∀ p ∈ foreachHash t.global, ∃ e, t.heap p.2 = some e ∧ e.cookie = p.1 := by
    intro p hp
    exact (h.global p.1 p.2).mp (lookup_of_mem_exact compareCookie_iff h.validGlobal hp)
  have hnodup : ((foreachHash t.global).map Prod.snd).Nodup := by
    have hkeys := List.pairwise_map.mp (keys_nodup_exact compareCookie_iff h.validGlobal)
    refine List.pairwise_map.mpr (hkeys.imp_of_mem fun ha hb hne hid => hne ?_)
    obtain ⟨x,hx,hcx⟩ := hlive _ ha
    obtain ⟨y,hy,hcy⟩ := hlive _ hb
    rw [hid,hy] at hx
    rw [← hcx,← hcy,Option.some.inj hx]
  have hids : ∀ j ∈ (foreachHash t.global).map Prod.snd, ∃ e, t.heap j = some e := by
    intro j hj
    obtain ⟨p,hp,rfl⟩ := List.mem_map.mp hj
    obtain ⟨e,he,_⟩ := hlive p hp
    exact ⟨e,he⟩
  obtain ⟨t',hrun,hlinked,hheap⟩ := ageEach_spec now h hnodup hids
  have hall : ∀ j, t'.heap j = (t.heap j).bind (remaining now) := by
    intro j
    rw [hheap]
    split
    · rfl
    · rename_i hj
      cases he : t.heap j with
      | none => rfl
      | some e =>
        have hmem := mem_of_lookup_exact compareCookie_iff h.validGlobal ((h.global e.cookie j).mpr ⟨e,he,rfl⟩)
        exact absurd (List.mem_map_of_mem hmem) hj
  have hsame : ∀ x y, remaining now x = some y → x = y ∧ ¬ x.expireAt < now x.key := by
    intro x y hxy
    rw [remaining] at hxy
    split at hxy
    · exact absurd hxy (by simp)
    · rename_i hyoung
      exact ⟨Option.some.inj hxy,hyoung⟩
  have hentry : ∀ key, t'.entryOf key = (t.entryOf key).bind (remaining now) := by
    intro key
    refine Option.ext fun x => ?_
    rw [entryOf_iff hlinked,Option.bind_eq_some_iff]
    constructor
    · rintro ⟨j,hj,hkey⟩
      rw [hall,Option.bind_eq_some_iff] at hj
      obtain ⟨y,hy,hyx⟩ := hj
      obtain ⟨rfl,_⟩ := hsame y x hyx
      exact ⟨y,(entryOf_iff h).mpr ⟨j,hy,hkey⟩,hyx⟩
    · rintro ⟨y,hy,hyx⟩
      obtain ⟨rfl,_⟩ := hsame y x hyx
      obtain ⟨j,hj,hkey⟩ := (entryOf_iff h).mp hy
      exact ⟨j,by rw [hall,hj]; exact hyx,hkey⟩
  refine ⟨t',hrun,hlinked,?_⟩
  intro key
  rw [balance,hentry,CookieAct.settle,balance]
  cases he : t.entryOf key with
  | none => rfl
  | some e =>
    obtain ⟨j,hj,rfl⟩ := (entryOf_iff h).mp he
    simp only [Option.bind_some,Option.map_some,remaining]
    split <;> rfl

end Operations

end CookieTable

end Trema.SwitchManager
