import Trema.Table.HashTable

namespace Trema.Messenger

open Table

variable {υ : Type}

structure MessengerContext (υ : Type) where
  transactionId : UInt32
  lifeCount : Int
  userData : υ
deriving DecidableEq, Repr

structure Contexts (υ : Type) where
  contextDb : HashTable UInt32 (MessengerContext υ)
  lastTransactionId : UInt32

def createContextDb : Contexts υ := ⟨createHashWithSize 128,0⟩

section Operations

variable (c : Contexts υ)

def getContext (transactionId : UInt32) : Option (MessengerContext υ) :=
  lookupUint32 c.contextDb transactionId

def deleteContext (context : MessengerContext υ) : Contexts υ :=
  { c with contextDb := (deleteUint32 c.contextDb context.transactionId).2 }

def insertContext (userData : υ) : MessengerContext υ × Contexts υ :=
  let context := ⟨c.lastTransactionId + 1,10,userData⟩
  let (old,db) := insertUint32 c.contextDb context.transactionId context
  let c := ⟨db,c.lastTransactionId + 1⟩
  match old with
  | none => (context,c)
  | some old => (context,deleteContext c old)

-- The context is changed through its pointer, and the entry of the table with it.
def writeContext (context : MessengerContext υ) : Contexts υ :=
  { c with contextDb := modifyUint32 c.contextDb context.transactionId fun _ => context }

def ageContext (e : UInt32 × MessengerContext υ) : Contexts υ :=
  let context := { e.2 with lifeCount := e.2.lifeCount - 1 }
  let c := writeContext c context
  if context.lifeCount ≤ 0 then deleteContext c context else c

def ageContextDb : Contexts υ := (foreachHash c.contextDb).foldl ageContext c

-- The contexts of several requests, with the transaction ids that go out.
def insertContexts : List υ → Contexts υ → List UInt32 × Contexts υ
  | [], c => ([],c)
  | u :: requests, c =>
    let first := insertContext c u
    let rest := insertContexts requests first.2
    (first.1.transactionId :: rest.1,rest.2)

-- The reply branch of call_message_callbacks: `requests` are the user data of the requests that the
-- replied callback sends before it returns.
def replyContext (transactionId : UInt32) (requests : List υ) : Option υ × List UInt32 × Contexts υ :=
  match getContext c transactionId with
  | none => (none,[],c)
  | some context =>
    let sent := insertContexts requests c
    (some context.userData,sent.1,deleteContext sent.2 context)

end Operations

structure Contexts.Valid (c : Contexts υ) : Prop where
  table : c.contextDb.ValidUint32
  keyed : ∀ id context, getContext c id = some context → context.transactionId = id

section Specs

variable {c : Contexts υ}

theorem createContextDb_valid : (createContextDb : Contexts υ).Valid :=
  ⟨createHashWithSize_valid _ _ _ _,by simp [createContextDb,getContext,lookupUint32,lookup_create]⟩

theorem getContext_delete (h : c.Valid) (context : MessengerContext υ) (id : UInt32) :
    getContext (deleteContext c context) id =
      if id = context.transactionId then none else getContext c id :=
  lookup_deleteUint32 h.table _ _

theorem deleteContext_valid (h : c.Valid) (context : MessengerContext υ) : (deleteContext c context).Valid := by
  refine ⟨deleteUint32_valid h.table _,?_⟩
  intro id found hfound
  rw [getContext_delete h] at hfound
  split at hfound
  · exact absurd hfound (by simp)
  · exact h.keyed id found hfound

theorem insertContext_fresh (hfresh : getContext c (c.lastTransactionId + 1) = none) (userData : υ) :
    insertContext c userData = (⟨c.lastTransactionId + 1,10,userData⟩,
      ⟨(insertUint32 c.contextDb (c.lastTransactionId + 1) ⟨c.lastTransactionId + 1,10,userData⟩).2,
        c.lastTransactionId + 1⟩) := by
  have hold : (insertUint32 c.contextDb (c.lastTransactionId + 1)
      ⟨c.lastTransactionId + 1,10,userData⟩).1 = none := hfresh
  simp only [insertContext]
  rw [hold]

theorem getContext_insert (h : c.Valid) (hfresh : getContext c (c.lastTransactionId + 1) = none)
    (userData : υ) (id : UInt32) :
    getContext (insertContext c userData).2 id =
      if id = c.lastTransactionId + 1 then some ⟨c.lastTransactionId + 1,10,userData⟩
      else getContext c id := by
  rw [insertContext_fresh hfresh]
  exact lookup_insertUint32 h.table _ _ _

theorem insertContext_valid (h : c.Valid) (hfresh : getContext c (c.lastTransactionId + 1) = none)
    (userData : υ) : (insertContext c userData).2.Valid := by
  refine ⟨?_,?_⟩
  · rw [insertContext_fresh hfresh]
    exact insertUint32_valid h.table _ _
  · intro id context hfound
    rw [getContext_insert h hfresh] at hfound
    split at hfound
    · rename_i hid
      rw [← Option.some.inj hfound,hid]
    · exact h.keyed id context hfound

-- The slip of the collision branch: the context that goes out is the new one.
theorem getContext_insert_collision (h : c.Valid) {old : MessengerContext υ}
    (hold : getContext c (c.lastTransactionId + 1) = some old) (userData : υ) :
    getContext (insertContext c userData).2 (c.lastTransactionId + 1) = none := by
  have hkey := h.keyed _ _ hold
  have hfirst : (insertUint32 c.contextDb (c.lastTransactionId + 1)
      ⟨c.lastTransactionId + 1,10,userData⟩).1 = some old := hold
  simp only [insertContext]
  rw [hfirst]
  refine (lookup_deleteUint32 (insertUint32_valid h.table _ _) _ _).trans ?_
  rw [if_pos hkey.symm]

def MessengerContext.aged (context : MessengerContext υ) : Option (MessengerContext υ) :=
  if context.lifeCount - 1 ≤ 0 then none else some { context with lifeCount := context.lifeCount - 1 }

theorem getContext_write (h : c.Valid) {context old : MessengerContext υ}
    (hold : getContext c context.transactionId = some old) (id : UInt32) :
    getContext (writeContext c context) id =
      if id = context.transactionId then some context else getContext c id := by
  refine (lookup_modifyUint32 h.table _ _ _).trans ?_
  split
  · rename_i hid
    rw [hid]
    change (getContext c context.transactionId).map _ = _
    rw [hold]
    rfl
  · rfl

theorem writeContext_valid (h : c.Valid) {context old : MessengerContext υ}
    (hold : getContext c context.transactionId = some old) : (writeContext c context).Valid := by
  refine ⟨modifyUint32_valid h.table context.transactionId fun _ => context,?_⟩
  intro id found hfound
  rw [getContext_write h hold] at hfound
  split at hfound
  · rename_i hid
    rw [← Option.some.inj hfound,hid]
  · exact h.keyed id found hfound

theorem ageContext_spec (h : c.Valid) {e : UInt32 × MessengerContext υ} (he : getContext c e.1 = some e.2) :
    (ageContext c e).Valid ∧ (ageContext c e).lastTransactionId = c.lastTransactionId ∧
      ∀ id, getContext (ageContext c e) id = if id = e.1 then e.2.aged else getContext c id := by
  obtain ⟨key,context⟩ := e
  obtain rfl : context.transactionId = key := h.keyed _ _ he
  let older : MessengerContext υ := ⟨context.transactionId,context.lifeCount - 1,context.userData⟩
  have hold : getContext c older.transactionId = some context := he
  have hvalid := writeContext_valid h hold
  have hget := getContext_write h hold
  have hage : ageContext c (context.transactionId,context) = if older.lifeCount ≤ 0 then
      deleteContext (writeContext c older) older else writeContext c older := rfl
  have haged : context.aged = if older.lifeCount ≤ 0 then none else some older := rfl
  rw [hage,haged]
  split
  · refine ⟨deleteContext_valid hvalid _,rfl,?_⟩
    intro id
    rw [getContext_delete hvalid,hget]
    split <;> rfl
  · exact ⟨hvalid,rfl,hget⟩

theorem age_fold (h : c.Valid) {l : List (UInt32 × MessengerContext υ)} (hl : (l.map Prod.fst).Nodup)
    (hlive : ∀ e ∈ l, getContext c e.1 = some e.2) :
    (l.foldl ageContext c).Valid ∧ (l.foldl ageContext c).lastTransactionId = c.lastTransactionId ∧
      ∀ id, getContext (l.foldl ageContext c) id =
        if id ∈ l.map Prod.fst then (getContext c id).bind MessengerContext.aged else getContext c id := by
  induction l generalizing c with
  | nil => exact ⟨h,rfl,fun id => by simp⟩
  | cons e l ih =>
    rw [List.map_cons,List.nodup_cons] at hl
    have he := hlive e (by simp)
    obtain ⟨hvalid,hlast,hget⟩ := ageContext_spec h he
    have hrest : ∀ e' ∈ l, getContext (ageContext c e) e'.1 = some e'.2 := by
      intro e' he'
      rw [hget,if_neg,hlive e' (by simp [he'])]
      intro hsame
      exact hl.1 (hsame ▸ List.mem_map_of_mem he')
    obtain ⟨hvalid',hlast',hget'⟩ := ih hvalid hl.2 hrest
    refine ⟨hvalid',hlast'.trans hlast,?_⟩
    intro id
    rw [List.foldl_cons,hget',hget]
    by_cases hid : id = e.1
    · subst hid
      rw [if_neg hl.1,if_pos rfl,if_pos (by simp),he]
      rfl
    · have hmem : id ∈ (e :: l).map Prod.fst ↔ id ∈ l.map Prod.fst := by
        rw [List.map_cons,List.mem_cons,or_iff_right hid]
      rw [if_neg hid]
      simp only [hmem]

theorem getContext_age (h : c.Valid) : (ageContextDb c).Valid ∧
    (ageContextDb c).lastTransactionId = c.lastTransactionId ∧
    ∀ id, getContext (ageContextDb c) id = (getContext c id).bind MessengerContext.aged := by
  obtain ⟨hvalid,hlast,hget⟩ := age_fold h (keys_nodup h.table) fun e he => lookup_of_mem h.table he
  refine ⟨hvalid,hlast,?_⟩
  intro id
  rw [ageContextDb,hget]
  split
  · rfl
  · rename_i hid
    cases hc : getContext c id with
    | none => rfl
    | some context => exact absurd (List.mem_map_of_mem (mem_of_lookup h.table hc)) hid

end Specs

end Trema.Messenger
