import Trema.Messenger.Context
import Mathlib.Logic.Function.Basic

namespace Trema.Messenger

open Table

variable {υ : Type}

-- A request is one of those outstanding at the start, or the nth that was sent since.
inductive Request where
  | outstanding (transactionId : UInt32)
  | sent (number : Nat)
deriving DecidableEq, Repr

structure Ticket (υ : Type) where
  request : Request
  life : Int
  userData : υ

-- What the context table is for: the requests that wait for an answer, under their transaction ids.
structure Ledger (υ : Type) where
  live : UInt32 → Option (Ticket υ)
  last : UInt32
  sent : List (UInt32 × υ)
  answered : List (Request × υ)

def Ticket.aged (t : Ticket υ) : Option (Ticket υ) :=
  if t.life - 1 ≤ 0 then none else some { t with life := t.life - 1 }

def Ticket.context (t : Ticket υ) (transactionId : UInt32) : MessengerContext υ :=
  ⟨transactionId,t.life,t.userData⟩

namespace Ledger

def request (l : Ledger υ) (userData : υ) : Ledger υ :=
  ⟨Function.update l.live (l.last + 1) (some ⟨.sent l.sent.length,10,userData⟩),l.last + 1,
    l.sent ++ [(l.last + 1,userData)],l.answered⟩

def answer (l : Ledger υ) (transactionId : UInt32) (t : Ticket υ) : Ledger υ :=
  ⟨Function.update l.live transactionId none,l.last,l.sent,l.answered ++ [(t.request,t.userData)]⟩

def reply (l : Ledger υ) (transactionId : UInt32) (requests : List υ) : Ledger υ :=
  match l.live transactionId with
  | none => l
  | some t => requests.foldl request (l.answer transactionId t)

def age (l : Ledger υ) : Ledger υ := { l with live := fun id => (l.live id).bind Ticket.aged }

end Ledger

inductive ContextEvent (υ : Type) where
  | request (userData : υ)
  | reply (transactionId : UInt32) (requests : List υ)
  | age

-- `wire` are the transaction ids that went out, `replied` the user data the callback was called with.
structure ContextRun (υ : Type) where
  contexts : Contexts υ
  wire : List UInt32
  replied : List υ

def contextStep (r : ContextRun υ) : ContextEvent υ → ContextRun υ
  | .request u =>
    let sent := insertContext r.contexts u
    ⟨sent.2,r.wire ++ [sent.1.transactionId],r.replied⟩
  | .reply id requests =>
    let answered := replyContext r.contexts id requests
    ⟨answered.2.2,r.wire ++ answered.2.1,r.replied ++ answered.1.toList⟩
  | .age => ⟨ageContextDb r.contexts,r.wire,r.replied⟩

def ledgerStep (l : Ledger υ) : ContextEvent υ → Ledger υ
  | .request u => l.request u
  | .reply id requests => l.reply id requests
  | .age => l.age

def contextRun (r : ContextRun υ) (events : List (ContextEvent υ)) : ContextRun υ :=
  events.foldl contextStep r

def ledgerRun (l : Ledger υ) (events : List (ContextEvent υ)) : Ledger υ := events.foldl ledgerStep l

def openRun (c : Contexts υ) : ContextRun υ := ⟨c,[],[]⟩

def openLedger (c : Contexts υ) : Ledger υ :=
  ⟨fun id => (getContext c id).map fun context => ⟨.outstanding id,context.lifeCount,context.userData⟩,
    c.lastTransactionId,[],[]⟩

section Fresh

-- No context with the next transaction id is in the table.
def Fresh (c : Contexts υ) : Prop := getContext c (c.lastTransactionId + 1) = none

instance (c : Contexts υ) : Decidable (Fresh c) :=
  inferInstanceAs (Decidable (getContext c (c.lastTransactionId + 1) = none))

def FreshRequests : List υ → Contexts υ → Prop
  | [], _ => True
  | u :: requests, c => Fresh c ∧ FreshRequests requests (insertContext c u).2

def FreshEvent (c : Contexts υ) : ContextEvent υ → Prop
  | .request _ => Fresh c
  | .reply id requests => (getContext c id).isSome → FreshRequests requests c
  | .age => True

def FreshRun : ContextRun υ → List (ContextEvent υ) → Prop
  | _, [] => True
  | r, event :: events => FreshEvent r.contexts event ∧ FreshRun (contextStep r event) events

end Fresh

section Simulation

-- `busy` is the context whose callback runs: it is still in the table, and no longer in the ledger.
structure Tracks (busy : Option (MessengerContext υ)) (c : Contexts υ) (l : Ledger υ) : Prop where
  valid : c.Valid
  last : c.lastTransactionId = l.last
  live : ∀ id, (∀ b, busy = some b → id ≠ b.transactionId) →
    getContext c id = (l.live id).map fun t => t.context id
  busy : ∀ b, busy = some b → getContext c b.transactionId = some b ∧ l.live b.transactionId = none

variable {busy : Option (MessengerContext υ)} {c : Contexts υ} {l : Ledger υ}

theorem Tracks.request (h : Tracks busy c l) (hfresh : Fresh c) (u : υ) :
    Tracks busy (insertContext c u).2 (l.request u) ∧ (insertContext c u).1.transactionId = l.last + 1 := by
  have hget := getContext_insert h.valid hfresh u
  have hother : ∀ b, busy = some b → b.transactionId ≠ c.lastTransactionId + 1 := by
    intro b hb hsame
    have hfound := (h.busy b hb).1
    rw [hsame] at hfound
    rw [Fresh,hfound] at hfresh
    exact absurd hfresh (by simp)
  refine ⟨⟨insertContext_valid h.valid hfresh u,?_,?_,?_⟩,?_⟩
  · rw [insertContext_fresh hfresh,h.last]
    rfl
  · intro id hid
    rw [hget,h.last,Ledger.request]
    simp only [Function.update_apply]
    split
    · rename_i hnew
      rw [hnew]
      rfl
    · exact h.live id hid
  · intro b hb
    refine ⟨?_,?_⟩
    · rw [hget,if_neg (hother b hb)]
      exact (h.busy b hb).1
    · have hne := hother b hb
      rw [h.last] at hne
      rw [Ledger.request]
      simp only [Function.update_apply,if_neg hne]
      exact (h.busy b hb).2
  · rw [insertContext_fresh hfresh,h.last]

theorem Tracks.requests (requests : List υ) (h : Tracks busy c l) (hfresh : FreshRequests requests c) :
    Tracks busy (insertContexts requests c).2 (requests.foldl Ledger.request l) ∧
      (requests.foldl Ledger.request l).sent.map Prod.fst =
        l.sent.map Prod.fst ++ (insertContexts requests c).1 ∧
      (requests.foldl Ledger.request l).answered = l.answered := by
  induction requests generalizing c l with
  | nil => exact ⟨h,by simp [insertContexts],rfl⟩
  | cons u requests ih =>
    obtain ⟨hnext,hid⟩ := h.request hfresh.1 u
    obtain ⟨htracks,hsent,hanswered⟩ := ih hnext hfresh.2
    refine ⟨htracks,?_,hanswered⟩
    rw [List.foldl_cons,hsent,Ledger.request]
    simp [insertContexts,hid]

theorem Tracks.answer (h : Tracks none c l) {context : MessengerContext υ} {t : Ticket υ}
    (hcontext : getContext c context.transactionId = some context) :
    Tracks (some context) c (l.answer context.transactionId t) := by
  refine ⟨h.valid,h.last,?_,?_⟩
  · intro id hid
    have hne := hid context rfl
    rw [h.live id (by simp),Ledger.answer]
    simp only [Function.update_apply,if_neg hne]
  · intro b hb
    rw [← Option.some.inj hb,Ledger.answer]
    exact ⟨hcontext,Function.update_self _ _ _⟩

theorem Tracks.delete {context : MessengerContext υ} (h : Tracks (some context) c l) :
    Tracks none (deleteContext c context) l := by
  have hget := getContext_delete h.valid context
  refine ⟨deleteContext_valid h.valid context,h.last,?_,by simp⟩
  intro id _
  rw [hget]
  split
  · rename_i hid
    rw [hid,(h.busy context rfl).2]
    rfl
  · rename_i hid
    refine h.live id ?_
    intro b hb
    rw [← Option.some.inj hb]
    exact hid

theorem Tracks.age (h : Tracks none c l) : Tracks none (ageContextDb c) l.age := by
  obtain ⟨hvalid,hlast,hget⟩ := getContext_age h.valid
  refine ⟨hvalid,hlast.trans h.last,?_,by simp⟩
  intro id _
  rw [hget,h.live id (by simp)]
  simp only [Ledger.age]
  cases l.live id with
  | none => rfl
  | some t =>
    simp only [Option.map_some,Option.bind_some,MessengerContext.aged,Ticket.aged,Ticket.context]
    split <;> rfl

-- The run and the ledger agree.
structure Follows (r : ContextRun υ) (l : Ledger υ) : Prop where
  tracks : Tracks none r.contexts l
  wire : r.wire = l.sent.map Prod.fst
  replied : r.replied = l.answered.map Prod.snd

theorem Follows.step {r : ContextRun υ} (h : Follows r l) (event : ContextEvent υ)
    (hfresh : FreshEvent r.contexts event) : Follows (contextStep r event) (ledgerStep l event) := by
  cases event with
  | request u =>
    obtain ⟨htracks,hid⟩ := h.tracks.request hfresh u
    refine ⟨htracks,?_,h.replied⟩
    simp [contextStep,ledgerStep,hid,h.wire,Ledger.request]
  | reply id requests =>
    have hlive := h.tracks.live id (by simp)
    rw [contextStep,ledgerStep,replyContext,Ledger.reply]
    cases ht : l.live id with
    | none =>
      rw [ht] at hlive
      simp only [hlive,Option.map_none]
      exact ⟨h.tracks,by rw [List.append_nil]; exact h.wire,by simpa using h.replied⟩
    | some t =>
      rw [ht,Option.map_some] at hlive
      have hsome : (getContext r.contexts id).isSome := by rw [hlive]; rfl
      have hbusy : Tracks (some (t.context id)) r.contexts (l.answer id t) := h.tracks.answer hlive
      obtain ⟨htracks,hsent,hanswered⟩ := hbusy.requests requests (hfresh hsome)
      simp only [hlive]
      refine ⟨htracks.delete,?_,?_⟩
      · rw [hsent,h.wire]
        rfl
      · rw [hanswered,h.replied,Ledger.answer]
        simp [Ticket.context]
  | age => exact ⟨h.tracks.age,h.wire,h.replied⟩

theorem Follows.run {r : ContextRun υ} (events : List (ContextEvent υ)) (h : Follows r l)
    (hfresh : FreshRun r events) : Follows (contextRun r events) (ledgerRun l events) := by
  induction events generalizing r l with
  | nil => exact h
  | cons event events ih => exact ih (h.step event hfresh.1) hfresh.2

theorem open_follows (h : c.Valid) : Follows (openRun c) (openLedger c) := by
  refine ⟨⟨h,rfl,?_,by simp⟩,rfl,rfl⟩
  intro id _
  simp only [openRun,openLedger]
  cases hc : getContext c id with
  | none => rfl
  | some context =>
    have hid := h.keyed id context hc
    subst hid
    rfl

end Simulation

section Sound

-- The request was sent under this transaction id with this user data.
def Ledger.Owns (initial : UInt32 → Option υ) (l : Ledger υ) : Request → UInt32 → υ → Prop
  | .outstanding id', id, u => id' = id ∧ initial id = some u
  | .sent n, id, u => l.sent[n]? = some (id,u)

structure Ledger.Sound (initial : UInt32 → Option υ) (l : Ledger υ) : Prop where
  live : ∀ id t, l.live id = some t →
    l.Owns initial t.request id t.userData ∧ t.request ∉ l.answered.map Prod.fst
  answered : ∀ request u, (request,u) ∈ l.answered → ∃ id, l.Owns initial request id u
  once : (l.answered.map Prod.fst).Nodup

variable {initial : UInt32 → Option υ} {l : Ledger υ}

theorem Ledger.Owns.id_unique {request : Request} {id id' : UInt32} {u u' : υ}
    (h : l.Owns initial request id u) (h' : l.Owns initial request id' u') : id = id' := by
  cases request with
  | outstanding i => exact h.1.symm.trans h'.1
  | sent n => exact (Prod.mk.inj (Option.some.inj (h.symm.trans h'))).1

theorem Ledger.Owns.extend {request : Request} {id : UInt32} {u : υ} (h : l.Owns initial request id u)
    {l' : Ledger υ} {more : List (UInt32 × υ)} (hsent : l'.sent = l.sent ++ more) :
    l'.Owns initial request id u := by
  cases request with
  | outstanding i => exact h
  | sent n =>
    have hn : n < l.sent.length := (List.getElem?_eq_some_iff.mp h).1
    rw [Ledger.Owns,hsent,List.getElem?_append_left hn]
    exact h

theorem Ledger.Sound.request (h : l.Sound initial) (u : υ) : (l.request u).Sound initial := by
  refine ⟨?_,?_,h.once⟩
  · intro id t ht
    rw [Ledger.request] at ht
    simp only [Function.update_apply] at ht
    split at ht
    · rename_i hid
      obtain rfl := Option.some.inj ht
      refine ⟨?_,?_⟩
      · simp [Ledger.Owns,Ledger.request,hid]
      · intro hmem
        obtain ⟨⟨request,v⟩,ha,hrequest⟩ := List.mem_map.mp hmem
        obtain ⟨id',howns⟩ := h.answered request v ha
        simp only at hrequest
        rw [hrequest,Ledger.Owns,List.getElem?_eq_none (Nat.le_refl _)] at howns
        exact absurd howns (by simp)
    · exact ⟨(h.live id t ht).1.extend rfl,(h.live id t ht).2⟩
  · intro request v ha
    obtain ⟨id,howns⟩ := h.answered request v ha
    exact ⟨id,howns.extend rfl⟩

theorem Ledger.Sound.answer (h : l.Sound initial) {id : UInt32} {t : Ticket υ} (ht : l.live id = some t) :
    (l.answer id t).Sound initial := by
  obtain ⟨howns,hnew⟩ := h.live id t ht
  refine ⟨?_,?_,?_⟩
  · intro id' t' ht'
    rw [Ledger.answer] at ht'
    simp only [Function.update_apply] at ht'
    split at ht'
    · exact absurd ht' (by simp)
    · rename_i hid
      obtain ⟨howns',hnew'⟩ := h.live id' t' ht'
      refine ⟨howns',?_⟩
      simp only [Ledger.answer,List.map_append,List.map_cons,List.map_nil,List.mem_append,
        List.mem_singleton,not_or]
      refine ⟨hnew',?_⟩
      intro hsame
      rw [hsame] at howns'
      exact hid (howns'.id_unique howns)
  · intro request u ha
    rcases List.mem_append.mp ha with ha | ha
    · exact h.answered request u ha
    · obtain ⟨rfl,rfl⟩ := Prod.mk.inj (List.mem_singleton.mp ha)
      exact ⟨id,howns⟩
  · simp only [Ledger.answer,List.map_append,List.map_cons,List.map_nil]
    refine List.nodup_append.mpr ⟨h.once,by simp,?_⟩
    intro a ha b hb hab
    rw [List.mem_singleton.mp hb] at hab
    exact hnew (hab ▸ ha)

theorem Ledger.Sound.age (h : l.Sound initial) : l.age.Sound initial := by
  refine ⟨?_,h.answered,h.once⟩
  intro id t ht
  obtain ⟨old,hold,haged⟩ := Option.bind_eq_some_iff.mp ht
  rw [Ticket.aged] at haged
  split at haged
  · exact absurd haged (by simp)
  · obtain rfl := Option.some.inj haged
    exact h.live id old hold

theorem Ledger.Sound.requests (requests : List υ) (h : l.Sound initial) :
    (requests.foldl Ledger.request l).Sound initial := by
  induction requests generalizing l with
  | nil => exact h
  | cons u requests ih => exact ih (h.request u)

theorem Ledger.Sound.run (events : List (ContextEvent υ)) (h : l.Sound initial) :
    (ledgerRun l events).Sound initial := by
  induction events generalizing l with
  | nil => exact h
  | cons event events ih =>
    refine ih ?_
    cases event with
    | request u => exact h.request u
    | reply id requests =>
      rw [ledgerStep,Ledger.reply]
      cases ht : l.live id with
      | none => exact h
      | some t => exact (h.answer ht).requests requests
    | age => exact h.age

def Contexts.userData (c : Contexts υ) (id : UInt32) : Option υ := (getContext c id).map (·.userData)

theorem open_sound (c : Contexts υ) : (openLedger c).Sound c.userData := by
  refine ⟨?_,by simp [openLedger],by simp [openLedger]⟩
  intro id t ht
  obtain ⟨context,hcontext,rfl⟩ := Option.map_eq_some_iff.mp ht
  refine ⟨⟨rfl,?_⟩,by simp [openLedger]⟩
  rw [Contexts.userData,hcontext]
  rfl

end Sound

theorem contexts_follow_requests {c : Contexts υ} (h : c.Valid) (events : List (ContextEvent υ))
    (hfresh : FreshRun (openRun c) events) :
    (∀ id, getContext (contextRun (openRun c) events).contexts id =
      ((ledgerRun (openLedger c) events).live id).map fun t => t.context id) ∧
    (contextRun (openRun c) events).wire = (ledgerRun (openLedger c) events).sent.map Prod.fst ∧
    (contextRun (openRun c) events).replied = (ledgerRun (openLedger c) events).answered.map Prod.snd ∧
    (ledgerRun (openLedger c) events).Sound c.userData := by
  have hfollows := (open_follows h).run events hfresh
  refine ⟨?_,hfollows.wire,hfollows.replied,(open_sound c).run events⟩
  intro id
  exact hfollows.tracks.live id (by simp)

theorem answered_and_aged :
    (contextRun (openRun (createContextDb : Contexts Nat))
        [.request 7,.request 8,.reply 1 [9],.reply 1 [],.age]).replied = [7] ∧
      (ledgerRun (openLedger (createContextDb : Contexts Nat))
        [.request 7,.request 8,.reply 1 [9],.reply 1 [],.age]).answered.map Prod.snd = [7] := by
  have hrun := contexts_follow_requests (createContextDb_valid : (createContextDb : Contexts Nat).Valid)
    [.request 7,.request 8,.reply 1 [9],.reply 1 [],.age]
    ⟨(by decide : Fresh _),(by decide : Fresh _),fun _ => ⟨by decide,trivial⟩,fun _ => trivial,trivial,
      trivial⟩
  have hreplied : (contextRun (openRun (createContextDb : Contexts Nat))
      [.request 7,.request 8,.reply 1 [9],.reply 1 [],.age]).replied = [7] := by decide
  exact ⟨hreplied,hrun.2.2.1 ▸ hreplied⟩

-- One request is outstanding and the counter is about to come round to its id.
def wrapped : Contexts Nat := { (insertContext createContextDb 7).2 with lastTransactionId := 0 }

theorem collision_loses_request :
    wrapped.Valid ∧ (insertContext wrapped 8).1.transactionId = 1 ∧
      getContext (insertContext wrapped 8).2 1 = none := by
  have hvalid : wrapped.Valid := by
    have hinsert := insertContext_valid (createContextDb_valid : (createContextDb : Contexts Nat).Valid)
      (by decide) 7
    exact ⟨hinsert.table,hinsert.keyed⟩
  have hold : getContext wrapped (wrapped.lastTransactionId + 1) = some ⟨1,10,7⟩ := by decide
  exact ⟨hvalid,by decide,getContext_insert_collision hvalid hold 8⟩

end Trema.Messenger
