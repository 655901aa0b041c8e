import Trema.Messenger.QueueRun
import Trema.Messenger.Timers

namespace Trema.Messenger

variable {σ : Type}

-- A queue in the table of its process; `id` is the allocation it came from.
structure Entry (σ : Type) where
  serviceName : σ
  id : QueueId
  sq : SendQueue

-- The queues are none while the messenger is not initialized.
structure System (σ : Type) where
  sendQueues : Option (List (Entry σ))
  timers : List QueueId
  dumpServiceName : Option σ
  nextId : QueueId

inductive SystemEvent (σ : Type) where
  | init
  | push (serviceName : σ) (m : Message) (heap : Nat → UInt8) (first : ConnectOutcome)
      (sends : Nat → SendOutcome) (outcome : ConnectOutcome)
  | write (serviceName : σ) (sends : Nat → SendOutcome) (outcome : ConnectOutcome)
  | read (serviceName : σ) (received : Bool) (outcome : ConnectOutcome)
  | timeout (id : QueueId) (outcome : ConnectOutcome)
  | clear (serviceName : σ)
  | startDump (serviceName : σ)
  | stopDump
  | finalize

namespace System

variable (y : System σ)

def entries : List (Entry σ) := y.sendQueues.getD []

def owner (id : QueueId) : Option (Entry σ) := y.entries.find? fun e => e.id = id

def next : System σ := { y with nextId := y.nextId + 1 }

def deleteAllSendQueues : System σ := { y with sendQueues := none }

variable [DecidableEq σ]

def lookup (serviceName : σ) : Option (Entry σ) := y.entries.find? fun e => e.serviceName = serviceName

-- The result of an operation on a queue goes back to the table and the timer list.
def put (e : Entry σ) (s : Station) : System σ :=
  { y with
    sendQueues := y.sendQueues.map fun l =>
      { e with sq := s.sq } :: l.filter fun a => a.serviceName ≠ e.serviceName
    timers := s.timers }

-- The reconnect timer of the queue stays where it is.
def deleteSendQueue (serviceName : σ) : System σ :=
  { y with sendQueues := y.sendQueues.map fun l => l.filter fun a => a.serviceName ≠ serviceName }

def stopMessengerDump : Except Fault (System σ) :=
  match y.dumpServiceName with
  | none => .error .assertionFailed
  | some serviceName =>
    if y.sendQueues.isNone then .error .assertionFailed
    else .ok { y.deleteSendQueue serviceName with dumpServiceName := none }

def startMessengerDump (serviceName : σ) : Except Fault (System σ) :=
  if y.dumpServiceName.isSome then
    match y.stopMessengerDump with
    | .error e => .error e
    | .ok y => .ok { y with dumpServiceName := some serviceName }
  else .ok { y with dumpServiceName := some serviceName }

def finalizeMessenger : Except Fault (System σ) :=
  if y.sendQueues.isNone then .ok y
  else if y.dumpServiceName.isSome then
    match y.stopMessengerDump with
    | .error e => .error e
    | .ok y => .ok y.deleteAllSendQueues
  else .ok y.deleteAllSendQueues

def pushInto (e : Entry σ) (s : Station) (m : Message) (sends : Nat → SendOutcome)
    (outcome : ConnectOutcome) : Except Fault (System σ) :=
  match pushMessage e.id s sends outcome m with
  | .error fault => .error fault
  | .ok (_,_,s) => .ok (y.put e s)

def pushMessageToSendQueue (serviceName : σ) (m : Message) (heap : Nat → UInt8) (first : ConnectOutcome)
    (sends : Nat → SendOutcome) (outcome : ConnectOutcome) : Except Fault (System σ) :=
  if y.sendQueues.isNone then .ok y
  else
    match y.lookup serviceName with
    | some e => y.pushInto e ⟨e.sq,y.timers⟩ m sends outcome
    | none =>
      match createSendQueue y.nextId first heap y.timers with
      | none => .error .assertionFailed
      | some s => y.next.pushInto ⟨serviceName,y.nextId,s.sq⟩ s m sends outcome

def step : SystemEvent σ → Except Fault (System σ)
  | .init => .ok (if y.sendQueues.isNone then { y with sendQueues := some [] } else y)
  | .push serviceName m heap first sends outcome =>
    y.pushMessageToSendQueue serviceName m heap first sends outcome
  | .write serviceName sends outcome =>
    match y.lookup serviceName with
    | none => .ok y
    | some e =>
      if e.sq.serverSocket.isSome && e.sq.writable then
        match onSendWrite e.id ⟨e.sq,y.timers⟩ sends outcome with
        | .error fault => .error fault
        | .ok (_,s) => .ok (y.put e s)
      else .ok y
  | .read serviceName received outcome =>
    match y.lookup serviceName with
    | none => .ok y
    | some e =>
      if e.sq.serverSocket.isSome && e.sq.readable then
        match onSendRead e.id ⟨e.sq,y.timers⟩ outcome received with
        | none => .ok (y.deleteSendQueue serviceName)
        | some s => .ok (y.put e s)
      else .ok y
  | .timeout id outcome =>
    if id ∈ y.timers then
      match y.owner id with
      | none => .error .useAfterFree
      | some e => .ok (y.put e (sendQueueConnectTimeout e.id ⟨e.sq,y.timers⟩ outcome).2)
    else .ok y
  | .clear serviceName =>
    match y.lookup serviceName with
    | none => .ok y
    | some e => .ok (y.put e (clearSendQueue ⟨e.sq,y.timers⟩).2)
  | .startDump serviceName => y.startMessengerDump serviceName
  | .stopDump => y.stopMessengerDump
  | .finalize => y.finalizeMessenger

def run : System σ → List (SystemEvent σ) → Except Fault (System σ)
  | y, [] => .ok y
  | y, event :: events =>
    match y.step event with
    | .error fault => .error fault
    | .ok y => run y events

def boot : System σ := ⟨none,[],none,0⟩

end System

section Moves

-- What the operations of one queue can do to it, when the messages pushed into it satisfy `P` and the
-- connection attempts come out as `Q` says.
inductive QueueOp (P : Message → Prop) (Q : ConnectOutcome → Prop) (id : QueueId) (s : Station) :
    Station → Prop
  | push {sends : Nat → SendOutcome} {outcome : ConnectOutcome} {m : Message} {ok : Bool}
      {outputs : List Output} {s' : Station} (hm : m.Admissible → P m) (hq : Q outcome)
      (h : pushMessage id s sends outcome m = .ok (ok,outputs,s')) : QueueOp P Q id s s'
  | write {sends : Nat → SendOutcome} {outcome : ConnectOutcome} {outputs : List Output} {s' : Station}
      (hopen : s.sq.serverSocket.isSome) (hq : Q outcome)
      (h : onSendWrite id s sends outcome = .ok (outputs,s')) : QueueOp P Q id s s'
  | read {outcome : ConnectOutcome} {received : Bool} {s' : Station} (hopen : s.sq.serverSocket.isSome)
      (hq : Q outcome) (h : onSendRead id s outcome received = some s') : QueueOp P Q id s s'
  | timeout {outcome : ConnectOutcome} (hq : Q outcome) :
      QueueOp P Q id s (sendQueueConnectTimeout id s outcome).2
  | clear : QueueOp P Q id s (clearSendQueue s).2

variable {P : Message → Prop} {Q : ConnectOutcome → Prop}

theorem QueueOp.armed {id : QueueId} {s s' : Station} (h : Armed id s) (hop : QueueOp P Q id s s') :
    Armed id s' ∧ SameElsewhere id s.timers s'.timers := by
  cases hop with
  | push _ _ hpush => exact (pushMessage_pushed hpush).armed h
  | write _ _ hwrite => exact (onSendWrite_writes hwrite).armed h
  | read _ _ hread => exact onSendRead_armed h _ _ hread
  | timeout _ => exact connectTimeout_armed h _
  | clear => exact clearSendQueue_armed h

def SystemEvent.Pushes (P : Message → Prop) : SystemEvent σ → Prop
  | .push _ m _ _ _ _ => m.Admissible → P m
  | _ => True

-- Every outcome that the event may take for a connection attempt satisfies `Q`.
def SystemEvent.Connects (Q : ConnectOutcome → Prop) : SystemEvent σ → Prop
  | .push _ _ _ first _ outcome => Q first ∧ Q outcome
  | .write _ _ outcome | .read _ _ outcome | .timeout _ outcome => Q outcome
  | _ => True

def System.Connected (y : System σ) (serviceName : σ) : Prop :=
  ∃ e ∈ y.entries, e.serviceName = serviceName ∧ e.sq.serverSocket.isSome

-- The queues that stopping the dump and finalizing take away.
def System.Doomed (y : System σ) (a : Entry σ) : SystemEvent σ → Prop
  | .startDump _ => y.dumpServiceName = some a.serviceName
  | .stopDump => y.dumpServiceName = some a.serviceName
  | .finalize => True
  | _ => False

theorem System.owner_spec {y : System σ} {id : QueueId} {e : Entry σ} (h : y.owner id = some e) :
    e ∈ y.entries ∧ e.id = id := by
  have hid := List.find?_some h
  exact ⟨List.mem_of_find?_eq_some h,by simpa using hid⟩

variable [DecidableEq σ]

inductive System.Moves (P : Message → Prop) (Q : ConnectOutcome → Prop) (y : System σ)
    (event : SystemEvent σ) : System σ → Prop
  | idle {y' : System σ} (hentries : y'.entries = y.entries) (htimers : y'.timers = y.timers)
      (hnext : y'.nextId = y.nextId) : Moves P Q y event y'
  | operate {e : Entry σ} {s : Station} (he : e ∈ y.entries) (hop : QueueOp P Q e.id ⟨e.sq,y.timers⟩ s) :
      Moves P Q y event (y.put e s)
  | create {serviceName : σ} {heap : Nat → UInt8} {first : ConnectOutcome} {s₀ s : Station}
      (hinit : y.sendQueues.isSome) (hnew : ∀ a ∈ y.entries, a.serviceName ≠ serviceName)
      (hq : Q first) (hcreate : createSendQueue y.nextId first heap y.timers = some s₀)
      (hop : QueueOp P Q y.nextId s₀ s) :
      Moves P Q y event (y.next.put ⟨serviceName,y.nextId,s₀.sq⟩ s)
  | delete {y' : System σ} (hentries : ∀ a ∈ y'.entries, a ∈ y.entries)
      (hgone : ∀ a ∈ y.entries, a ∈ y'.entries ∨ y.Connected a.serviceName ∨ y.Doomed a event)
      (htimers : y'.timers = y.timers) (hnext : y'.nextId = y.nextId) : Moves P Q y event y'

variable {y : System σ}

theorem System.mem_delete {a : Entry σ} {serviceName : σ} :
    a ∈ (y.deleteSendQueue serviceName).entries ↔ a ∈ y.entries ∧ a.serviceName ≠ serviceName := by
  rw [deleteSendQueue,entries,entries]
  cases y.sendQueues with
  | none => simp
  | some l => simp

theorem System.lookup_spec {serviceName : σ} {e : Entry σ} (h : y.lookup serviceName = some e) :
    e ∈ y.entries ∧ e.serviceName = serviceName := by
  have hname := List.find?_some h
  exact ⟨List.mem_of_find?_eq_some h,by simpa using hname⟩

theorem System.lookup_none {serviceName : σ} (h : y.lookup serviceName = none) :
    ∀ a ∈ y.entries, a.serviceName ≠ serviceName := by
  intro a ha
  simpa using List.find?_eq_none.mp h a ha

theorem System.pushInto_op {e : Entry σ} {s : Station} {m : Message} {sends : Nat → SendOutcome}
    {outcome : ConnectOutcome} {y' : System σ} (hm : m.Admissible → P m) (hq : Q outcome)
    (h : y.pushInto e s m sends outcome = .ok y') : ∃ s', QueueOp P Q e.id s s' ∧ y' = y.put e s' := by
  rw [pushInto] at h
  cases hpush : pushMessage e.id s sends outcome m with
  | error fault =>
    rw [hpush] at h
    exact absurd h (by simp)
  | ok result =>
    obtain ⟨ok,outputs,s'⟩ := result
    rw [hpush] at h
    exact ⟨s',.push hm hq hpush,(Except.ok.inj h).symm⟩

theorem System.stopMessengerDump_spec {y' : System σ} (h : y.stopMessengerDump = .ok y') :
    ∃ serviceName, y.dumpServiceName = some serviceName ∧
      y' = { y.deleteSendQueue serviceName with dumpServiceName := none } := by
  rw [stopMessengerDump] at h
  cases hdump : y.dumpServiceName with
  | none =>
    rw [hdump] at h
    exact absurd h (by simp)
  | some serviceName =>
    rw [hdump] at h
    simp only at h
    split at h
    · exact absurd h (by simp)
    · exact ⟨serviceName,rfl,(Except.ok.inj h).symm⟩

-- The queue of the dump service goes, if there is one.
theorem System.stop_moves {y' y'' : System σ} {event : SystemEvent σ}
    (hdoomed : ∀ a, y.Doomed a event ↔ y.dumpServiceName = some a.serviceName)
    (h : y.stopMessengerDump = .ok y') (hentries : y''.entries = y'.entries)
    (htimers : y''.timers = y'.timers) (hnext : y''.nextId = y'.nextId) : y.Moves P Q event y'' := by
  obtain ⟨serviceName,hdump,rfl⟩ := stopMessengerDump_spec h
  have hmem : ∀ a, a ∈ y''.entries ↔ a ∈ y.entries ∧ a.serviceName ≠ serviceName := by
    intro a
    rw [hentries]
    exact mem_delete
  refine .delete (fun a ha => ((hmem a).mp ha).1) ?_ htimers hnext
  intro a ha
  by_cases hname : a.serviceName = serviceName
  · right
    right
    rw [hdoomed,hdump,hname]
  · exact .inl ((hmem a).mpr ⟨ha,hname⟩)

theorem System.Moves.stays {y' : System σ} {event : SystemEvent σ} (h : (.ok y : Except Fault (System σ)) = .ok y') :
    y.Moves P Q event y' := by
  rw [← Except.ok.inj h]
  exact .idle rfl rfl rfl

theorem System.step_moves {event : SystemEvent σ} {y' : System σ} (hevent : event.Pushes P)
    (hconnects : event.Connects Q) (h : y.step event = .ok y') : y.Moves P Q event y' := by
  cases event with
  | init =>
    rw [step] at h
    rw [← Except.ok.inj h]
    split
    · rename_i hnone
      refine .idle ?_ rfl rfl
      rw [entries,entries,Option.isNone_iff_eq_none.mp hnone]
      rfl
    · exact .idle rfl rfl rfl
  | push serviceName m heap first sends outcome =>
    rw [step,pushMessageToSendQueue] at h
    split at h
    · exact .stays h
    · rename_i hinit
      cases hfind : y.lookup serviceName with
      | some e =>
        simp only [hfind] at h
        obtain ⟨s,hop,rfl⟩ := pushInto_op hevent hconnects.2 h
        exact .operate (lookup_spec hfind).1 hop
      | none =>
        simp only [hfind] at h
        cases hcreate : createSendQueue y.nextId first heap y.timers with
        | none =>
          rw [hcreate] at h
          exact absurd h (by simp)
        | some s₀ =>
          rw [hcreate] at h
          obtain ⟨s,hop,rfl⟩ := pushInto_op hevent hconnects.2 h
          have hsome : y.sendQueues.isSome := by
            rw [Option.isSome_iff_ne_none]
            simpa using hinit
          exact .create hsome (lookup_none hfind) hconnects.1 hcreate hop
  | write serviceName sends outcome =>
    rw [step] at h
    cases hfind : y.lookup serviceName with
    | none =>
      simp only [hfind] at h
      exact .stays h
    | some e =>
      simp only [hfind] at h
      split at h
      · rename_i hready
        rw [Bool.and_eq_true] at hready
        cases hwrite : onSendWrite e.id ⟨e.sq,y.timers⟩ sends outcome with
        | error fault =>
          rw [hwrite] at h
          exact absurd h (by simp)
        | ok written =>
          obtain ⟨outputs,s⟩ := written
          rw [hwrite] at h
          rw [← Except.ok.inj h]
          exact .operate (lookup_spec hfind).1 (.write hready.1 hconnects hwrite)
      · exact .stays h
  | read serviceName received outcome =>
    rw [step] at h
    cases hfind : y.lookup serviceName with
    | none =>
      simp only [hfind] at h
      exact .stays h
    | some e =>
      simp only [hfind] at h
      split at h
      · rename_i hready
        rw [Bool.and_eq_true] at hready
        cases hread : onSendRead e.id ⟨e.sq,y.timers⟩ outcome received with
        | some s =>
          rw [hread] at h
          rw [← Except.ok.inj h]
          exact .operate (lookup_spec hfind).1 (.read hready.1 hconnects hread)
        | none =>
          rw [hread] at h
          rw [← Except.ok.inj h]
          refine .delete (fun a ha => (mem_delete.mp ha).1) ?_ rfl rfl
          intro a ha
          by_cases hname : a.serviceName = serviceName
          · exact .inr (.inl ⟨e,(lookup_spec hfind).1,(lookup_spec hfind).2.trans hname.symm,hready.1⟩)
          · exact .inl (mem_delete.mpr ⟨ha,hname⟩)
      · exact .stays h
  | timeout id outcome =>
    rw [step] at h
    split at h
    · cases howner : y.owner id with
      | none =>
        rw [howner] at h
        exact absurd h (by simp)
      | some e =>
        rw [howner] at h
        rw [← Except.ok.inj h]
        exact .operate (owner_spec howner).1 (.timeout hconnects)
    · exact .stays h
  | clear serviceName =>
    rw [step] at h
    cases hfind : y.lookup serviceName with
    | none =>
      simp only [hfind] at h
      exact .stays h
    | some e =>
      simp only [hfind] at h
      rw [← Except.ok.inj h]
      exact .operate (lookup_spec hfind).1 .clear
  | startDump serviceName =>
    rw [step,startMessengerDump] at h
    split at h
    · cases hstop : y.stopMessengerDump with
      | error fault =>
        rw [hstop] at h
        exact absurd h (by simp)
      | ok y₁ =>
        rw [hstop] at h
        rw [← Except.ok.inj h]
        exact stop_moves (fun a => Iff.rfl) hstop rfl rfl rfl
    · rw [← Except.ok.inj h]
      exact .idle rfl rfl rfl
  | stopDump => exact stop_moves (fun a => Iff.rfl) h rfl rfl rfl
  | finalize =>
    rw [step,finalizeMessenger] at h
    have hall : ∀ y₁ : System σ, y₁.timers = y.timers → y₁.nextId = y.nextId →
        y.Moves P Q .finalize y₁.deleteAllSendQueues := by
      intro y₁ htimers hnext
      refine .delete ?_ (fun a _ => .inr (.inr trivial)) htimers hnext
      intro a ha
      rw [deleteAllSendQueues,entries] at ha
      exact absurd ha (by simp)
    split at h
    · exact .stays h
    · split at h
      · cases hstop : y.stopMessengerDump with
        | error fault =>
          rw [hstop] at h
          exact absurd h (by simp)
        | ok y₁ =>
          rw [hstop] at h
          rw [← Except.ok.inj h]
          obtain ⟨_,_,rfl⟩ := stopMessengerDump_spec hstop
          exact hall _ rfl rfl
      · rw [← Except.ok.inj h]
        exact hall y rfl rfl

end Moves

section Invariant

variable {P : Message → Prop} {Q : ConnectOutcome → Prop} {y : System σ}

structure System.Inv (y : System σ) : Prop where
  nodup : y.timers.Nodup
  armed : ∀ e ∈ y.entries, Armed e.id ⟨e.sq,y.timers⟩
  names : ∀ a ∈ y.entries, ∀ b ∈ y.entries, a.serviceName = b.serviceName → a = b
  ids : ∀ a ∈ y.entries, ∀ b ∈ y.entries, a.id = b.id → a = b
  bound : ∀ e ∈ y.entries, e.id < y.nextId
  timersBound : ∀ id ∈ y.timers, id < y.nextId

-- No armed timer refers to a queue that has been deleted.
def System.Attached (y : System σ) : Prop := ∀ id ∈ y.timers, ∃ e ∈ y.entries, e.id = id

-- The name and the identity of the entry belong together, and to no other queue.
structure System.Fits (y : System σ) (e : Entry σ) : Prop where
  initialized : y.sendQueues.isSome
  bound : e.id < y.nextId
  name : ∀ a ∈ y.entries, a.serviceName = e.serviceName → a.id = e.id
  id : ∀ a ∈ y.entries, a.id = e.id → a.serviceName = e.serviceName

theorem System.Inv.fits (h : y.Inv) {e : Entry σ} (he : e ∈ y.entries) : y.Fits e := by
  refine ⟨?_,h.bound e he,?_,?_⟩
  · cases hq : y.sendQueues with
    | none =>
      rw [entries,hq] at he
      exact absurd he (by simp)
    | some l => rfl
  · intro a ha hname
    rw [h.names a ha e he hname]
  · intro a ha hid
    rw [h.ids a ha e he hid]

theorem System.Inv.subset (h : y.Inv) {y' : System σ} (hentries : ∀ a ∈ y'.entries, a ∈ y.entries)
    (htimers : y'.timers = y.timers) (hnext : y'.nextId = y.nextId) : y'.Inv := by
  refine ⟨htimers ▸ h.nodup,?_,?_,?_,?_,?_⟩
  · intro a ha
    rw [htimers]
    exact h.armed a (hentries a ha)
  · exact fun a ha b hb => h.names a (hentries a ha) b (hentries b hb)
  · exact fun a ha b hb => h.ids a (hentries a ha) b (hentries b hb)
  · intro a ha
    rw [hnext]
    exact h.bound a (hentries a ha)
  · rw [htimers,hnext]
    exact h.timersBound

theorem System.boot_inv : (System.boot : System σ).Inv :=
  ⟨.nil,by simp [boot,entries],by simp [boot,entries],by simp [boot,entries],by simp [boot,entries],
    by simp [boot]⟩

variable [DecidableEq σ]

theorem System.mem_put {e a : Entry σ} {s : Station} (hinit : y.sendQueues.isSome) :
    a ∈ (y.put e s).entries ↔
      a = { e with sq := s.sq } ∨ a ∈ y.entries ∧ a.serviceName ≠ e.serviceName := by
  obtain ⟨l,hl⟩ := Option.isSome_iff_exists.mp hinit
  rw [put,entries,entries,hl]
  simp

theorem System.Inv.put (h : y.Inv) {e : Entry σ} {s : Station} (hfits : y.Fits e)
    (harmed : Armed e.id s) (hsame : SameElsewhere e.id y.timers s.timers) : (y.put e s).Inv := by
  have hmem := fun a => System.mem_put (a := a) (e := e) (s := s) hfits.initialized
  have hother : ∀ a ∈ y.entries, a.serviceName ≠ e.serviceName → a.id ≠ e.id := by
    intro a ha hname hid
    exact hname (hfits.id a ha hid)
  refine ⟨harmed.nodup,?_,?_,?_,?_,?_⟩
  · intro a ha
    rcases (hmem a).mp ha with rfl | ⟨ha,hname⟩
    · exact harmed
    · have hold := h.armed a ha
      exact ⟨harmed.nodup,(hsame a.id (hother a ha hname)).trans hold.armed,hold.idle⟩
  · intro a ha b hb hab
    rcases (hmem a).mp ha with rfl | ⟨ha,hna⟩
    · rcases (hmem b).mp hb with rfl | ⟨hb,hnb⟩
      · rfl
      · exact absurd hab.symm hnb
    · rcases (hmem b).mp hb with rfl | ⟨hb,hnb⟩
      · exact absurd hab hna
      · exact h.names a ha b hb hab
  · intro a ha b hb hab
    rcases (hmem a).mp ha with rfl | ⟨ha,hna⟩
    · rcases (hmem b).mp hb with rfl | ⟨hb,hnb⟩
      · rfl
      · exact absurd hab.symm (hother b hb hnb)
    · rcases (hmem b).mp hb with rfl | ⟨hb,hnb⟩
      · exact absurd hab (hother a ha hna)
      · exact h.ids a ha b hb hab
  · intro a ha
    rcases (hmem a).mp ha with rfl | ⟨ha,_⟩
    · exact hfits.bound
    · exact h.bound a ha
  · intro id hid
    by_cases hsame' : id = e.id
    · rw [hsame']
      exact hfits.bound
    · exact h.timersBound id ((hsame id hsame').mp hid)

theorem System.Attached.put (h : y.Attached) {e : Entry σ} {s : Station} (hfits : y.Fits e)
    (hsame : SameElsewhere e.id y.timers s.timers) : (y.put e s).Attached := by
  intro id hid
  by_cases hself : id = e.id
  · exact ⟨_,(System.mem_put hfits.initialized).mpr (.inl rfl),hself.symm⟩
  · obtain ⟨a,ha,rfl⟩ := h id ((hsame id hself).mp hid)
    refine ⟨a,(System.mem_put hfits.initialized).mpr (.inr ⟨ha,?_⟩),rfl⟩
    intro hname
    exact hself (hfits.name a ha hname)

theorem System.Moves.inv {event : SystemEvent σ} {y' : System σ} (h : y.Inv) (hmoves : y.Moves P Q event y') :
    y'.Inv := by
  cases hmoves with
  | idle hentries htimers hnext => exact h.subset (fun a ha => hentries ▸ ha) htimers hnext
  | operate he hop =>
    obtain ⟨harmed,hsame⟩ := hop.armed (h.armed _ he)
    exact h.put (h.fits he) harmed hsame
  | create hinit hnew _ hcreate hop =>
    have hfresh : y.nextId ∉ y.timers := fun hid => absurd (h.timersBound _ hid) (Nat.lt_irrefl _)
    obtain ⟨hstart,hsame⟩ := createSendQueue_armed h.nodup hfresh hcreate
    obtain ⟨harmed,hsame'⟩ := hop.armed hstart
    have hnext : y.next.Inv := ⟨h.nodup,h.armed,h.names,h.ids,
      fun e he => Nat.lt_succ_of_lt (h.bound e he),fun id hid => Nat.lt_succ_of_lt (h.timersBound id hid)⟩
    refine hnext.put ⟨hinit,Nat.lt_succ_self _,?_,?_⟩ harmed (hsame.trans hsame')
    · exact fun a ha hname => absurd hname (hnew a ha)
    · exact fun a ha hid => absurd (h.bound a ha) (by rw [hid]; exact Nat.lt_irrefl _)
  | delete hentries _ htimers hnext => exact h.subset hentries htimers hnext

theorem System.Moves.attached {event : SystemEvent σ} {y' : System σ} (h : y.Inv) (hattached : y.Attached)
    (hidle : ∀ a ∈ y.entries, y.Doomed a event → a.sq.runningTimer = false) (hmoves : y.Moves P Q event y') :
    y'.Attached := by
  cases hmoves with
  | idle hentries htimers _ =>
    intro id hid
    rw [htimers] at hid
    rw [hentries]
    exact hattached id hid
  | operate he hop => exact hattached.put (h.fits he) (hop.armed (h.armed _ he)).2
  | create hinit hnew _ hcreate hop =>
    have hfresh : y.nextId ∉ y.timers := fun hid => absurd (h.timersBound _ hid) (Nat.lt_irrefl _)
    obtain ⟨hstart,hsame⟩ := createSendQueue_armed h.nodup hfresh hcreate
    have hsame' := hsame.trans (hop.armed hstart).2
    have hnext : y.next.Attached := hattached
    refine hnext.put ⟨hinit,Nat.lt_succ_self _,?_,?_⟩ hsame'
    · exact fun a ha hname => absurd hname (hnew a ha)
    · exact fun a ha hid => absurd (h.bound a ha) (by rw [hid]; exact Nat.lt_irrefl _)
  | delete _ hgone htimers _ =>
    intro id hid
    rw [htimers] at hid
    obtain ⟨a,ha,rfl⟩ := hattached id hid
    have hrunning := (h.armed a ha).armed.mp hid
    rcases hgone a ha with hkept | ⟨e,he,hname,hopen⟩ | hdoomed
    · exact ⟨a,hkept,rfl⟩
    · -- A connected queue has no timer.
      rw [h.names e he a ha hname] at hopen
      rw [(h.armed a ha).idle hopen] at hrunning
      exact absurd hrunning (by simp)
    · rw [hidle a ha hdoomed] at hrunning
      exact absurd hrunning (by simp)

end Invariant

section Runs

variable [DecidableEq σ]

-- No queue is deleted from outside while its reconnect timer is armed.
def System.DeletesIdle : System σ → List (SystemEvent σ) → Prop
  | _, [] => True
  | y, event :: events =>
    (∀ a ∈ y.entries, y.Doomed a event → a.sq.runningTimer = false) ∧
      ∀ y', y.step event = .ok y' → y'.DeletesIdle events

theorem System.step_free {event : SystemEvent σ} {y y' : System σ} (h : y.step event = .ok y') :
    y.Moves (fun _ => True) (fun _ => True) event y' := by
  refine step_moves ?_ ?_ h
  · cases event <;> simp [SystemEvent.Pushes]
  · cases event <;> simp [SystemEvent.Connects]

-- What every step of a run keeps holds at its end.
theorem System.run_keeps {I : System σ → Prop} (events : List (SystemEvent σ)) {y y' : System σ}
    (hstep : ∀ event ∈ events, ∀ y y', I y → y.step event = .ok y' → I y') (h : I y)
    (hrun : y.run events = .ok y') : I y' := by
  induction events generalizing y with
  | nil =>
    rw [← Except.ok.inj hrun]
    exact h
  | cons event events ih =>
    rw [run] at hrun
    cases hfirst : y.step event with
    | error fault =>
      rw [hfirst] at hrun
      exact absurd hrun (by simp)
    | ok y₁ =>
      rw [hfirst] at hrun
      exact ih (fun e he => hstep e (by simp [he])) (hstep event (by simp) y y₁ h hfirst) hrun

theorem System.run_attached (events : List (SystemEvent σ)) {y y' : System σ} (h : y.Inv) (ha : y.Attached)
    (hidle : y.DeletesIdle events) (hrun : y.run events = .ok y') : y'.Inv ∧ y'.Attached := by
  induction events generalizing y with
  | nil =>
    rw [← Except.ok.inj hrun]
    exact ⟨h,ha⟩
  | cons event events ih =>
    rw [run] at hrun
    cases hstep : y.step event with
    | error fault =>
      rw [hstep] at hrun
      exact absurd hrun (by simp)
    | ok y₁ =>
      rw [hstep] at hrun
      have hmoves := step_free hstep
      exact ih (hmoves.inv h) (hmoves.attached h ha hidle.1) (hidle.2 y₁ hstep) hrun

theorem timers_refer_to_queues (events : List (SystemEvent σ)) (hidle : System.boot.DeletesIdle events)
    (y : System σ) (hrun : System.boot.run events = .ok y) :
    ∀ id ∈ y.timers, ∃ e ∈ y.entries, e.id = id :=
  (System.run_attached events System.boot_inv (by simp [System.Attached,System.boot]) hidle hrun).2

theorem System.run_cons {y y' : System σ} {event : SystemEvent σ} (h : y.step event = .ok y')
    (events : List (SystemEvent σ)) : y.run (event :: events) = y'.run events := by
  rw [run,h]

-- A queue whose first connection is refused waits for its timer, and takes a message.
theorem System.push_refused {y : System σ} (hinit : y.sendQueues.isSome) (serviceName : σ)
    (hnew : y.lookup serviceName = none) {m : Message} (hm : m.size ≤ messengerSendQueueLength) :
    ∃ s s' : Station, y.step (.push serviceName m (fun _ => 0) .refused allSent .refused) =
        .ok (y.next.put ⟨serviceName,y.nextId,s.sq⟩ s') ∧
      s'.sq.serverSocket = none ∧ y.nextId ∈ s'.timers ∧ Holding s' [m] := by
  obtain ⟨s,hs,hwaiting⟩ := refused_waiting y.nextId (fun _ => 0) y.timers
  obtain ⟨s',hpush,hwaits⟩ :=
    hwaiting.push_first (Nat.lt_of_le_of_lt hm (by decide)) hm allSent .refused
  refine ⟨s,s',?_,hwaits.closed,hwaits.armed,hwaits.held⟩
  rw [step,pushMessageToSendQueue,if_neg (by simpa using Option.isSome_iff_ne_none.mp hinit)]
  simp only [hnew,hs,pushInto,hpush]

theorem pushMessage_open {id : QueueId} {s : Station} {m : Message} (hopen : s.sq.serverSocket.isSome)
    (hempty : Holding s []) (hm : m.size ≤ messengerSendLengthForFlush) (sends : Nat → SendOutcome)
    (outcome : ConnectOutcome) : pushMessage id s sends outcome m =
      .ok (true,[],⟨setWritable (queuedWith s.sq m) true,s.timers⟩) := by
  have hframed : m.Framed := Nat.lt_of_le_of_lt hm (by decide)
  have hdata : s.sq.buffer.dataLength = 0 := hempty.length.symm
  have hremain : ¬ messageBufferRemainBytes s.sq.buffer < m.length.toNat := by
    rw [messageBufferRemainBytes,hdata,hempty.size,Message.toNat_length hframed,Nat.not_lt]
    exact hm.trans (by decide)
  have hheld : Holding ⟨setWritable (queuedWith s.sq m) true,s.timers⟩ [m] :=
    hempty.write hframed hremain rfl
  have hshort : ¬ (setWritable (queuedWith s.sq m) true).buffer.dataLength > messengerSendLengthForFlush := by
    rw [← hheld.length,frames_cons,frames_nil,List.append_nil,Message.length_encode]
    exact Nat.not_lt.mpr hm
  rw [pushMessage]
  simp only [if_neg hremain]
  rw [if_neg (by simpa using Option.isSome_iff_ne_none.mp hopen)]
  exact if_neg hshort

-- A queue whose first connection succeeds takes a message and arms no timer.
theorem System.push_connected {y : System σ} (hinit : y.sendQueues.isSome) (serviceName : σ)
    (hnew : y.lookup serviceName = none) {m : Message} (hm : m.size ≤ messengerSendLengthForFlush) :
    ∃ s s' : Station, y.step (.push serviceName m (fun _ => 0) (.connected 3 none) allSent .refused) =
        .ok (y.next.put ⟨serviceName,y.nextId,s.sq⟩ s') ∧
      s'.sq.runningTimer = false ∧ s'.timers = y.timers := by
  obtain ⟨s,hs,hopen,hrunning,htimers⟩ := connected_created y.nextId (fun _ => 0) y.timers 3 none
  refine ⟨s,⟨setWritable (queuedWith s.sq m) true,s.timers⟩,?_,hrunning,htimers⟩
  rw [step,pushMessageToSendQueue,if_neg (by simpa using Option.isSome_iff_ne_none.mp hinit)]
  simp only [hnew,hs,pushInto,pushMessage_open hopen (createSendQueue_holding hs) hm]

theorem System.DeletesIdle.cons {y y' : System σ} {event : SystemEvent σ} {events : List (SystemEvent σ)}
    (h : y.step event = .ok y') (hidle : ∀ a ∈ y.entries, y.Doomed a event → a.sq.runningTimer = false)
    (hrest : y'.DeletesIdle events) : y.DeletesIdle (event :: events) := by
  refine ⟨hidle,?_⟩
  intro y₁ hstep
  rwa [← Except.ok.inj (h.symm.trans hstep)]

-- The dump of a connected queue is stopped while another queue waits for its timer.
theorem armed_queue_attached :
    ∃ y : System Nat, System.boot.run
        [.init,.startDump 7,.push 7 ⟨0,0,[1]⟩ (fun _ => 0) (.connected 3 none) allSent .refused,
          .push 8 ⟨0,0,[1]⟩ (fun _ => 0) .refused allSent .refused,.stopDump] = .ok y ∧
      y.lookup 7 = none ∧ 1 ∈ y.timers ∧ ∀ id ∈ y.timers, ∃ e ∈ y.entries, e.id = id := by
  let y₁ : System Nat := ⟨some [],[],some 7,0⟩
  have hinit : (System.boot : System Nat).step .init = .ok ⟨some [],[],none,0⟩ := rfl
  have hstart : (⟨some [],[],none,0⟩ : System Nat).step (.startDump 7) = .ok y₁ := rfl
  obtain ⟨s,s',hpush,hrunning,_⟩ :=
    System.push_connected (y := y₁) rfl 7 rfl (m := ⟨0,0,[1]⟩) (by decide)
  let y₂ : System Nat := y₁.next.put ⟨7,y₁.nextId,s.sq⟩ s'
  obtain ⟨t,t',hpush',_,harmed,_⟩ :=
    System.push_refused (y := y₂) rfl 8 rfl (m := ⟨0,0,[1]⟩) (by decide)
  let y₃ : System Nat := y₂.next.put ⟨8,y₂.nextId,t.sq⟩ t'
  have hstop : y₃.step .stopDump = .ok { y₃.deleteSendQueue 7 with dumpServiceName := none } := rfl
  have hrun := (System.run_cons hinit _).trans ((System.run_cons hstart _).trans
    ((System.run_cons hpush _).trans ((System.run_cons hpush' _).trans (System.run_cons hstop []))))
  refine ⟨_,hrun,rfl,harmed,timers_refer_to_queues _ ?_ _ hrun⟩
  have hkept : ∀ (y : System Nat) (event : SystemEvent Nat), (∀ a, ¬ y.Doomed a event) →
      ∀ a ∈ y.entries, y.Doomed a event → a.sq.runningTimer = false :=
    fun _ _ hnone a _ hdoomed => absurd hdoomed (hnone a)
  refine .cons hinit (hkept _ _ fun _ => id) (.cons hstart (hkept _ _ (by simp [System.Doomed])) ?_)
  refine .cons hpush (hkept _ _ fun _ => id) (.cons hpush' (hkept _ _ fun _ => id) (.cons hstop ?_ trivial))
  intro a ha hdoomed
  have hname : a.serviceName = 7 := (Option.some.inj hdoomed).symm
  have hentries : y₃.entries = [⟨8,1,t'.sq⟩,⟨7,0,s'.sq⟩] := rfl
  rw [hentries] at ha
  rcases List.mem_pair.mp ha with rfl | rfl
  · exact absurd hname (show 8 ≠ 7 by decide)
  · exact hrunning

theorem stopped_dump_leaves_timer :
    ∃ y : System Nat, System.boot.run
        [.init,.startDump 7,.push 7 ⟨0,0,[1]⟩ (fun _ => 0) .refused allSent .refused,.stopDump] = .ok y ∧
      0 ∈ y.timers ∧ y.entries = [] := by
  let y₁ : System Nat := ⟨some [],[],some 7,0⟩
  have hinit : (System.boot : System Nat).step .init = .ok ⟨some [],[],none,0⟩ := rfl
  have hstart : (⟨some [],[],none,0⟩ : System Nat).step (.startDump 7) = .ok y₁ := rfl
  obtain ⟨s,s',hpush,_,harmed,_⟩ := System.push_refused (y := y₁) rfl 7 rfl (m := ⟨0,0,[1]⟩) (by decide)
  have hstop : (y₁.next.put ⟨7,y₁.nextId,s.sq⟩ s').step .stopDump =
      .ok { (y₁.next.put ⟨7,y₁.nextId,s.sq⟩ s').deleteSendQueue 7 with dumpServiceName := none } := rfl
  have hrun := (System.run_cons hinit _).trans ((System.run_cons hstart _).trans
    ((System.run_cons hpush _).trans (System.run_cons hstop [])))
  exact ⟨_,hrun,harmed,rfl⟩

end Runs

end Trema.Messenger
