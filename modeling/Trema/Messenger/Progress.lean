import Trema.Messenger.System

namespace Trema.Messenger

section Queue

variable {id : QueueId} {s : Station} {pending : List Message}

-- An open queue writes what it holds; a closed one waits for its timer, or its connection failed for good.
structure Alive (s : Station) : Prop where
  holding : ∃ pending, Holding s pending
  opened : s.sq.serverSocket.isSome → s.sq.reconnectInterval = 0
  closed : s.sq.serverSocket = none → s.sq.runningTimer = true ∨ s.sq.reconnectInterval = -1
  writes : ∀ fd, s.sq.serverSocket = some fd → fd < fdSetSize →
    s.sq.handler = true ∧ (0 < s.sq.buffer.dataLength → s.sq.writable = true)

theorem Holding.header (h : Holding s pending) (hdata : 0 < s.sq.buffer.dataLength) :
    sizeofMessageHeader ≤ s.sq.buffer.dataLength := by
  have hlen := h.length
  by_contra hshort
  have hnil : pending = [] := frames_eq_nil (by rw [hlen]; exact Nat.lt_of_not_le hshort)
  rw [hnil,frames_nil,List.length_nil] at hlen
  omega

theorem connectTimer_alive (h : Holding s pending) (hnone : s.sq.serverSocket = none)
    (outcome : ConnectOutcome) : Alive (sendQueueConnectTimer id s outcome).2 := by
  have hheld : Holding (sendQueueConnectTimer id s outcome).2 pending :=
    h.of_buffer (buffer_connectTimer id s outcome)
  cases outcome with
  | failed =>
    rw [connectTimer_failed hnone] at hheld ⊢
    exact ⟨⟨pending,hheld⟩,by simp,by simp,by simp⟩
  | refused =>
    rw [connectTimer_refused hnone] at hheld ⊢
    exact ⟨⟨pending,hheld⟩,by simp,by simp,by simp⟩
  | connected fd size =>
    rw [connectTimer_connected hnone] at hheld ⊢
    refine ⟨⟨pending,hheld⟩,fun _ => rfl,by simp [connectedQueue],?_⟩
    intro fd' hfd hlt
    obtain rfl := Option.some.inj hfd
    simp only [connectedQueue,hlt,decide_true,Bool.true_and,decide_eq_true_eq,true_and]
    exact h.header

theorem tryConnect_alive (h : Holding s pending) (hnone : s.sq.serverSocket = none)
    (hready : s.sq.reconnectInterval = 0 ∨ s.sq.runningTimer = true ∨ s.sq.reconnectInterval = -1)
    (outcome : ConnectOutcome) : Alive (sendQueueTryConnect id s outcome).2 := by
  rw [sendQueueTryConnect]
  split
  · rename_i hwait
    exact ⟨⟨pending,h⟩,by simp [hnone],fun _ => hready.resolve_left hwait,by simp [hnone]⟩
  · exact connectTimer_alive h hnone outcome

-- The socket, its handler and the timer are as before; there is no more to write, or it is writable.
theorem Alive.keep (h : Alive s) {s' : Station} (hheld : Holding s' pending)
    (hsocket : s'.sq.serverSocket = s.sq.serverSocket)
    (hinterval : s'.sq.reconnectInterval = s.sq.reconnectInterval)
    (hrunning : s'.sq.runningTimer = s.sq.runningTimer) (hhandler : s'.sq.handler = s.sq.handler)
    (hwrites : ∀ fd, s.sq.serverSocket = some fd → fd < fdSetSize → 0 < s'.sq.buffer.dataLength →
      s'.sq.writable = true) : Alive s' := by
  refine ⟨⟨pending,hheld⟩,?_,?_,?_⟩
  · rw [hsocket,hinterval]
    exact h.opened
  · rw [hsocket,hinterval,hrunning]
    exact h.closed
  · intro fd hfd hlt
    rw [hsocket] at hfd
    rw [hhandler]
    exact ⟨(h.writes fd hfd hlt).1,hwrites fd hfd hlt⟩

theorem Writes.alive {outcome : ConnectOutcome} {s' : Station} (h : Alive s) (hopen : s.sq.serverSocket.isSome)
    (hheld : Holding s' pending) (hw : Writes id s outcome s') : Alive s' := by
  obtain ⟨before,hbefore⟩ := h.holding
  cases hw with
  | done hshort =>
    refine h.keep hheld rfl rfl rfl rfl ?_
    intro fd _ _ hdata
    exact absurd (hheld.header hdata) (Nat.not_le_of_lt hshort)
  | kept hle =>
    refine h.keep hheld rfl rfl rfl rfl ?_
    intro fd hfd hlt hdata
    exact (h.writes fd hfd hlt).2 (Nat.lt_of_lt_of_le hdata hle)
  | lost hle =>
    have hclosed : Holding ⟨{ closeSocket s.sq with refusedCount := 0 },s.timers⟩ before := hbefore.of_buffer rfl
    have hagain : Alive (reconnected id s outcome) :=
      tryConnect_alive hclosed rfl (.inl (h.opened hopen)) outcome
    refine hagain.keep hheld rfl rfl rfl rfl ?_
    intro fd hfd hlt hdata
    refine (hagain.writes fd hfd hlt).2 ?_
    have hbuffer : (reconnected id s outcome).sq.buffer = s.sq.buffer := buffer_tryConnect id _ outcome
    rw [hbuffer]
    exact Nat.lt_of_lt_of_le hdata hle

theorem onSendWrite_alive {sends : Nat → SendOutcome} {outcome : ConnectOutcome} {outputs : List Output}
    {s' : Station} (h : Alive s) (hopen : s.sq.serverSocket.isSome)
    (hwrite : onSendWrite id s sends outcome = .ok (outputs,s')) : Alive s' := by
  obtain ⟨before,hbefore⟩ := h.holding
  rcases onSendWrite_holding id outcome hbefore sends with ⟨_,s₁,_,left,hok,hwritten⟩ | ⟨_,herror⟩
  · rw [hwrite] at hok
    obtain ⟨_,rfl⟩ := Prod.mk.inj (Except.ok.inj hok)
    exact (onSendWrite_writes hwrite).alive h hopen hwritten.holding
  · exact absurd (hwrite.symm.trans herror) (by simp)

theorem queuedWith_alive {m : Message} (h : Alive s) (hopen : s.sq.serverSocket.isSome)
    (hheld : Holding ⟨queuedWith s.sq m,s.timers⟩ pending) :
    Alive ⟨setWritable (queuedWith s.sq m) true,s.timers⟩ := by
  refine h.keep (hheld.of_buffer rfl) rfl rfl rfl rfl ?_
  intro fd hfd hlt _
  have hhandler : s.sq.handler = true := (h.writes fd hfd hlt).1
  simp [setWritable,queuedWith,hopen,hhandler]

theorem Holding.admissible {m : Message} (h : Holding s pending)
    (hroom : ¬ messageBufferRemainBytes s.sq.buffer < m.length.toNat) : m.Admissible := by
  have hsize := h.size
  rw [messageBufferRemainBytes] at hroom
  rw [Message.Admissible]
  omega

theorem pushMessage_alive {sends : Nat → SendOutcome} {outcome : ConnectOutcome} {m : Message} {ok : Bool}
    {outputs : List Output} {s' : Station} (h : Alive s) (hm : m.Admissible → m.Framed)
    (hpush : pushMessage id s sends outcome m = .ok (ok,outputs,s')) : Alive s' := by
  obtain ⟨before,hbefore⟩ := h.holding
  have hqueued : ¬ messageBufferRemainBytes s.sq.buffer < m.length.toNat →
      Holding ⟨queuedWith s.sq m,s.timers⟩ (before ++ [m]) := by
    intro hroom
    exact hbefore.write (hm (hbefore.admissible hroom)) hroom rfl
  cases pushMessage_pushed hpush with
  | rejected overflow total =>
    refine h.keep (hbefore.of_buffer rfl) rfl rfl rfl rfl ?_
    intro fd hfd hlt
    exact (h.writes fd hfd hlt).2
  | closed hroom hclosed =>
    exact tryConnect_alive (hqueued hroom) hclosed (.inr (h.closed hclosed)) outcome
  | queued hroom hopen => exact queuedWith_alive h hopen (hqueued hroom)
  | flushed hroom hopen hwrite =>
    exact onSendWrite_alive (queuedWith_alive h hopen (hqueued hroom)) hopen hwrite

theorem onSendRead_alive {outcome : ConnectOutcome} {received : Bool} {s' : Station} (h : Alive s)
    (hopen : s.sq.serverSocket.isSome) (hread : onSendRead id s outcome received = some s') : Alive s' := by
  obtain ⟨before,hbefore⟩ := h.holding
  rw [onSendRead] at hread
  split at hread
  · rw [← Option.some.inj hread]
    exact h
  · simp only at hread
    split at hread
    · rw [← Option.some.inj hread]
      have hclosed : Holding ⟨closeSocket s.sq,s.timers⟩ before := hbefore.of_buffer rfl
      exact tryConnect_alive hclosed rfl (.inl (h.opened hopen)) outcome
    · exact absurd hread (by simp)

theorem connectTimeout_alive (h : Alive s) (outcome : ConnectOutcome) :
    Alive (sendQueueConnectTimeout id s outcome).2 := by
  obtain ⟨before,hbefore⟩ := h.holding
  have hfired : Holding ⟨{ s.sq with runningTimer := false },s.timers.erase id⟩ before := hbefore.of_buffer rfl
  rw [sendQueueConnectTimeout]
  cases hsocket : s.sq.serverSocket with
  | none => exact connectTimer_alive hfired hsocket outcome
  | some fd =>
    rw [connectTimer_open outcome (by simp [hsocket])]
    refine ⟨⟨before,hfired⟩,h.opened,?_,h.writes⟩
    intro hnone
    exact absurd (hsocket.symm.trans hnone) (by simp)

theorem clearSendQueue_alive (h : Alive s) : Alive (clearSendQueue s).2 := by
  obtain ⟨before,hbefore⟩ := h.holding
  have hheld := (clearSendQueue_holding hbefore).2
  have hempty : (clearSendQueue s).2.sq.buffer.dataLength = 0 := hheld.length.symm
  rw [clearSendQueue] at hheld hempty ⊢
  simp only at hheld hempty ⊢
  split at hheld
  · rename_i hdata
    rw [if_pos hdata]
    refine h.keep hheld rfl rfl rfl rfl ?_
    intro fd _ _ hpending
    exact absurd hpending (Nat.lt_irrefl 0)
  · rename_i hdata
    rw [if_neg hdata]
    refine h.keep hheld rfl rfl rfl rfl ?_
    intro fd _ _ hpending
    exact absurd hpending (Nat.lt_irrefl 0)

theorem QueueOp.alive {Q : ConnectOutcome → Prop} {s' : Station} (h : Alive s)
    (hop : QueueOp Message.Framed Q id s s') : Alive s' := by
  cases hop with
  | push hm _ hpush => exact pushMessage_alive h hm hpush
  | write hopen _ hwrite => exact onSendWrite_alive h hopen hwrite
  | read hopen _ hread => exact onSendRead_alive h hopen hread
  | timeout _ => exact connectTimeout_alive h _
  | clear => exact clearSendQueue_alive h

end Queue

section Connecting

variable {id : QueueId} {s : Station} {outcome : ConnectOutcome}

-- The attempt does not end in an error, and the event handler takes the descriptor that it returns.
def Settles : ConnectOutcome → Prop
  | .failed => False
  | .refused => True
  | .connected fd _ => fd < fdSetSize

-- No attempt of the queue has failed, and the event handler takes its descriptor.
structure Connectable (s : Station) : Prop where
  retries : s.sq.reconnectInterval ≠ -1
  handled : ∀ fd, s.sq.serverSocket = some fd → fd < fdSetSize

theorem Connectable.keep (h : Connectable s) {s' : Station}
    (hinterval : s'.sq.reconnectInterval = s.sq.reconnectInterval)
    (hsocket : s'.sq.serverSocket = s.sq.serverSocket) : Connectable s' := by
  refine ⟨?_,?_⟩
  · rw [hinterval]
    exact h.retries
  · rw [hsocket]
    exact h.handled

theorem Connectable.close (h : Connectable s) {s' : Station}
    (hinterval : s'.sq.reconnectInterval = s.sq.reconnectInterval) (hclosed : s'.sq.serverSocket = none) :
    Connectable s' :=
  ⟨by rw [hinterval]; exact h.retries,by simp [hclosed]⟩

theorem connectTimer_connectable (h : Connectable s) (hsettles : Settles outcome) :
    Connectable (sendQueueConnectTimer id s outcome).2 := by
  cases hsocket : s.sq.serverSocket with
  | some fd =>
    rw [connectTimer_open outcome (by simp [hsocket])]
    exact h
  | none =>
    cases outcome with
    | failed => exact hsettles.elim
    | refused =>
      rw [connectTimer_refused hsocket]
      have hpos : reconnectDelay (s.sq.refusedCount + 1) ≠ -1 := by
        have h := reconnectDelay_pos (s.sq.refusedCount + 1)
        omega
      exact ⟨hpos,by simp⟩
    | connected fd size =>
      rw [connectTimer_connected hsocket]
      refine ⟨show (0 : Int) ≠ -1 by decide,?_⟩
      intro fd' hfd
      rw [← Option.some.inj hfd]
      exact hsettles

theorem tryConnect_connectable (h : Connectable s) (hsettles : Settles outcome) :
    Connectable (sendQueueTryConnect id s outcome).2 := by
  rw [sendQueueTryConnect]
  split
  · exact h
  · exact connectTimer_connectable h hsettles

theorem Writes.connectable {s' : Station} (h : Connectable s) (hsettles : Settles outcome)
    (hw : Writes id s outcome s') : Connectable s' := by
  cases hw with
  | done => exact h.keep rfl rfl
  | kept => exact h.keep rfl rfl
  | lost =>
    have hclosed : Connectable ⟨{ closeSocket s.sq with refusedCount := 0 },s.timers⟩ := h.close rfl rfl
    have hagain : Connectable (reconnected id s outcome) := tryConnect_connectable hclosed hsettles
    exact hagain.keep rfl rfl

theorem Pushed.connectable {m : Message} {s' : Station} (h : Connectable s) (hsettles : Settles outcome)
    (hp : Pushed id s m outcome s') : Connectable s' := by
  have hqueued : ∀ writable, Connectable ⟨{ queuedWith s.sq m with writable := writable },s.timers⟩ :=
    fun _ => h.keep rfl rfl
  cases hp with
  | rejected => exact h.keep rfl rfl
  | closed => exact tryConnect_connectable (hqueued s.sq.writable) hsettles
  | queued => exact hqueued _
  | flushed _ _ hwrite => exact (onSendWrite_writes hwrite).connectable (hqueued _) hsettles

theorem onSendRead_connectable {received : Bool} {s' : Station} (h : Connectable s)
    (hsettles : Settles outcome) (hread : onSendRead id s outcome received = some s') : Connectable s' := by
  have hclosed : Connectable ⟨closeSocket s.sq,s.timers⟩ := h.close rfl rfl
  rw [onSendRead] at hread
  split at hread
  · rw [← Option.some.inj hread]
    exact h
  · simp only at hread
    split at hread
    · rw [← Option.some.inj hread]
      exact tryConnect_connectable hclosed hsettles
    · exact absurd hread (by simp)

theorem clearSendQueue_connectable (h : Connectable s) : Connectable (clearSendQueue s).2 := by
  rw [clearSendQueue]
  simp only
  split
  · exact h.keep rfl rfl
  · exact h.keep rfl rfl

theorem QueueOp.connectable {P : Message → Prop} {s' : Station} (h : Connectable s)
    (hop : QueueOp P Settles id s s') : Connectable s' := by
  cases hop with
  | push _ hsettles hpush => exact (pushMessage_pushed hpush).connectable h hsettles
  | write _ hsettles hwrite => exact (onSendWrite_writes hwrite).connectable h hsettles
  | read _ hsettles hread => exact onSendRead_connectable h hsettles hread
  | timeout hsettles =>
    have hfired : Connectable ⟨{ s.sq with runningTimer := false },s.timers.erase id⟩ := h.keep rfl rfl
    exact connectTimer_connectable hfired hsettles
  | clear => exact clearSendQueue_connectable h

end Connecting

section Runs

variable {σ : Type} [DecidableEq σ] {y y' : System σ}

def System.AllAlive (y : System σ) : Prop := ∀ e ∈ y.entries, Alive ⟨e.sq,y.timers⟩

-- What keeps a queue alive does not depend on the timers of the others.
theorem Alive.of_queue {sq : SendQueue} {timers timers' : List QueueId} (h : Alive ⟨sq,timers⟩) :
    Alive ⟨sq,timers'⟩ := by
  obtain ⟨pending,hheld⟩ := h.holding
  exact ⟨⟨pending,hheld.of_buffer rfl⟩,h.opened,h.closed,h.writes⟩

theorem System.AllAlive.put (h : y.AllAlive) {e : Entry σ} {s : Station} (hinit : y.sendQueues.isSome)
    (hs : Alive s) : (y.put e s).AllAlive := by
  intro a ha
  rcases (mem_put hinit).mp ha with rfl | ⟨ha,_⟩
  · exact hs
  · exact (h a ha).of_queue

def System.AllConnectable (y : System σ) : Prop := ∀ e ∈ y.entries, Connectable ⟨e.sq,y.timers⟩

theorem System.AllConnectable.put (h : y.AllConnectable) {e : Entry σ} {s : Station}
    (hinit : y.sendQueues.isSome) (hs : Connectable s) : (y.put e s).AllConnectable := by
  intro a ha
  rcases (mem_put hinit).mp ha with rfl | ⟨ha,_⟩
  · exact hs
  · exact (h a ha).keep rfl rfl

end Runs

end Trema.Messenger
