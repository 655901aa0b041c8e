import Trema.Messenger.Delivery

namespace Trema.Messenger

open Library

-- An empty queue has room for the message, as far as its length field tells.
def Message.Admissible (m : Message) : Prop := m.length.toNat ≤ messengerSendQueueLength

inductive QueueEvent where
  | push (m : Message) (sends : Nat → SendOutcome) (outcome : ConnectOutcome)
  | write (sends : Nat → SendOutcome) (outcome : ConnectOutcome)
  | read (received : Bool) (outcome : ConnectOutcome)
  | timeout (outcome : ConnectOutcome)
  | clear

-- The life of one queue: the messages it accepted and what it made of them. There is no station once
-- the queue has been deleted.
structure QueueRun where
  accepted : List Message
  outputs : List Output
  station : Option Station

-- The event handler calls the handlers of a descriptor only while it is in the set.
def queueStep (id : QueueId) (r : QueueRun) (event : QueueEvent) : Except Fault QueueRun :=
  match r.station with
  | none => .ok r
  | some s =>
    match event with
    | .push m sends outcome =>
      match pushMessage id s sends outcome m with
      | .error e => .error e
      | .ok (ok,outputs,s) =>
        .ok ⟨if ok then r.accepted ++ [m] else r.accepted,r.outputs ++ outputs,some s⟩
    | .write sends outcome =>
      if s.sq.serverSocket.isSome && s.sq.writable then
        match onSendWrite id s sends outcome with
        | .error e => .error e
        | .ok (outputs,s) => .ok ⟨r.accepted,r.outputs ++ outputs,some s⟩
      else .ok r
    | .read received outcome =>
      if s.sq.serverSocket.isSome && s.sq.readable then
        .ok ⟨r.accepted,r.outputs,onSendRead id s outcome received⟩
      else .ok r
    | .timeout outcome =>
      if id ∈ s.timers then .ok ⟨r.accepted,r.outputs,some (sendQueueConnectTimeout id s outcome).2⟩
      else .ok r
    | .clear => .ok ⟨r.accepted,r.outputs ++ (clearSendQueue s).1,some (clearSendQueue s).2⟩

def queueRun (id : QueueId) : QueueRun → List QueueEvent → Except Fault QueueRun
  | r, [] => .ok r
  | r, event :: events =>
    match queueStep id r event with
    | .error e => .error e
    | .ok r => queueRun id r events

theorem queueRun_append {id : QueueId} {r r' : QueueRun} {events : List QueueEvent}
    (h : queueRun id r events = .ok r') (later : List QueueEvent) :
    queueRun id r (events ++ later) = queueRun id r' later := by
  induction events generalizing r with
  | nil =>
    obtain rfl := Except.ok.inj h
    rfl
  | cons event events ih =>
    rw [queueRun] at h
    rw [List.cons_append,queueRun]
    cases hstep : queueStep id r event with
    | error e =>
      rw [hstep] at h
      exact absurd h (by simp)
    | ok r₁ =>
      rw [hstep] at h
      exact ih h

section Operations

variable {s : Station} {pending : List Message}

theorem Holding.write {m : Message} (h : Holding s pending) (hm : m.Framed)
    (hroom : ¬ messageBufferRemainBytes s.sq.buffer < m.length.toNat) {s' : Station}
    (hs' : s'.sq.buffer =
      (writeMessageBuffer (writeMessageBuffer s.sq.buffer m.header).2 m.data).2) :
    Holding s' (pending ++ [m]) := by
  rw [Message.toNat_length hm,Message.size,sizeofMessageHeader] at hroom
  have hhead : m.header.length ≤ messageBufferRemainBytes s.sq.buffer := by
    rw [Message.length_header]
    omega
  have hcontents := contents_write s.sq.buffer hhead
  have hsize := size_write s.sq.buffer m.header
  have hlength : (writeMessageBuffer s.sq.buffer m.header).2.dataLength = s.sq.buffer.dataLength + 8 := by
    rw [← MessageBuffer.length_contents,hcontents,List.length_append,MessageBuffer.length_contents,
      Message.length_header]
  have htail : m.data.length ≤
      messageBufferRemainBytes (writeMessageBuffer s.sq.buffer m.header).2 := by
    rw [messageBufferRemainBytes,hsize,hlength]
    rw [messageBufferRemainBytes] at hroom
    omega
  refine ⟨?_,?_,by rw [hs',size_write,hsize,h.size]⟩
  · rw [hs',contents_write _ htail,hcontents,h.contents,frames_append,frames_cons,frames_nil,
      List.append_nil,Message.encode,List.append_assoc]
  · intro a ha
    rcases List.mem_append.mp ha with ha | ha
    · exact h.framed a ha
    · rw [List.mem_singleton.mp ha]
      exact hm

variable (id : QueueId) (sends : Nat → SendOutcome) (outcome : ConnectOutcome)

theorem pushMessage_holding (h : Holding s pending) {m : Message} (hm : m.Framed) :
    (∃ s', pushMessage id s sends outcome m = .ok (false,[],s') ∧ Holding s' pending) ∨
    (∃ outputs s' delivered left, pushMessage id s sends outcome m = .ok (true,outputs,s') ∧
      Explained (pending ++ [m]) outputs delivered left ∧ Holding s' left ∧
      ((∀ a ∈ pending ++ [m], a.size ≤ messengerRecvBuffer) → WithinRecv outputs)) ∨
    (∃ a ∈ pending ++ [m], ¬ a.Sendable) ∧
      pushMessage id s sends outcome m = .error .assertionFailed := by
  have hsilent : WithinRecv [] := by
    intro bytes result hmem
    simp at hmem
  rw [pushMessage]
  simp only
  split
  · exact .inl ⟨_,rfl,h.of_buffer rfl⟩
  · rename_i hroom
    split
    · refine .inr (.inl ⟨_,_,_,_,rfl,.done _,h.write hm hroom ?_,fun _ => hsilent⟩)
      exact buffer_tryConnect id _ outcome
    · split
      · let buf := (writeMessageBuffer (writeMessageBuffer s.sq.buffer m.header).2 m.data).2
        let sq := { s.sq with overflow := 0, overflowTotalLength := 0, buffer := buf }
        have hheld : Holding ⟨setWritable sq true,s.timers⟩ (pending ++ [m]) := h.write hm hroom rfl
        rcases onSendWrite_holding id outcome hheld sends with
          ⟨outputs,s',delivered,left,hok,hwritten⟩ | ⟨hlarge,herror⟩
        · rw [hok]
          exact .inr (.inl ⟨_,_,_,_,rfl,hwritten.explained,hwritten.holding,hwritten.within⟩)
        · rw [herror]
          exact .inr (.inr ⟨hlarge,rfl⟩)
      · exact .inr (.inl ⟨_,_,_,_,rfl,.done _,h.write hm hroom rfl,fun _ => hsilent⟩)

-- Messages that do not fit an empty queue are never accepted.
theorem pushMessage_rejects (h : Holding s pending) {m : Message} (hm : ¬ m.Admissible) :
    ∃ s', pushMessage id s sends outcome m = .ok (false,[],s') ∧ Holding s' pending := by
  have hsize := h.size
  rw [pushMessage]
  simp only
  rw [if_pos]
  · exact ⟨_,rfl,h.of_buffer rfl⟩
  · rw [Message.Admissible] at hm
    rw [messageBufferRemainBytes]
    omega

theorem onSendRead_holding (h : Holding s pending) (received : Bool) :
    (∃ s', onSendRead id s outcome received = some s' ∧ Holding s' pending) ∨
    onSendRead id s outcome received = none ∧ pending = [] := by
  rw [onSendRead]
  split
  · exact .inl ⟨s,rfl,h⟩
  · simp only
    split
    · refine .inl ⟨_,rfl,h.of_buffer ?_⟩
      exact buffer_tryConnect id _ outcome
    · rename_i hempty
      refine .inr ⟨rfl,frames_eq_nil ?_⟩
      have hdata : (closeSocket s.sq).buffer = s.sq.buffer := rfl
      rw [hdata] at hempty
      rw [h.length]
      omega

theorem connectTimeout_holding (h : Holding s pending) :
    Holding (sendQueueConnectTimeout id s outcome).2 pending :=
  h.of_buffer (buffer_connectTimer id _ outcome)

theorem clearSendQueue_holding (h : Holding s pending) :
    (clearSendQueue s).1 = [.cleared (frames pending)] ∧ Holding (clearSendQueue s).2 [] := by
  refine ⟨?_,rfl,by simp,?_⟩
  · rw [clearSendQueue]
    simp only [h.contents]
  · change s.sq.buffer.cleared.size = _
    rw [MessageBuffer.size_cleared,h.size]

end Operations

section Runs

def QueueEvent.Pushes (P : Message → Prop) : QueueEvent → Prop
  | .push m _ _ => m.Admissible → P m
  | _ => True

variable {P : Message → Prop} {id : QueueId} {r : QueueRun} {delivered pending : List Message}

-- The accepted messages all satisfy `P`; they are delivered, discarded or pending.
structure Accounted (P : Message → Prop) (r : QueueRun) (delivered pending : List Message) : Prop where
  accepted : ∀ m ∈ r.accepted, P m
  explained : Explained r.accepted r.outputs delivered pending
  holding : ∀ s, r.station = some s → Holding s pending
  deleted : r.station = none → pending = []
  within : (∀ m, P m → m.size ≤ messengerRecvBuffer) → WithinRecv r.outputs

theorem Accounted.pending_ok (h : Accounted P r delivered pending) : ∀ m ∈ pending, P m := by
  obtain ⟨gone,hgone⟩ := h.explained.pending_suffix
  intro m hm
  refine h.accepted m ?_
  rw [hgone]
  simp [hm]

theorem WithinRecv.append {outputs outputs' : List Output} (h : WithinRecv outputs) (h' : WithinRecv outputs') :
    WithinRecv (outputs ++ outputs') := by
  intro bytes result hmem
  rcases List.mem_append.mp hmem with hmem | hmem
  · exact h bytes result hmem
  · exact h' bytes result hmem

theorem queueStep_accounted (hframed : ∀ m, P m → m.Framed) (h : Accounted P r delivered pending)
    (event : QueueEvent) (hevent : event.Pushes P) :
    (∃ r' delivered' pending', queueStep id r event = .ok r' ∧ Accounted P r' delivered' pending') ∨
    (∃ m, P m ∧ ¬ m.Sendable) ∧ queueStep id r event = .error .assertionFailed := by
  rw [queueStep]
  cases hs : r.station with
  | none => exact .inl ⟨_,_,_,rfl,h⟩
  | some s =>
    have hheld := h.holding s hs
    cases event with
    | push m sends outcome =>
      have hrejected : ∀ s', Holding s' pending → Accounted P
          ⟨r.accepted,r.outputs ++ [],some s'⟩ delivered pending := by
        intro s' hheld'
        rw [List.append_nil]
        refine ⟨h.accepted,h.explained,?_,by simp,h.within⟩
        intro s'' heq
        rw [← Option.some.inj heq]
        exact hheld'
      by_cases hfits : m.Admissible
      · have hm : P m := hevent hfits
        have hall : ∀ a ∈ pending ++ [m], P a := by
          intro a ha
          rcases List.mem_append.mp ha with ha | ha
          · exact h.pending_ok a ha
          · rw [List.mem_singleton.mp ha]
            exact hm
        rcases pushMessage_holding id sends outcome hheld (hframed m hm) with
          ⟨s',hok,hheld'⟩ | ⟨outputs,s',delivered',left,hok,hexp,hheld',hwithin⟩ | ⟨⟨a,ha,hlarge⟩,herror⟩
        · simp only [hok]
          exact .inl ⟨_,delivered,pending,rfl,hrejected s' hheld'⟩
        · simp only [hok]
          refine .inl ⟨_,delivered ++ delivered',left,rfl,?_,?_,?_,by simp,?_⟩
          · intro a ha
            rcases List.mem_append.mp ha with ha | ha
            · exact h.accepted a ha
            · rw [List.mem_singleton.mp ha]
              exact hm
          · exact (h.explained.extend [m]).trans hexp
          · intro s'' heq
            rw [← Option.some.inj heq]
            exact hheld'
          · intro hsmall
            exact (h.within hsmall).append (hwithin fun a ha => hsmall a (hall a ha))
        · simp only [herror]
          exact .inr ⟨⟨a,hall a ha,hlarge⟩,trivial⟩
      · obtain ⟨s',hok,hheld'⟩ := pushMessage_rejects id sends outcome hheld hfits
        simp only [hok]
        exact .inl ⟨_,delivered,pending,rfl,hrejected s' hheld'⟩
    | write sends outcome =>
      simp only
      split
      · rcases onSendWrite_holding id outcome hheld sends with
          ⟨outputs,s',delivered',left,hok,hwritten⟩ | ⟨⟨a,ha,hlarge⟩,herror⟩
        · rw [hok]
          refine .inl ⟨_,delivered ++ delivered',left,rfl,h.accepted,
            h.explained.trans hwritten.explained,?_,by simp,?_⟩
          · intro s'' heq
            rw [← Option.some.inj heq]
            exact hwritten.holding
          · intro hsmall
            exact (h.within hsmall).append (hwritten.within fun a ha => hsmall a (h.pending_ok a ha))
        · rw [herror]
          exact .inr ⟨⟨a,h.pending_ok a ha,hlarge⟩,rfl⟩
      · exact .inl ⟨_,_,_,rfl,h⟩
    | read received outcome =>
      simp only
      split
      · rcases onSendRead_holding id outcome hheld received with ⟨s',hok,hheld'⟩ | ⟨hnone,hnil⟩
        · rw [hok]
          refine .inl ⟨_,delivered,pending,rfl,h.accepted,h.explained,?_,by simp,h.within⟩
          intro s'' heq
          rw [← Option.some.inj heq]
          exact hheld'
        · rw [hnone]
          exact .inl ⟨_,delivered,pending,rfl,h.accepted,h.explained,by simp,fun _ => hnil,h.within⟩
      · exact .inl ⟨_,_,_,rfl,h⟩
    | timeout outcome =>
      simp only
      split
      · refine .inl ⟨_,delivered,pending,rfl,h.accepted,h.explained,?_,by simp,h.within⟩
        intro s'' heq
        rw [← Option.some.inj heq]
        exact connectTimeout_holding id outcome hheld
      · exact .inl ⟨_,_,_,rfl,h⟩
    | clear =>
      obtain ⟨hout,hheld'⟩ := clearSendQueue_holding hheld
      have hexp : Explained (pending ++ []) [.cleared (frames pending)] [] [] := .cleared (.done [])
      rw [List.append_nil] at hexp
      simp only [hout]
      refine .inl ⟨_,delivered ++ [],[],rfl,h.accepted,h.explained.trans hexp,?_,fun _ => rfl,?_⟩
      · intro s'' heq
        rw [← Option.some.inj heq]
        exact hheld'
      · intro hsmall
        refine (h.within hsmall).append ?_
        intro bytes result hmem
        simp at hmem

theorem queueRun_accounted (hframed : ∀ m, P m → m.Framed) (events : List QueueEvent)
    (h : Accounted P r delivered pending) (hevents : ∀ e ∈ events, e.Pushes P) :
    (∃ r' delivered' pending', queueRun id r events = .ok r' ∧ Accounted P r' delivered' pending') ∨
    (∃ m, P m ∧ ¬ m.Sendable) ∧ queueRun id r events = .error .assertionFailed := by
  induction events generalizing r delivered pending with
  | nil => exact .inl ⟨_,_,_,rfl,h⟩
  | cons event events ih =>
    rw [queueRun]
    rcases queueStep_accounted hframed h event (hevents event (by simp)) with
      ⟨r',delivered',pending',hok,h'⟩ | ⟨hlarge,herror⟩
    · rw [hok]
      exact ih h' fun e he => hevents e (by simp [he])
    · rw [herror]
      exact .inr ⟨hlarge,rfl⟩

variable {heap : Nat → UInt8} {timers : List QueueId} {outcome : ConnectOutcome} {s : Station}

theorem createSendQueue_holding (h : createSendQueue id outcome heap timers = some s) : Holding s [] := by
  rw [createSendQueue] at h
  generalize hq : (⟨none,0,0,createMessageBuffer heap messengerSendQueueLength,
    false,0,0,0,false,false,false⟩ : SendQueue) = sq at h
  have hbuffer := buffer_tryConnect id ⟨sq,timers⟩ outcome
  have hempty : Holding ⟨sq,timers⟩ [] := by
    rw [← hq]
    exact ⟨contents_create _ _,by simp,size_create _ _⟩
  split at h
  · exact absurd h (by simp)
  · rename_i heq
    rw [heq] at hbuffer
    rw [← Option.some.inj h]
    exact hempty.of_buffer hbuffer

def newRun (s : Station) : QueueRun := ⟨[],[],some s⟩

theorem newRun_accounted (P : Message → Prop) (h : createSendQueue id outcome heap timers = some s) :
    Accounted P (newRun s) [] [] := by
  refine ⟨by simp [newRun],.done _,?_,fun _ => rfl,?_⟩
  · intro s' heq
    rw [← Option.some.inj heq]
    exact createSendQueue_holding h
  · intro _ bytes result hmem
    simp [newRun] at hmem

theorem send_queue_delivers (hcreate : createSendQueue id outcome heap timers = some s)
    (events : List QueueEvent) (hevents : ∀ e ∈ events, e.Pushes Message.Sendable) :
    ∃ r delivered pending, queueRun id (newRun s) events = .ok r ∧
      Explained r.accepted r.outputs delivered pending ∧ (r.station = none → pending = []) ∧
      ∀ s', r.station = some s' → s'.sq.buffer.contents = frames pending ∧
        ∀ sends outcome, (∀ n, (sends n).result = .sent) → ∃ outputs s'',
          onSendWrite id s' sends outcome = .ok (outputs,s'') ∧ Explained pending outputs pending [] := by
  rcases queueRun_accounted (fun m hm => hm.framed) events (newRun_accounted _ hcreate) hevents with
    ⟨r,delivered,pending,hok,h⟩ | ⟨⟨m,hm,hlarge⟩,_⟩
  · refine ⟨r,delivered,pending,hok,h.explained,h.deleted,?_⟩
    intro s' hs'
    have hheld := h.holding s' hs'
    refine ⟨hheld.contents,?_⟩
    intro sends outcome hsent
    rcases onSendWrite_holding id outcome hheld sends with
      ⟨outputs,s'',delivered',left,hwrite,hwritten⟩ | ⟨⟨m,hm,hlarge⟩,_⟩
    · obtain ⟨rfl,rfl,_⟩ := hwritten.drained hsent
      exact ⟨outputs,s'',hwrite,hwritten.explained⟩
    · exact absurd (h.pending_ok m hm) hlarge
  · exact absurd hm hlarge

end Runs

section Waiting

variable {id : QueueId} {s : Station} {m : Message} {pending : List Message}

-- A queue that was refused and waits for its timer with the pending messages.
structure Waiting (id : QueueId) (s : Station) (pending : List Message) : Prop where
  closed : s.sq.serverSocket = none
  waits : s.sq.reconnectInterval ≠ 0
  armed : id ∈ s.timers
  held : Holding s pending

theorem reconnectDelay_pos (n : Nat) : 0 < reconnectDelay n := by
  rw [reconnectDelay,Nat.shiftLeft_eq,Nat.one_mul]
  exact Int.natCast_pos.mpr (Nat.two_pow_pos _)

theorem refused_waiting (id : QueueId) (heap : Nat → UInt8) (timers : List QueueId) :
    ∃ s, createSendQueue id .refused heap timers = some s ∧ Waiting id s [] := by
  generalize hq : (⟨none,0,0,createMessageBuffer heap messengerSendQueueLength,
    false,0,0,0,false,false,false⟩ : SendQueue) = sq
  have hinterval : sq.reconnectInterval = 0 := by rw [← hq]
  have hnone : sq.serverSocket = none := by rw [← hq]
  obtain ⟨s,hs,hwait⟩ : ∃ s, createSendQueue id .refused heap timers = some s ∧
      s = (sendQueueConnectTimer id ⟨sq,timers⟩ .refused).2 := by
    rw [createSendQueue,sendQueueTryConnect,hq,if_neg (by simp [hinterval]),connectTimer_refused hnone]
    exact ⟨_,rfl,rfl⟩
  have hheld := createSendQueue_holding hs
  rw [connectTimer_refused hnone] at hwait
  subst hwait
  exact ⟨_,hs,rfl,(reconnectDelay_pos _).ne',List.mem_cons_self,hheld⟩

theorem Waiting.push (h : Waiting id s pending) (hm : m.Framed)
    (hroom : (frames pending).length + m.size ≤ messengerSendQueueLength) (sends : Nat → SendOutcome)
    (outcome : ConnectOutcome) :
    ∃ s', pushMessage id s sends outcome m = .ok (true,[],s') ∧ Waiting id s' (pending ++ [m]) := by
  have hdata := h.held.length
  have hremain : ¬ messageBufferRemainBytes s.sq.buffer < m.length.toNat := by
    rw [messageBufferRemainBytes,← hdata,h.held.size,Message.toNat_length hm]
    omega
  rw [pushMessage]
  simp only [if_neg hremain,h.closed,Option.isNone_none,if_true,sendQueueTryConnect]
  rw [if_pos h.waits]
  exact ⟨_,rfl,rfl,h.waits,h.armed,h.held.write hm hremain rfl⟩

theorem Waiting.push_first (h : Waiting id s []) (hm : m.Framed) (hroom : m.size ≤ messengerSendQueueLength)
    (sends : Nat → SendOutcome) (outcome : ConnectOutcome) :
    ∃ s', pushMessage id s sends outcome m = .ok (true,[],s') ∧ Waiting id s' [m] :=
  h.push hm (by rwa [frames_nil,List.length_nil,Nat.zero_add]) sends outcome

-- A message for a queue that waits is queued; the timer makes the connection.
theorem Waiting.queues (h : Waiting id s pending) (hm : m.Framed)
    (hroom : (frames pending).length + m.size ≤ messengerSendQueueLength) (accepted : List Message)
    (outputs : List Output) (sends : Nat → SendOutcome) :
    ∃ s', queueStep id ⟨accepted,outputs,some s⟩ (.push m sends .refused) =
        .ok ⟨accepted ++ [m],outputs,some s'⟩ ∧ Waiting id s' (pending ++ [m]) := by
  obtain ⟨s',hpush,hwaiting⟩ := h.push hm hroom sends .refused
  refine ⟨s',?_,hwaiting⟩
  simp only [queueStep,hpush,List.append_nil,if_true]

theorem Waiting.connects (h : Waiting id s pending) (hne : pending ≠ []) (accepted : List Message)
    (outputs : List Output) :
    ∃ s', queueStep id ⟨accepted,outputs,some s⟩ (.timeout (.connected 3 none)) =
        .ok ⟨accepted,outputs,some s'⟩ ∧ Holding s' pending ∧ s'.sq.serverSocket = some 3 ∧
      s'.sq.writable = true ∧ s'.sq.socketBufferSize = 0 := by
  let stopped : Station := ⟨{ s.sq with runningTimer := false },s.timers.erase id⟩
  have hstopped : stopped.sq.serverSocket = none := h.closed
  have hconnect : (sendQueueConnectTimeout id s (.connected 3 none)).2 =
      ⟨connectedQueue stopped.sq 3 none,disarmed id stopped⟩ :=
    congrArg Prod.snd (connectTimer_connected hstopped 3 none)
  have hdata : sizeofMessageHeader ≤ s.sq.buffer.dataLength := by
    rw [← h.held.length]
    exact Nat.le_of_not_lt fun hshort => hne (frames_eq_nil hshort)
  refine ⟨_,?_,connectTimeout_holding id (.connected 3 none) h.held,?_,?_,?_⟩
  · simp only [queueStep,if_pos h.armed]
  · rw [hconnect]
    rfl
  · rw [hconnect]
    simp [connectedQueue,stopped,hdata,fdSetSize]
  · rw [hconnect]
    rfl

theorem queueRun_step {r r' : QueueRun} {event : QueueEvent} (h : queueStep id r event = .ok r')
    (events : List QueueEvent) : queueRun id r (event :: events) = queueRun id r' events := by
  rw [queueRun,h]

theorem Waiting.push_connects (h : Waiting id s []) (hm : m.Framed) (hroom : m.size ≤ messengerSendQueueLength)
    (sends : Nat → SendOutcome) :
    ∃ s', queueRun id (newRun s) [.push m sends .refused,.timeout (.connected 3 none)] =
        .ok ⟨[m],[],some s'⟩ ∧
      Holding s' [m] ∧ s'.sq.serverSocket = some 3 ∧ s'.sq.writable = true := by
  obtain ⟨s₁,hpush,hwaiting⟩ := h.queues hm (by rwa [frames_nil,List.length_nil,Nat.zero_add]) [] [] sends
  obtain ⟨s₂,hconnect,hheld,hopen,hwritable,_⟩ := hwaiting.connects (by simp) [m] []
  exact ⟨s₂,(queueRun_step hpush _).trans (queueRun_step hconnect _),hheld,hopen,hwritable⟩

theorem Waiting.push_aborts (h : Waiting id s []) (hm : m.Framed) (hroom : m.size ≤ messengerSendQueueLength)
    (hlarge : ¬ m.Sendable) {sends : Nat → SendOutcome} (hsends : ∀ n, (sends n).result = .sent)
    (outcome : ConnectOutcome) :
    queueRun id (newRun s) [.push m sends .refused,.timeout (.connected 3 none),.write sends outcome] =
      .error .assertionFailed := by
  obtain ⟨s',hrun,hheld,hopen,hwritable⟩ := h.push_connects hm hroom sends
  have hnext := queueRun_append hrun [.write sends outcome]
  refine Eq.trans hnext ?_
  rw [queueRun,queueStep]
  simp only [hopen,hwritable,Option.isSome_some,Bool.and_self,if_true]
  rcases onSendWrite_holding id outcome hheld sends with ⟨_,_,_,_,_,hwritten⟩ | ⟨_,herror⟩
  · obtain ⟨_,_,hall⟩ := hwritten.drained hsends
    exact absurd (hall m (by simp)) hlarge
  · rw [herror]

theorem connected_created (id : QueueId) (heap : Nat → UInt8) (timers : List QueueId) (fd : Nat)
    (socketBufferSize : Option Nat) :
    ∃ s, createSendQueue id (.connected fd socketBufferSize) heap timers = some s ∧
      s.sq.serverSocket.isSome ∧ s.sq.runningTimer = false ∧ s.timers = timers := by
  generalize hq : (⟨none,0,0,createMessageBuffer heap messengerSendQueueLength,
    false,0,0,0,false,false,false⟩ : SendQueue) = sq
  have hinterval : sq.reconnectInterval = 0 := by rw [← hq]
  have hnone : sq.serverSocket = none := by rw [← hq]
  have hrunning : sq.runningTimer = false := by rw [← hq]
  rw [createSendQueue,sendQueueTryConnect,hq,if_neg (by simp [hinterval]),connectTimer_connected hnone]
  refine ⟨_,rfl,rfl,rfl,?_⟩
  rw [disarmed,if_neg (by simp [hrunning])]

def allSent : Nat → SendOutcome := fun _ => ⟨none,.sent⟩

def zeros (n : Nat) : Message := ⟨0,0,List.replicate n 0⟩

theorem size_zeros (n : Nat) : (zeros n).size = 8 + n := by
  rw [Message.size,zeros,List.length_replicate,sizeofMessageHeader]

theorem oversized_push_aborts :
    ∃ s, createSendQueue 0 .refused (fun _ => 0) [] = some s ∧
      (∃ s', pushMessage 0 s allSent .refused (zeros 199992) = .ok (true,[],s')) ∧
      queueRun 0 (newRun s)
        [.push (zeros 199992) allSent .refused,.timeout (.connected 3 none),.write allSent .refused] =
        .error .assertionFailed := by
  have hframed : (zeros 199992).Framed := by
    rw [Message.Framed,size_zeros]
    decide
  have hroom : (zeros 199992).size ≤ messengerSendQueueLength := by
    rw [size_zeros]
    decide
  have hlarge : ¬ (zeros 199992).Sendable := by
    rw [Message.Sendable,size_zeros]
    decide
  obtain ⟨s,hs,hwaiting⟩ := refused_waiting 0 (fun _ => 0) []
  obtain ⟨s',hpush,_⟩ := hwaiting.push_first hframed hroom allSent .refused
  exact ⟨s,hs,⟨s',hpush⟩,hwaiting.push_aborts hframed hroom hlarge (fun _ => rfl) .refused⟩

def twoMessages : List Message := [⟨0,1,[1,2]⟩,⟨0,2,[3]⟩]

-- Both messages wait for the connection and go out in one packet.
theorem two_messages_delivered :
    ∃ s s', createSendQueue 0 .refused (fun _ => 0) [] = some s ∧
      queueRun 0 (newRun s)
        [.push ⟨0,1,[1,2]⟩ allSent .refused,.push ⟨0,2,[3]⟩ allSent .refused,
          .timeout (.connected 3 none),.write allSent .refused] =
        .ok ⟨twoMessages,[.packet (frames twoMessages) .sent],some s'⟩ ∧
      (∃ delivered, Explained twoMessages [.packet (frames twoMessages) .sent] delivered []) ∧
      s'.sq.buffer.contents = [] := by
  obtain ⟨s,hs,hwaiting⟩ := refused_waiting 0 (fun _ => 0) []
  obtain ⟨s₁,hfirst,hwaiting₁⟩ :=
    hwaiting.queues (m := ⟨0,1,[1,2]⟩) (by decide : 10 < 4294967296) (by decide) [] [] allSent
  obtain ⟨s₂,hsecond,hwaiting₂⟩ :=
    hwaiting₁.queues (m := ⟨0,2,[3]⟩) (by decide : 9 < 4294967296) (by decide) [⟨0,1,[1,2]⟩] [] allSent
  obtain ⟨s₃,hconnect,hheld,hopen,hwritable,hunlimited⟩ := hwaiting₂.connects (by simp) twoMessages []
  have hbucket : (frames twoMessages).length ≤ bucketSize s₃.sq.socketBufferSize none := by
    rw [hunlimited]
    decide
  have hsendable : ∀ m ∈ twoMessages, m.Sendable := by
    intro m hm
    simp only [twoMessages,List.mem_cons,List.not_mem_nil,or_false] at hm
    rcases hm with rfl | rfl
    · exact (by decide : 10 < 200000)
    · exact (by decide : 9 < 200000)
  have hsent : ∀ n, (allSent n).result = .sent := fun _ => rfl
  obtain ⟨s',hwrite,hempty⟩ := onSendWrite_single 0 .refused hheld (by simp) hsendable hsent hbucket
  have hlast : queueStep 0 ⟨twoMessages,[],some s₃⟩ (.write allSent .refused) =
      .ok ⟨twoMessages,[.packet (frames twoMessages) .sent],some s'⟩ := by
    simp only [queueStep,hopen,hwritable,Option.isSome_some,Bool.and_self,if_true,hwrite]
    rfl
  have hrun := (queueRun_step hfirst _).trans ((queueRun_step hsecond _).trans
    ((queueRun_step hconnect _).trans (queueRun_step hlast [])))
  obtain ⟨r,delivered,pending,hok,hexplained,_,hstation⟩ := send_queue_delivers hs
    [.push ⟨0,1,[1,2]⟩ allSent .refused,.push ⟨0,2,[3]⟩ allSent .refused,
      .timeout (.connected 3 none),.write allSent .refused]
    (by
      intro e he
      simp only [List.mem_cons,List.not_mem_nil,or_false] at he
      rcases he with rfl | rfl | rfl | rfl
      · exact fun _ => (by decide : 10 < 200000)
      · exact fun _ => (by decide : 9 < 200000)
      · trivial
      · trivial)
  obtain rfl := Except.ok.inj (hrun.symm.trans hok)
  have hnone : pending = [] := by
    refine frames_eq_nil ?_
    rw [← (hstation s' rfl).1,hempty.contents]
    decide
  subst hnone
  exact ⟨s,s',hs,hrun,⟨delivered,hexplained⟩,hempty.contents⟩

end Waiting

end Trema.Messenger
