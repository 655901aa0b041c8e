import Trema.Messenger.SendQueue

namespace Trema.Messenger

variable {id : QueueId} {s : Station}

-- The queue knows whether its timer is armed, and has none while it is connected.
structure Armed (id : QueueId) (s : Station) : Prop where
  nodup : s.timers.Nodup
  armed : id ∈ s.timers ↔ s.sq.runningTimer = true
  idle : s.sq.serverSocket.isSome → s.sq.runningTimer = false

-- The timers of the other queues.
def SameElsewhere (id : QueueId) (timers timers' : List QueueId) : Prop :=
  ∀ other, other ≠ id → (other ∈ timers' ↔ other ∈ timers)

theorem SameElsewhere.refl (id : QueueId) (timers : List QueueId) : SameElsewhere id timers timers :=
  fun _ _ => Iff.rfl

theorem SameElsewhere.trans {timers timers' timers'' : List QueueId} (h : SameElsewhere id timers timers')
    (h' : SameElsewhere id timers' timers'') : SameElsewhere id timers timers'' :=
  fun other hother => (h' other hother).trans (h other hother)

theorem disarmed_spec (h : Armed id s) :
    (disarmed id s).Nodup ∧ id ∉ disarmed id s ∧ SameElsewhere id s.timers (disarmed id s) := by
  rw [disarmed]
  split
  · refine ⟨h.nodup.erase id,h.nodup.not_mem_erase,?_⟩
    intro other hother
    exact List.mem_erase_of_ne hother
  · rename_i hidle
    exact ⟨h.nodup,fun hmem => hidle (h.armed.mp hmem),SameElsewhere.refl id _⟩

theorem connectTimer_armed (h : Armed id s) (outcome : ConnectOutcome) :
    Armed id (sendQueueConnectTimer id s outcome).2 ∧
      SameElsewhere id s.timers (sendQueueConnectTimer id s outcome).2.timers := by
  obtain ⟨hnodup,hout,hsame⟩ := disarmed_spec h
  cases hopen : s.sq.serverSocket with
  | some fd =>
    rw [connectTimer_open outcome (by simp [hopen])]
    exact ⟨h,SameElsewhere.refl id _⟩
  | none =>
    cases outcome with
    | failed =>
      rw [connectTimer_failed hopen]
      exact ⟨⟨hnodup,by simpa using hout,by simp⟩,hsame⟩
    | refused =>
      rw [connectTimer_refused hopen]
      refine ⟨⟨List.nodup_cons.mpr ⟨hout,hnodup⟩,by simp,by simp⟩,?_⟩
      intro other hother
      rw [List.mem_cons,or_iff_right hother]
      exact hsame other hother
    | connected fd size =>
      rw [connectTimer_connected hopen]
      exact ⟨⟨hnodup,by simpa [connectedQueue] using hout,fun _ => rfl⟩,hsame⟩

theorem tryConnect_armed (h : Armed id s) (outcome : ConnectOutcome) :
    Armed id (sendQueueTryConnect id s outcome).2 ∧
      SameElsewhere id s.timers (sendQueueTryConnect id s outcome).2.timers := by
  rw [sendQueueTryConnect]
  split
  · exact ⟨h,SameElsewhere.refl id _⟩
  · exact connectTimer_armed h outcome

theorem connectTimeout_armed (h : Armed id s) (outcome : ConnectOutcome) :
    Armed id (sendQueueConnectTimeout id s outcome).2 ∧
      SameElsewhere id s.timers (sendQueueConnectTimeout id s outcome).2.timers := by
  have hfired : Armed id ⟨{ s.sq with runningTimer := false },s.timers.erase id⟩ :=
    ⟨h.nodup.erase id,by simpa using h.nodup.not_mem_erase,fun _ => rfl⟩
  obtain ⟨harmed,hsame⟩ := connectTimer_armed hfired outcome
  have herase : SameElsewhere id s.timers (s.timers.erase id) :=
    fun other hother => List.mem_erase_of_ne hother
  exact ⟨harmed,herase.trans hsame⟩

theorem Armed.close (h : Armed id s) {sq : SendQueue} (hsq : sq.serverSocket = none) (hrunning : sq.runningTimer = s.sq.runningTimer) :
    Armed id ⟨sq,s.timers⟩ := by
  refine ⟨h.nodup,by rw [h.armed,hrunning],?_⟩
  simp [hsq]

-- A change of the queue that leaves its socket and its timer alone.
theorem Armed.keep (h : Armed id s) {sq : SendQueue} (hsocket : sq.serverSocket = s.sq.serverSocket)
    (hrunning : sq.runningTimer = s.sq.runningTimer) : Armed id ⟨sq,s.timers⟩ :=
  ⟨h.nodup,by rw [h.armed,hrunning],by rw [hsocket,hrunning]; exact h.idle⟩

section Shapes

variable (id s)

def reconnected (outcome : ConnectOutcome) : Station :=
  (sendQueueTryConnect id ⟨{ closeSocket s.sq with refusedCount := 0 },s.timers⟩ outcome).2

-- Everything that a call of `onSendWrite` can do to the queue.
inductive Writes (outcome : ConnectOutcome) : Station → Prop
  | done {buf : MessageBuffer} (hshort : buf.dataLength < sizeofMessageHeader) :
      Writes outcome ⟨setWritable { s.sq with buffer := buf } false,s.timers⟩
  | kept {buf : MessageBuffer} (hle : buf.dataLength ≤ s.sq.buffer.dataLength) :
      Writes outcome ⟨{ s.sq with buffer := buf },s.timers⟩
  | lost {buf : MessageBuffer} (hle : buf.dataLength ≤ s.sq.buffer.dataLength) :
      Writes outcome ⟨{ (reconnected id s outcome).sq with buffer := buf },
        (reconnected id s outcome).timers⟩

variable {id s}

theorem truncate_le (buf : MessageBuffer) (len : Nat) :
    (truncateMessageBuffer buf len).dataLength ≤ buf.dataLength := by
  rw [← MessageBuffer.length_contents,contents_truncate,← MessageBuffer.length_contents,List.length_drop]
  exact Nat.sub_le _ _

theorem onSendWrite_writes {sends : Nat → SendOutcome} {outcome : ConnectOutcome} {outputs : List Output}
    {s' : Station} (h : onSendWrite id s sends outcome = .ok (outputs,s')) : Writes id s outcome s' := by
  rw [onSendWrite] at h
  split at h
  · rename_i hshort
    rw [← (Prod.mk.inj (Except.ok.inj h)).2]
    exact .done hshort
  · cases hloop : sendLoop s.sq (s.sq.buffer.dataLength + 1) sends 0 with
    | error e =>
      rw [hloop] at h
      exact absurd h (by simp)
    | ok r =>
      simp only [hloop] at h
      have hle := truncate_le s.sq.buffer r.total
      cases hstop : r.stopped with
      | none =>
        rw [hstop] at h
        simp only at h
        rw [← (Prod.mk.inj (Except.ok.inj h)).2]
        split
        · rename_i hempty
          exact .done (by rw [hempty]; decide)
        · exact .kept hle
      | some result =>
        rw [hstop] at h
        simp only at h
        by_cases hagain : result = .again
        · subst hagain
          simp only [ne_eq,not_true_eq_false,if_false,reduceCtorEq] at h
          rw [← (Prod.mk.inj (Except.ok.inj h)).2]
          exact .kept hle
        · have hbuffer : (reconnected id s outcome).sq.buffer = s.sq.buffer := buffer_tryConnect id _ outcome
          rw [if_pos hagain,← reconnected,hbuffer] at h
          split at h
          · rw [← (Prod.mk.inj (Except.ok.inj h)).2]
            exact .lost ((truncate_le _ _).trans hle)
          · rw [← (Prod.mk.inj (Except.ok.inj h)).2]
            exact .lost hle

theorem Writes.armed {outcome : ConnectOutcome} {s' : Station} (h : Armed id s) (hw : Writes id s outcome s') :
    Armed id s' ∧ SameElsewhere id s.timers s'.timers := by
  cases hw with
  | done => exact ⟨h.keep rfl rfl,SameElsewhere.refl id _⟩
  | kept => exact ⟨h.keep rfl rfl,SameElsewhere.refl id _⟩
  | lost =>
    have hclosed : Armed id ⟨{ closeSocket s.sq with refusedCount := 0 },s.timers⟩ := h.close rfl rfl
    obtain ⟨harmed,hsame⟩ := tryConnect_armed hclosed outcome
    exact ⟨harmed.keep rfl rfl,hsame⟩

def queuedWith (sq : SendQueue) (m : Message) : SendQueue :=
  let buffer := (writeMessageBuffer (writeMessageBuffer sq.buffer m.header).2 m.data).2
  { sq with overflow := 0, overflowTotalLength := 0, buffer := buffer }

variable (id s) in
-- Everything that a call of `pushMessage` can do to the queue.
inductive Pushed (m : Message) (outcome : ConnectOutcome) : Station → Prop
  | rejected (overflow : UInt32) (total : UInt64) :
      Pushed m outcome ⟨{ s.sq with overflow := overflow, overflowTotalLength := total },s.timers⟩
  | closed (hroom : ¬ messageBufferRemainBytes s.sq.buffer < m.length.toNat)
      (hclosed : s.sq.serverSocket = none) :
      Pushed m outcome (sendQueueTryConnect id ⟨queuedWith s.sq m,s.timers⟩ outcome).2
  | queued (hroom : ¬ messageBufferRemainBytes s.sq.buffer < m.length.toNat)
      (hopen : s.sq.serverSocket.isSome) :
      Pushed m outcome ⟨setWritable (queuedWith s.sq m) true,s.timers⟩
  | flushed {s' : Station} (hroom : ¬ messageBufferRemainBytes s.sq.buffer < m.length.toNat)
      (hopen : s.sq.serverSocket.isSome) {sends : Nat → SendOutcome} {outputs : List Output}
      (hwrite : onSendWrite id ⟨setWritable (queuedWith s.sq m) true,s.timers⟩ sends outcome =
        .ok (outputs,s')) : Pushed m outcome s'

theorem pushMessage_pushed {sends : Nat → SendOutcome} {outcome : ConnectOutcome} {m : Message} {ok : Bool}
    {outputs : List Output} {s' : Station} (h : pushMessage id s sends outcome m = .ok (ok,outputs,s')) :
    Pushed id s m outcome s' := by
  rw [pushMessage] at h
  simp only at h
  split at h
  · rw [← (Prod.mk.inj (Prod.mk.inj (Except.ok.inj h)).2).2]
    exact .rejected _ _
  · rename_i hroom
    split at h
    · rename_i hnone
      rw [← (Prod.mk.inj (Prod.mk.inj (Except.ok.inj h)).2).2]
      exact .closed hroom (Option.isNone_iff_eq_none.mp hnone)
    · rename_i hsome
      have hopen : s.sq.serverSocket.isSome := by
        rw [Option.isSome_iff_ne_none]
        simpa using hsome
      split at h
      · cases hwrite : onSendWrite id ⟨setWritable (queuedWith s.sq m) true,s.timers⟩ sends outcome with
        | error e =>
          rw [queuedWith] at hwrite
          rw [hwrite] at h
          exact absurd h (by simp)
        | ok written =>
          obtain ⟨outputs',s''⟩ := written
          have hflush := hwrite
          rw [queuedWith] at hwrite
          rw [hwrite] at h
          rw [← (Prod.mk.inj (Prod.mk.inj (Except.ok.inj h)).2).2]
          exact .flushed hroom hopen hflush
      · rw [← (Prod.mk.inj (Prod.mk.inj (Except.ok.inj h)).2).2]
        exact .queued hroom hopen

theorem Pushed.armed {outcome : ConnectOutcome} {m : Message} {s' : Station} (h : Armed id s)
    (hp : Pushed id s m outcome s') : Armed id s' ∧ SameElsewhere id s.timers s'.timers := by
  cases hp with
  | rejected => exact ⟨h.keep rfl rfl,SameElsewhere.refl id _⟩
  | closed =>
    have hqueued : Armed id ⟨queuedWith s.sq m,s.timers⟩ := h.keep rfl rfl
    exact tryConnect_armed hqueued outcome
  | queued => exact ⟨h.keep rfl rfl,SameElsewhere.refl id _⟩
  | flushed _ _ hwrite =>
    have hqueued : Armed id ⟨setWritable (queuedWith s.sq m) true,s.timers⟩ := h.keep rfl rfl
    have harmed := (onSendWrite_writes hwrite).armed hqueued
    exact harmed

theorem onSendRead_armed (h : Armed id s) (outcome : ConnectOutcome) (received : Bool) {s' : Station}
    (hread : onSendRead id s outcome received = some s') :
    Armed id s' ∧ SameElsewhere id s.timers s'.timers := by
  rw [onSendRead] at hread
  split at hread
  · rw [← Option.some.inj hread]
    exact ⟨h,SameElsewhere.refl id _⟩
  · simp only at hread
    split at hread
    · rw [← Option.some.inj hread]
      have hclosed : Armed id ⟨closeSocket s.sq,s.timers⟩ := h.close rfl rfl
      exact tryConnect_armed hclosed outcome
    · exact absurd hread (by simp)

theorem clearSendQueue_armed (h : Armed id s) :
    Armed id (clearSendQueue s).2 ∧ SameElsewhere id s.timers (clearSendQueue s).2.timers := by
  rw [clearSendQueue]
  simp only
  split
  · exact ⟨h.keep rfl rfl,SameElsewhere.refl id _⟩
  · exact ⟨h.keep rfl rfl,SameElsewhere.refl id _⟩

theorem createSendQueue_armed {outcome : ConnectOutcome} {heap : Nat → UInt8} {timers : List QueueId}
    (hnodup : timers.Nodup) (hnew : id ∉ timers) (h : createSendQueue id outcome heap timers = some s) :
    Armed id s ∧ SameElsewhere id timers s.timers := by
  rw [createSendQueue] at h
  generalize hq : (⟨none,0,0,createMessageBuffer heap messengerSendQueueLength,
    false,0,0,0,false,false,false⟩ : SendQueue) = sq at h
  have hstart : Armed id ⟨sq,timers⟩ := by
    rw [← hq]
    exact ⟨hnodup,by simpa using hnew,by simp⟩
  have harmed := tryConnect_armed hstart outcome
  split at h
  · exact absurd h (by simp)
  · rename_i heq
    rw [heq] at harmed
    rw [← Option.some.inj h]
    exact harmed

end Shapes

end Trema.Messenger
