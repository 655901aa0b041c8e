import Trema.SecureChannel.Buffer
import Trema.SecureChannel.MessageQueue

namespace Trema.SecureChannel

open Library
open OpenFlow (Exec abortIf)

def iovMax : Nat := 1024

inductive WriteResult where
  | wrote (writeLength : Nat)
  | again
  | failed
deriving DecidableEq, Repr

-- written is what the socket has taken so far.
structure Sender where
  sendQueue : Option (MessageQueue Buffer)
  writable : Bool
  written : Bytes
deriving DecidableEq, Repr

def Sender.init : Sender := ⟨some createMessageQueue,false,[]⟩

def sendToSecureChannel (s : Sender) (buf : Buffer) : Exec (Int × Sender) := do
  abortIf (buf.length = 0)
  match s.sendQueue with
  | none => pure (-1,s)
  | some queue =>
    pure (0,{ s with sendQueue := some (enqueueMessage queue buf), writable := true })

-- The array has as many elements as the queue's length field says.
def appendToWritevArgs (allocated : Nat) (message : Buffer) (iov : List Bytes) :
    Exec (Bool × List Bytes) :=
  if allocated ≤ iov.length then .error .outOfBounds
  else pure (decide (iov.length + 1 < iovMax),iov ++ [message.bytes])

def releaseWritten : Nat → MessageQueue Buffer → Nat → Exec (Bool × MessageQueue Buffer)
  | 0, _, _ => .error .outOfFuel
  | fuel + 1, queue, writeLength =>
    match peekMessage queue with
    | none => pure (false,queue)
    | some buf =>
      if writeLength = 0 then pure (true,queue)
      else if writeLength < buf.length then do
        let buf ← removeFrontBuffer buf writeLength
        pure (true,queue.update buf)
      else releaseWritten fuel (dequeueMessage queue).2 (writeLength - buf.length)

def flushQueue (s : Sender) (queue : MessageQueue Buffer) (result : WriteResult) :
    Exec (Int × Sender) :=
  if queue.length = 0 then pure (0,s)
  else do
    let s := { s with writable := false }
    let iov ← foreachMessageQueue queue (appendToWritevArgs queue.length.toNat) []
    if iov.length = 0 then pure (0,s)
    else
      match result with
      | .again => pure (0,{ s with writable := true })
      | .failed => pure (-1,s)
      | .wrote writeLength =>
        if writeLength = 0 then pure (0,s)
        else
          let released ← releaseWritten queue.elements.length queue writeLength
          pure (0,⟨some released.2,released.1,s.written ++ iov.flatten.take writeLength⟩)

def flushSecureChannel (s : Sender) (result : WriteResult) : Exec (Int × Sender) :=
  match s.sendQueue with
  | none => .error .aborted
  | some queue => flushQueue s queue result

def totalBytes (messages : List Buffer) : Bytes := messages.flatMap Buffer.bytes

structure Sendable (message : Buffer) : Prop where
  inside : message.Inside
  nonempty : 0 < message.length

section Release

variable {queue : MessageQueue Buffer} {messages : List Buffer}

theorem totalBytes_cons (message : Buffer) :
    totalBytes (message :: messages) = message.bytes ++ totalBytes messages := rfl

theorem totalBytes_append (messages others : List Buffer) :
    totalBytes (messages ++ others) = totalBytes messages ++ totalBytes others :=
  List.flatMap_append

theorem releaseWritten_spec {fuel writeLength : Nat} (h : Holds queue messages)
    (hsend : ∀ m ∈ messages, Sendable m) (hfuel : messages.length < fuel)
    (hle : writeLength ≤ (totalBytes messages).length) :
    ∃ writable queue' messages', releaseWritten fuel queue writeLength = .ok (writable,queue') ∧
      Holds queue' messages' ∧ (∀ m ∈ messages', Sendable m) ∧
      totalBytes messages' = (totalBytes messages).drop writeLength ∧
      (messages' ≠ [] → writable = true) := by
  induction messages generalizing queue fuel writeLength with
  | nil =>
    obtain ⟨fuel,rfl⟩ : ∃ n, fuel = n + 1 := ⟨fuel - 1,by omega⟩
    refine ⟨false,queue,[],?_,h,hsend,by simp [totalBytes],fun h => absurd rfl h⟩
    rw [releaseWritten,h.peek_nil]
    rfl
  | cons message messages ih =>
    obtain ⟨fuel,rfl⟩ : ∃ n, fuel = n + 1 := ⟨fuel - 1,by omega⟩
    obtain ⟨hinside,hpos⟩ := hsend message List.mem_cons_self
    have hlen := hinside.length_bytes
    rw [releaseWritten,h.peek]
    simp only
    split
    · rename_i hzero
      subst hzero
      exact ⟨true,queue,message :: messages,rfl,h,hsend,rfl,fun _ => rfl⟩
    · split
      · rename_i hne hlt
        rw [removeFrontBuffer_ok (by omega) (by omega)]
        refine ⟨_,_,_,rfl,h.update _,?_,?_,fun _ => rfl⟩
        · intro m hm
          rcases List.mem_cons.mp hm with rfl | hm
          · exact ⟨hinside.removeFront (by omega),by simp only; omega⟩
          · exact hsend m (List.mem_cons_of_mem _ hm)
        · rw [totalBytes_cons,totalBytes_cons,bytes_removeFront,
            List.drop_append_of_le_length (by omega)]
      · rename_i hne hge
        rw [totalBytes_cons,List.length_append,hlen] at hle
        obtain ⟨writable,queue',messages',hrun,hholds,hall,hbytes,hwritable⟩ :=
          ih h.dequeue.2 (fun m hm => hsend m (List.mem_cons_of_mem _ hm))
            (Nat.lt_of_succ_lt_succ hfuel) (by omega : writeLength - message.length ≤ _)
        have hgone : message.bytes.drop writeLength = [] := List.drop_eq_nil_of_le (by omega)
        refine ⟨writable,queue',messages',hrun,hholds,hall,?_,hwritable⟩
        rw [hbytes,totalBytes_cons,List.drop_append,hlen,hgone,List.nil_append]

end Release

section Offer

-- The length field wraps at 2 ^ 32, so it can announce too few elements.
def Announced (n : Nat) : Prop := n % 4294967296 = 0 ∨ min n iovMax ≤ n % 4294967296

instance (n : Nat) : Decidable (Announced n) := inferInstanceAs (Decidable (_ ∨ _))

theorem foreach_append {allocated : Nat} (messages : List Buffer) (iov : List Bytes)
    (hroom : iov.length < iovMax)
    (hallocated : min (iov.length + messages.length) iovMax ≤ allocated) :
    foreachElement (appendToWritevArgs allocated) (messages.map some) iov =
      .ok (iov ++ (messages.take (iovMax - iov.length)).map Buffer.bytes) := by
  induction messages generalizing iov with
  | nil => simp [foreachElement,pure_eq_ok]
  | cons message messages ih =>
    rw [List.length_cons] at hallocated
    have hfree : ¬ allocated ≤ iov.length := by omega
    rw [List.map_cons,foreachElement,appendToWritevArgs,if_neg hfree,pure_eq_ok,ok_bind]
    obtain ⟨k,hk⟩ : ∃ k, iovMax - iov.length = k + 1 := ⟨iovMax - iov.length - 1,by omega⟩
    by_cases hmore : iov.length + 1 < iovMax
    · rw [if_pos (by simpa using hmore),ih _ (by simpa using hmore) (by simp; omega),hk]
      have hrest : iovMax - (iov ++ [message.bytes]).length = k := by
        simp
        omega
      rw [hrest]
      simp
    · have hlast : k = 0 := by omega
      rw [if_neg (by simpa using hmore),hk,hlast]
      simp [pure_eq_ok]

theorem foreach_overrun {allocated : Nat} (messages : List Buffer) (iov : List Bytes)
    (hroom : iov.length ≤ allocated) (hmax : allocated < iovMax)
    (hmany : allocated < iov.length + messages.length) :
    foreachElement (appendToWritevArgs allocated) (messages.map some) iov =
      .error .outOfBounds := by
  induction messages generalizing iov with
  | nil => simp at hmany; omega
  | cons message messages ih =>
    rw [List.length_cons] at hmany
    rw [List.map_cons,foreachElement,appendToWritevArgs]
    split
    · rfl
    · rename_i hfree
      have hmore : iov.length + 1 < iovMax := by omega
      rw [pure_eq_ok,ok_bind,if_pos (by simpa using hmore)]
      exact ih _ (by simp; omega) (by simp; omega)

end Offer

section Flush

variable {s : Sender} {queue : MessageQueue Buffer} {messages : List Buffer}

structure Sending (s : Sender) (messages : List Buffer) : Prop where
  queue : ∃ queue, s.sendQueue = some queue ∧ Holds queue messages
  sendable : ∀ m ∈ messages, Sendable m
  interested : messages ≠ [] → s.writable = true

def offered (messages : List Buffer) : Bytes := totalBytes (messages.take iovMax)

theorem sending_init : Sending Sender.init [] :=
  ⟨⟨_,rfl,Holds.create⟩,by simp,fun h => absurd rfl h⟩

theorem Sending.send {message : Buffer} (h : Sending s messages) (hm : Sendable message) :
    ∃ t, sendToSecureChannel s message = .ok (0,t) ∧ Sending t (messages ++ [message]) ∧
      t.written = s.written := by
  obtain ⟨queue,hqueue,hholds⟩ := h.queue
  have hpos := hm.nonempty
  refine ⟨{ s with sendQueue := some (enqueueMessage queue message), writable := true },?_,?_,rfl⟩
  · rw [sendToSecureChannel,abortIf_false (by omega),ok_bind,hqueue]
    rfl
  · refine ⟨⟨_,rfl,hholds.enqueue message⟩,fun m hmem => ?_,fun _ => rfl⟩
    rcases List.mem_append.mp hmem with hold | hnew
    · exact h.sendable m hold
    · rw [List.mem_singleton.mp hnew]
      exact hm

theorem flushSecureChannel_some (hqueue : s.sendQueue = some queue) (result : WriteResult) :
    flushSecureChannel s result = flushQueue s queue result := by
  rw [flushSecureChannel,hqueue]

theorem flush_unannounced (h : Sending s messages) (hn : ¬ Announced messages.length)
    (result : WriteResult) : flushSecureChannel s result = .error .outOfBounds := by
  obtain ⟨queue,hqueue,hholds⟩ := h.queue
  obtain ⟨hne,hless⟩ := not_or.mp hn
  have hlength : queue.length.toNat = messages.length % 4294967296 := by simp [hholds.counted]
  have hzero : ¬ queue.length = 0 := fun hz => hne (by rw [← hlength,hz]; rfl)
  simp only [flushSecureChannel_some hqueue,flushQueue,if_neg hzero,hholds.foreach]
  rw [foreach_overrun messages [] (Nat.zero_le _) (by omega) (by simp; omega)]
  rfl

def Allowed (messages : List Buffer) : WriteResult → Prop
  | .wrote writeLength => 0 < writeLength ∧ writeLength ≤ (offered messages).length
  | .again => True
  | .failed => False

theorem offered_take {writeLength : Nat} (hle : writeLength ≤ (offered messages).length) :
    (((messages.take iovMax).map Buffer.bytes).flatten).take writeLength =
      (totalBytes messages).take writeLength := by
  have hsplit : totalBytes messages = offered messages ++ totalBytes (messages.drop iovMax) := by
    rw [offered,← totalBytes_append,List.take_append_drop]
  rw [hsplit,List.take_append_of_le_length hle]
  rfl

theorem offered_le (messages : List Buffer) :
    (offered messages).length ≤ (totalBytes messages).length := by
  have hsplit := totalBytes_append (messages.take iovMax) (messages.drop iovMax)
  rw [List.take_append_drop] at hsplit
  rw [hsplit,List.length_append,offered]
  omega

theorem Sending.flush {result : WriteResult} (h : Sending s messages)
    (hn : Announced messages.length) (hresult : Allowed messages result) :
    ∃ t messages', flushSecureChannel s result = .ok (0,t) ∧ Sending t messages' ∧
      t.written ++ totalBytes messages' = s.written ++ totalBytes messages := by
  obtain ⟨queue,hqueue,hholds⟩ := h.queue
  have hlength : queue.length.toNat = messages.length % 4294967296 := by simp [hholds.counted]
  rw [flushSecureChannel_some hqueue]
  by_cases hzero : queue.length = 0
  · exact ⟨s,messages,by rw [flushQueue,if_pos hzero]; rfl,h,rfl⟩
  · have hne : messages.length % 4294967296 ≠ 0 := fun hz => hzero (by
      rw [← hlength] at hz
      exact UInt32.toNat_inj.mp hz)
    have hmany : messages ≠ [] := fun hempty => hne (by rw [hempty]; rfl)
    have hroom : min (([] : List Bytes).length + messages.length) iovMax ≤ queue.length.toNat := by
      rw [hlength,List.length_nil,Nat.zero_add]
      exact hn.resolve_left hne
    have hiov : ¬ ((messages.take iovMax).map Buffer.bytes).length = 0 := by
      have hpos := List.length_pos_iff.mpr hmany
      have hmax : iovMax = 1024 := rfl
      rw [List.length_map,List.length_take]
      omega
    simp only [flushQueue,if_neg hzero,hholds.foreach]
    rw [foreach_append messages [] (by decide) hroom,ok_bind,List.nil_append,List.length_nil,
      Nat.sub_zero,if_neg hiov]
    cases result with
    | again => exact ⟨_,messages,rfl,⟨⟨queue,hqueue,hholds⟩,h.sendable,fun _ => rfl⟩,rfl⟩
    | failed => exact hresult.elim
    | wrote writeLength =>
      obtain ⟨hpos,hle⟩ := hresult
      have htotal := offered_le messages
      obtain ⟨writable,queue',messages',hrun,hholds',hall,hbytes,hinterest⟩ :=
        releaseWritten_spec hholds h.sendable hholds.length_lt (Nat.le_trans hle htotal)
      have hnonzero : ¬ writeLength = 0 := by omega
      simp only [hrun,if_neg hnonzero,ok_bind]
      refine ⟨_,messages',rfl,⟨⟨queue',rfl,hholds'⟩,hall,hinterest⟩,?_⟩
      rw [offered_take hle,hbytes,List.append_assoc,List.take_append_drop]

end Flush

section Runs

inductive SendEvent where
  | send (message : Buffer)
  | flush (result : WriteResult)
deriving DecidableEq, Repr

def SendEvent.step (s : Sender) : SendEvent → Exec Sender
  | .send message => do
    let sent ← sendToSecureChannel s message
    pure sent.2
  | .flush result => do
    let flushed ← flushSecureChannel s result
    pure flushed.2

def sendRun : Sender → List SendEvent → Exec Sender
  | s, [] => pure s
  | s, event :: events => do
    let s ← event.step s
    sendRun s events

def Sender.queued (s : Sender) : List Buffer :=
  match s.sendQueue with
  | some queue => queue.waiting
  | none => []

def SendEvent.messages : SendEvent → List Buffer
  | .send message => [message]
  | .flush _ => []

def enqueuedBytes (events : List SendEvent) : Bytes := totalBytes (events.flatMap SendEvent.messages)

def SendEvent.Possible (s : Sender) : SendEvent → Prop
  | .send message => Sendable message
  | .flush result => Allowed s.queued result

def PossibleRun : Sender → List SendEvent → Prop
  | _, [] => True
  | s, event :: events => event.Possible s ∧ ∀ t, event.step s = .ok t → PossibleRun t events

def SendEvent.Announces (s : Sender) : SendEvent → Prop
  | .send _ => True
  | .flush _ => Announced s.queued.length

def AnnouncedRun : Sender → List SendEvent → Prop
  | _, [] => True
  | s, event :: events => event.Announces s ∧ ∀ t, event.step s = .ok t → AnnouncedRun t events

variable {s : Sender} {messages : List Buffer}

theorem Sending.queued_eq (h : Sending s messages) : s.queued = messages := by
  obtain ⟨queue,hqueue,hholds⟩ := h.queue
  rw [Sender.queued,hqueue]
  exact hholds.waiting_eq

theorem Sending.step {event : SendEvent} (h : Sending s messages) (hposs : event.Possible s)
    (hannounced : event.Announces s) :
    ∃ t messages', event.step s = .ok t ∧ Sending t messages' ∧
      t.written ++ totalBytes messages' =
        s.written ++ totalBytes messages ++ totalBytes event.messages := by
  cases event with
  | send message =>
    obtain ⟨t,hsend,ht,hwritten⟩ := h.send hposs
    refine ⟨t,_,by rw [SendEvent.step,hsend]; rfl,ht,?_⟩
    rw [hwritten,totalBytes_append,List.append_assoc]
    rfl
  | flush result =>
    rw [SendEvent.Possible,h.queued_eq] at hposs
    rw [SendEvent.Announces,h.queued_eq] at hannounced
    obtain ⟨t,messages',hflush,ht,hbytes⟩ := h.flush hannounced hposs
    refine ⟨t,messages',by rw [SendEvent.step,hflush]; rfl,ht,?_⟩
    rw [hbytes]
    exact (List.append_nil _).symm

theorem Sending.run (h : Sending s messages) (events : List SendEvent)
    (hposs : PossibleRun s events) (hannounced : AnnouncedRun s events) :
    ∃ t messages', sendRun s events = .ok t ∧ Sending t messages' ∧
      t.written ++ totalBytes messages' =
        s.written ++ totalBytes messages ++ enqueuedBytes events := by
  induction events generalizing s messages with
  | nil => exact ⟨s,messages,rfl,h,(List.append_nil _).symm⟩
  | cons event events ih =>
    obtain ⟨t,messages',hstep,ht,hbytes⟩ := h.step hposs.1 hannounced.1
    obtain ⟨u,last,hrun,hu,hlast⟩ := ih ht (hposs.2 t hstep) (hannounced.2 t hstep)
    refine ⟨u,last,by rw [sendRun,hstep,ok_bind,hrun],hu,?_⟩
    rw [hlast,hbytes,enqueuedBytes,enqueuedBytes,List.flatMap_cons,totalBytes_append,
      List.append_assoc]

theorem Sending.announced_of_run (h : Sending s messages) (events : List SendEvent)
    (hposs : PossibleRun s events) {t : Sender} (hrun : sendRun s events = .ok t) :
    AnnouncedRun s events := by
  induction events generalizing s messages with
  | nil => trivial
  | cons event events ih =>
    have hannounced : event.Announces s := by
      cases event with
      | send message => trivial
      | flush result =>
        rw [SendEvent.Announces,h.queued_eq]
        by_contra hn
        rw [sendRun,SendEvent.step,flush_unannounced h hn result] at hrun
        simp at hrun
    obtain ⟨u,messages',hstep,hu,_⟩ := h.step hposs.1 hannounced
    rw [sendRun,hstep,ok_bind] at hrun
    refine ⟨hannounced,fun v hv => ?_⟩
    rw [hstep] at hv
    injection hv with hv
    subst hv
    exact ih hu (hposs.2 _ hstep) hrun

theorem written_is_prefix_iff (events : List SendEvent) (hposs : PossibleRun Sender.init events) :
    (∃ s, sendRun Sender.init events = .ok s ∧
      s.written ++ totalBytes s.queued = enqueuedBytes events ∧
      (s.queued ≠ [] → s.writable = true)) ↔ AnnouncedRun Sender.init events := by
  constructor
  · rintro ⟨s,hrun,_⟩
    exact sending_init.announced_of_run events hposs hrun
  · intro hannounced
    obtain ⟨s,messages,hrun,hs,hbytes⟩ := sending_init.run events hposs hannounced
    refine ⟨s,hrun,?_,?_⟩
    · rw [hs.queued_eq,hbytes]
      rfl
    · rw [hs.queued_eq]
      exact hs.interested

end Runs

section Flood

def oneByte : Buffer := Buffer.ofBytes [1]

def flood (n : Nat) : List SendEvent :=
  List.replicate n (.send oneByte) ++ [.flush (.wrote 1)]

theorem sendable_oneByte : Sendable oneByte := ⟨inside_ofBytes _,by decide⟩

variable {s : Sender} {k : Nat}

theorem send_oneByte (h : Sending s (List.replicate k oneByte)) :
    ∃ t, (SendEvent.send oneByte).step s = .ok t ∧ Sending t (List.replicate (k + 1) oneByte) := by
  obtain ⟨t,hsend,ht,_⟩ := h.send sendable_oneByte
  refine ⟨t,by rw [SendEvent.step,hsend]; rfl,?_⟩
  rw [List.replicate_succ']
  exact ht

theorem possible_flood (h : Sending s (List.replicate k oneByte)) (n : Nat) (hpos : 0 < k + n) :
    PossibleRun s (flood n) := by
  induction n generalizing s k with
  | zero =>
    obtain ⟨k,rfl⟩ : ∃ j, k = j + 1 := ⟨k - 1,by omega⟩
    have hflush : (SendEvent.flush (.wrote 1)).Possible s := by
      rw [SendEvent.Possible,h.queued_eq,Allowed,offered,List.take_replicate]
      have hmin : min iovMax (k + 1) = min 1023 k + 1 := by
        rw [iovMax]
        omega
      rw [hmin,List.replicate_succ,totalBytes_cons,List.length_append]
      have hone : oneByte.bytes.length = 1 := rfl
      omega
    exact ⟨hflush,fun _ _ => trivial⟩
  | succ n ih =>
    obtain ⟨t,hstep,ht⟩ := send_oneByte h
    refine ⟨sendable_oneByte,fun u hu => ?_⟩
    rw [hstep] at hu
    injection hu with hu
    subst hu
    exact ih ht (by omega)

theorem announced_flood (h : Sending s (List.replicate k oneByte)) (n : Nat)
    (hrun : AnnouncedRun s (flood n)) : Announced (k + n) := by
  induction n generalizing s k with
  | zero =>
    have hflush := hrun.1
    rw [SendEvent.Announces,h.queued_eq,List.length_replicate] at hflush
    exact hflush
  | succ n ih =>
    obtain ⟨t,hstep,ht⟩ := send_oneByte h
    have hnext := ih ht (hrun.2 t hstep)
    rwa [Nat.add_right_comm,Nat.add_assoc] at hnext

theorem announcedRun_flood (h : Sending s (List.replicate k oneByte)) (n : Nat)
    (hn : Announced (k + n)) : AnnouncedRun s (flood n) := by
  induction n generalizing s k with
  | zero =>
    have hflush : (SendEvent.flush (.wrote 1)).Announces s := by
      rw [SendEvent.Announces,h.queued_eq,List.length_replicate]
      exact hn
    exact ⟨hflush,fun _ _ => trivial⟩
  | succ n ih =>
    obtain ⟨t,hstep,ht⟩ := send_oneByte h
    refine ⟨trivial,fun u hu => ?_⟩
    rw [hstep] at hu
    injection hu with hu
    subst hu
    exact ih ht (by rwa [Nat.add_right_comm,Nat.add_assoc])

theorem sending_none : Sending Sender.init (List.replicate 0 oneByte) := sending_init

theorem written_is_prefix_two_thousand :
    ∃ s, sendRun Sender.init (flood 2000) = .ok s ∧
      s.written ++ totalBytes s.queued = enqueuedBytes (flood 2000) ∧
      (s.queued ≠ [] → s.writable = true) :=
  (written_is_prefix_iff (flood 2000) (possible_flood sending_none 2000 (by decide))).mpr
    (announcedRun_flood sending_none 2000 (by decide))

theorem wrapped_length_overruns :
    PossibleRun Sender.init (flood 4294967297) ∧
      ¬ ∃ s, sendRun Sender.init (flood 4294967297) = .ok s ∧
        s.written ++ totalBytes s.queued = enqueuedBytes (flood 4294967297) ∧
        (s.queued ≠ [] → s.writable = true) := by
  have hposs := possible_flood sending_none 4294967297 (by decide)
  refine ⟨hposs,?_⟩
  rintro ⟨s,hrun,_⟩
  have hannounced := sending_init.announced_of_run (flood 4294967297) hposs hrun
  exact absurd (announced_flood sending_none 4294967297 hannounced) (by decide)

end Flood

end Trema.SecureChannel
