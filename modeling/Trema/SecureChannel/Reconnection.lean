import Trema.SecureChannel.Connection

namespace Trema.SecureChannel

open Library
open OpenFlow (Exec abortIf)

section Parts

def Channel.waiting (c : Channel) : List Buffer := c.sendQueue.waiting

def Channel.Whole (c : Channel) : Prop := c.waiting.map Buffer.bytes = c.pending

instance (c : Channel) : Decidable c.Whole := inferInstanceAs (Decidable (_ = _))

structure Queued (queue : MessageQueue Buffer) (messages : List Buffer) (pending : List Bytes) :
    Prop where
  holds : Holds queue messages
  sendable : ∀ m ∈ messages, Sendable m
  same_length : messages.length = pending.length

theorem totalBytes_map (messages : List Buffer) :
    totalBytes messages = (messages.map Buffer.bytes).flatten := by
  rw [totalBytes,List.flatMap_def]

variable {queue : MessageQueue Buffer} {messages : List Buffer} {pending : List Bytes}

theorem Queued.enqueue {message : Buffer} (h : Queued queue messages pending)
    (hm : Sendable message) :
    Queued (enqueueMessage queue message) (messages ++ [message]) (pending ++ [message.bytes]) := by
  refine ⟨h.holds.enqueue message,fun m hmem => ?_,by simp [h.same_length]⟩
  rcases List.mem_append.mp hmem with hold | hnew
  · exact h.sendable m hold
  · rw [List.mem_singleton.mp hnew]
    exact hm

def Wrote (writes : List WriteResult) : Prop := ∀ n, .wrote n ∈ writes → 0 < n

theorem Queued.flush (writes : List WriteResult) (hwrites : Wrote writes) (outgoing : Bytes)
    (writable : Bool) (h : Queued queue messages pending) :
    ∃ f messages', Channel.flushMessages writes ⟨queue,outgoing,pending,writable⟩ = .ok f ∧
      Queued f.queue messages' f.pending ∧
      f.outgoing ++ totalBytes messages' = outgoing ++ totalBytes messages := by
  induction writes generalizing queue messages pending outgoing with
  | nil =>
    cases messages with
    | nil => exact ⟨_,[],by rw [Channel.flushMessages,h.holds.peek_nil]; rfl,h,rfl⟩
    | cons message messages =>
      exact ⟨_,message :: messages,by rw [Channel.flushMessages,h.holds.peek]; rfl,h,rfl⟩
  | cons write writes ih =>
    cases messages with
    | nil => exact ⟨_,[],by rw [Channel.flushMessages,h.holds.peek_nil]; rfl,h,rfl⟩
    | cons message messages =>
      rw [Channel.flushMessages,h.holds.peek]
      cases write with
      | again => exact ⟨_,message :: messages,rfl,h,rfl⟩
      | failed => exact ⟨_,message :: messages,rfl,h,rfl⟩
      | wrote writeLength =>
        obtain ⟨hinside,_⟩ := h.sendable message List.mem_cons_self
        have hlen := hinside.length_bytes
        have hpos := hwrites writeLength List.mem_cons_self
        have hrest : ∀ m ∈ messages, Sendable m :=
          fun m hm => h.sendable m (List.mem_cons_of_mem _ hm)
        simp only
        split
        · rename_i hlt
          rw [removeFrontBuffer_ok hpos (by omega)]
          refine ⟨_,_,rfl,⟨h.holds.update _,fun m hm => ?_,h.same_length⟩,?_⟩
          · rcases List.mem_cons.mp hm with rfl | hm
            · exact ⟨hinside.removeFront (by omega),by simp only; omega⟩
            · exact hrest m hm
          · rw [totalBytes_cons,totalBytes_cons,bytes_removeFront,← List.append_assoc,
              List.append_assoc outgoing,List.take_append_drop,List.append_assoc]
        · rename_i hge
          have htail : messages.length = pending.tail.length := by
            have := h.same_length
            rw [List.length_tail]
            rw [List.length_cons] at this
            omega
          obtain ⟨f,messages',hrun,hf,hbytes⟩ :=
            ih (fun n hn => hwrites n (List.mem_cons_of_mem _ hn)) _
              (⟨h.holds.dequeue.2,hrest,htail⟩ :
                Queued (dequeueMessage queue).2 messages pending.tail)
          refine ⟨f,messages',hrun,hf,?_⟩
          rw [hbytes,totalBytes_cons,List.take_of_length_le (by omega),List.append_assoc]

end Parts

section Reading

variable {heap : Nat → UInt8} {c : Channel} {read bytes : Bytes}

def Lengthy (_ : Bytes) : Prop := True

theorem headed_accepted {s : Bytes} (h : ofpFramer.Headed Lengthy s) :
    ofpFramer.Headed (Accepted .switch) s := h.mono fun _ _ => rfl

theorem handleAll_hand (messages acc : List Bytes) (hlong : ∀ m ∈ messages, 8 ≤ m.length) :
    handleAll Channel.handMessage (messages.map Buffer.ofBytes) acc = .ok (acc ++ messages) := by
  induction messages generalizing acc with
  | nil => simp [handleAll,pure_eq_ok]
  | cons m messages ih =>
    have hm : ¬ (Buffer.ofBytes m).length < 8 := by
      have := hlong m List.mem_cons_self
      simp only [Buffer.ofBytes]
      omega
    have hrest := ih (acc ++ [m]) fun other hother => hlong other (List.mem_cons_of_mem _ hother)
    rw [List.map_cons,handleAll,Channel.handMessage,abortIf_false hm,ok_bind,pure_eq_ok,ok_bind,
      bytes_ofBytes,hrest,List.append_assoc]
    rfl

theorem Channel.recv_data (read bytes : Bytes) (h : c.receiver.Read read)
    (hheaded : ofpFramer.Headed Lengthy (read ++ bytes))
    (hanswer : Answers heap c.receiver (.data bytes)) (connect : ConnectResult) :
    ∃ r', c.recvFromSecureChannel heap (.data bytes) connect = .ok { c with
        receiver := r'
        link := { c.link with
          incoming := c.link.incoming ++ bytes
          delivered := c.link.delivered ++
            (ofpFramer.frames ((ofpFramer.frames read).2 ++ bytes)).1 } } ∧
      r'.Read (read ++ bytes) := by
  obtain ⟨r',hrecv,hqueue,hkeeps⟩ := h.data (headed_accepted hheaded) hanswer
  have hlong : ∀ m ∈ (ofpFramer.frames ((ofpFramer.frames read).2 ++ bytes)).1, 8 ≤ m.length :=
    fun m hm => (hheaded.rest.1 m hm).1
  have hfew : ((ofpFramer.frames ((ofpFramer.frames read).2 ++ bytes)).1.map
      Buffer.ofBytes).length < 4294967296 := by
    obtain ⟨n,hn,_,hroom⟩ := h.requested heap
      (hheaded.of_append fun _ _ _ => Iff.rfl)
    have hfits := hanswer.2 n hn
    have hcount := ofpFramer.length_frames ((ofpFramer.frames read).2 ++ bytes)
    have hsize : receiveBufferSize = 65553 := rfl
    rw [List.length_append] at hcount
    rw [List.length_map]
    omega
  obtain ⟨drained,hdrained,hrun⟩ :=
    deliverQueue_eq Channel.handMessage hqueue hfew hqueue.length_lt
  refine ⟨{ r' with recvQueue := drained },?_,.of_drained hdrained hkeeps⟩
  rw [Channel.recvFromSecureChannel,hrecv,ok_bind]
  simp only [hrun,handleAll_hand _ _ hlong,ok_bind,pure_eq_ok,ReadResult.chunk]

theorem Channel.recv_other (heap : Nat → UInt8) (h : c.receiver.Read read)
    (connect : ConnectResult) :
    ∃ r', r'.Read read ∧
      c.recvFromSecureChannel heap .again connect = .ok { c with receiver := r' } ∧
      c.recvFromSecureChannel heap .failed connect = .ok { c with receiver := r' } ∧
      c.recvFromSecureChannel heap .closed connect =
        Channel.reconnect { c with receiver := r' }.disconnected connect := by
  obtain ⟨b,hrecv,hread⟩ := h.other heap
  obtain ⟨hagain,hfailed,hclosed⟩ := hrecv Side.switch.accepts
  have hlength : c.receiver.recvQueue.length = 0 := by simpa using h.drained.counted
  obtain ⟨n,hn⟩ : ∃ n, c.receiver.recvQueue.elements.length = n + 1 :=
    ⟨c.receiver.recvQueue.elements.length - 1,by have := h.drained.length_lt; omega⟩
  refine ⟨_,hread,?_,?_,?_⟩
  · rw [Channel.recvFromSecureChannel,hagain,ok_bind]
    simp only [hn,deliverQueue,hlength,if_true,pure_eq_ok,ok_bind,ReadResult.chunk,List.append_nil]
  · rw [Channel.recvFromSecureChannel,hfailed]
    rfl
  · rw [Channel.recvFromSecureChannel,hclosed]
    rfl

end Reading

section Steps

variable {heap : Nat → UInt8} {c : Channel}

def Phase (c : Channel) : Prop :=
  match c.callback with
  | .established => c.state = .connected ∧ c.fd = true ∧ c.timers = 0
  | .checkConnected => c.state = .connecting ∧ c.fd = true ∧ c.timers = 0
  | .none => (c.state = .init ∨ c.state = .connecting) ∧ c.timers ≤ 1

def Talking (c : Channel) (messages : List Buffer) : Prop :=
  c.link.outgoing ++ totalBytes messages = c.link.offered.flatten

-- What an earlier connection left queued is never written on this one.
def Silent (c : Channel) (messages : List Buffer) : Prop :=
  c.link.outgoing = [] ∧ c.writable = false ∧ messages ≠ [] ∧ c.link.offered = c.pending

def heard (c : Channel) : Bytes := if c.callback = .established then c.link.incoming else []

structure Sound (c : Channel) : Prop where
  phase : Phase c
  queued : ∃ messages, Queued c.sendQueue messages c.pending ∧
    (c.callback = .established → Talking c messages ∨ Silent c messages)
  read : c.receiver.Read (heard c)
  delivered : c.link.delivered = (ofpFramer.frames c.link.incoming).1
  written : c.link.outgoing <+: c.link.offered.flatten

@[simp] theorem clear_timers (c : Channel) : c.clearConnection.timers = c.timers := by
  cases hfd : c.fd with
  | false => simp [Channel.clearConnection,hfd]
  | true => simp [Channel.clearConnection,hfd]

@[simp] theorem clear_sendQueue (c : Channel) : c.clearConnection.sendQueue = c.sendQueue := by
  cases hfd : c.fd with
  | false => simp [Channel.clearConnection,hfd]
  | true => simp [Channel.clearConnection,hfd]

@[simp] theorem clear_pending (c : Channel) : c.clearConnection.pending = c.pending := by
  cases hfd : c.fd with
  | false => simp [Channel.clearConnection,hfd]
  | true => simp [Channel.clearConnection,hfd]

@[simp] theorem clear_link (c : Channel) : c.clearConnection.link = c.link := by
  cases hfd : c.fd with
  | false => simp [Channel.clearConnection,hfd]
  | true => simp [Channel.clearConnection,hfd]

@[simp] theorem clear_receiver (c : Channel) : c.clearConnection.receiver = c.receiver := by
  cases hfd : c.fd with
  | false => simp [Channel.clearConnection,hfd]
  | true => simp [Channel.clearConnection,hfd]

theorem clear_callback (h : c.fd = true ∨ c.callback = .none) :
    c.clearConnection.callback = .none := by
  cases hfd : c.fd with
  | false =>
    have := h.resolve_left (by simp [hfd])
    simpa [Channel.clearConnection,hfd] using this
  | true => simp [Channel.clearConnection,hfd]

theorem phase_none (hcallback : c.callback = .none)
    (hstate : c.state = .init ∨ c.state = .connecting) (htimers : c.timers ≤ 1) : Phase c := by
  rw [Phase,hcallback]
  exact ⟨hstate,htimers⟩

theorem Sound.idle (h : Sound c) {d : Channel} (hcallback : d.callback ≠ .established)
    (hphase : Phase d) (hqueue : d.sendQueue = c.sendQueue) (hpending : d.pending = c.pending)
    (hlink : d.link = c.link) (hread : d.receiver.Read []) : Sound d := by
  obtain ⟨messages,hqueued,_⟩ := h.queued
  refine ⟨hphase,⟨messages,?_,fun hd => absurd hd hcallback⟩,?_,?_,?_⟩
  · rw [hqueue,hpending]
    exact hqueued
  · rw [heard,if_neg hcallback]
    exact hread
  · rw [hlink]
    exact h.delivered
  · rw [hlink]
    exact h.written

theorem Sound.clear (h : Sound c) {e : Channel} (hclear : e.fd = true ∨ e.callback = .none)
    (htimers : e.timers ≤ 1) (hqueue : e.sendQueue = c.sendQueue) (hpending : e.pending = c.pending)
    (hlink : e.link = c.link) (hread : e.receiver.Read []) : Sound e.clearConnection := by
  have hcallback := clear_callback hclear
  refine h.idle (by simp [hcallback]) (phase_none hcallback (.inl rfl) ?_) ?_ ?_ ?_ ?_
  · rwa [clear_timers]
  · rw [clear_sendQueue,hqueue]
  · rw [clear_pending,hpending]
  · rw [clear_link,hlink]
  · rwa [clear_receiver]

theorem Sound.reconnect (h : Sound c) (hcallback : c.callback = .none)
    (hstate : c.state = .init ∨ c.state = .connecting) (htimers : c.timers = 0)
    (hread : c.receiver.Read []) (connect : ConnectResult) :
    ∃ d, c.reconnect connect = .ok d ∧ Sound d := by
  have hother : ¬ c.state = .connected := by
    rcases hstate with hs | hs
    · simp [hs]
    · simp [hs]
  have htransit : transitState c.state .connecting = .connecting := by
    rcases hstate with hs | hs
    · rw [hs]
      rfl
    · rw [hs]
      rfl
  rw [Channel.reconnect,Channel.tryConnect,abortIf_false hother,ok_bind]
  cases connect with
  | noSocket => exact ⟨_,rfl,h.clear (.inr hcallback) (by simp [htimers]) rfl rfl rfl hread⟩
  | retry =>
    refine ⟨_,rfl,h.idle ?_ (phase_none hcallback (.inr htransit) ?_) rfl rfl rfl hread⟩
    · simp [Channel.backoff,hcallback]
    · simp [Channel.backoff,htimers]
  | refused =>
    have hopened : Sound { c with
        fd := true, state := transitState c.state .connecting }.clearConnection :=
      h.clear (.inl rfl) (by simp [htimers]) rfl rfl rfl hread
    refine ⟨_,rfl,hopened.clear (.inr (clear_callback (.inl rfl))) ?_ rfl rfl rfl ?_⟩
    · simp [htimers]
    · simpa using hread
  | inProgress =>
    refine ⟨_,rfl,h.idle (by simp) ?_ rfl rfl rfl hread⟩
    exact ⟨htransit,rfl,htimers⟩

theorem Sound.connected (h : Sound c) (hcallback : c.callback = .none)
    (hstate : c.state = .connecting) (hfd : c.fd = true) (htimers : c.timers = 0) :
    Sound c.connected := by
  obtain ⟨messages,hqueued,_⟩ := h.queued
  have hread := h.read
  rw [heard,if_neg (by simp [hcallback])] at hread
  refine ⟨⟨?_,hfd,htimers⟩,⟨messages,hqueued,fun _ => ?_⟩,hread,rfl,List.nil_prefix⟩
  · rw [Channel.connected,hstate]
    rfl
  · by_cases hwhole : messages.map Buffer.bytes = c.pending
    · refine .inl ?_
      rw [Talking,totalBytes_map,hwhole]
      rfl
    · refine .inr ⟨rfl,rfl,fun hempty => hwhole ?_,rfl⟩
      have hsame := hqueued.same_length
      rw [hempty,List.length_nil] at hsame
      rw [hempty,List.length_eq_zero_iff.mp hsame.symm]
      rfl

theorem Sound.check (h : Sound c) (hcallback : c.callback = .checkConnected)
    (result : CheckResult) : ∃ d, c.checkConnected result = .ok d ∧ Sound d := by
  have hphase := h.phase
  rw [Phase,hcallback] at hphase
  obtain ⟨hstate,hfd,htimers⟩ := hphase
  have hread := h.read
  rw [heard,if_neg (by simp [hcallback])] at hread
  have hquiet : Sound { c with callback := .none, writable := false } :=
    h.idle (by simp) (phase_none rfl (.inr hstate) (by simp [htimers])) rfl rfl rfl hread
  rw [Channel.checkConnected,abortIf_false (by simp [hfd]),ok_bind]
  cases result with
  | noAnswer => exact ⟨_,rfl,hquiet⟩
  | connected => exact ⟨_,rfl,hquiet.connected rfl hstate hfd htimers⟩
  | retry =>
    refine ⟨_,rfl,hquiet.idle (by simp [Channel.backoff])
      (phase_none rfl (.inr hstate) ?_) rfl rfl rfl hread⟩
    simp [Channel.backoff,htimers]
  | inProgress =>
    exact ⟨_,rfl,hquiet.idle (by simp) ⟨hstate,hfd,htimers⟩ rfl rfl rfl hread⟩
  | refused => exact ⟨_,rfl,hquiet.clear (.inr rfl) (by simp [htimers]) rfl rfl rfl hread⟩

theorem Sound.timer (h : Sound c) (htimers : 0 < c.timers) (connect : ConnectResult) :
    ∃ d, Channel.reconnect { c with timers := c.timers - 1 } connect = .ok d ∧ Sound d := by
  have hphase := h.phase
  have hcallback : c.callback = .none := by
    cases hc : c.callback with
    | none => rfl
    | checkConnected =>
      rw [Phase,hc] at hphase
      have := hphase.2.2
      omega
    | established =>
      rw [Phase,hc] at hphase
      have := hphase.2.2
      omega
  rw [Phase,hcallback] at hphase
  obtain ⟨hstate,hone⟩ := hphase
  have hread := h.read
  rw [heard,if_neg (by simp [hcallback])] at hread
  have hfired : Sound { c with timers := c.timers - 1 } :=
    h.idle (by simp [hcallback]) (phase_none hcallback hstate (by simp only; omega)) rfl rfl rfl
      hread
  exact hfired.reconnect hcallback hstate (by simp only; omega) hread connect

theorem Sound.established (h : Sound c) (hcallback : c.callback = .established) :
    c.state = .connected ∧ c.fd = true ∧ c.timers = 0 ∧ c.receiver.Read c.link.incoming := by
  have hphase := h.phase
  have hread := h.read
  rw [Phase,hcallback] at hphase
  rw [heard,if_pos hcallback] at hread
  exact ⟨hphase.1,hphase.2.1,hphase.2.2,hread⟩

theorem Sound.receiver (h : Sound c) {r : Receiver} (hread : r.Read (heard c)) :
    Sound { c with receiver := r } :=
  ⟨h.phase,h.queued,hread,h.delivered,h.written⟩

theorem Sound.closed (h : Sound c) (hcallback : c.callback = .established)
    (hkept : c.receiver.kept = []) (connect : ConnectResult) :
    ∃ d, c.recvFromSecureChannel heap .closed connect = .ok d ∧ Sound d := by
  obtain ⟨hstate,hfd,htimers,hread⟩ := h.established hcallback
  have hrest : (ofpFramer.frames c.link.incoming).2 = [] := by
    rw [← hread.keeps.kept_eq,hkept]
  have hkeeps := hread.keeps
  rw [hrest] at hkeeps
  have hempty : c.receiver.Read [] := ⟨hread.drained,hkeeps⟩
  obtain ⟨r',hr',_,_,hclosed⟩ := Channel.recv_other heap hempty connect
  have hdown : Sound { c with receiver := r' }.disconnected :=
    h.clear (.inl hfd) (by simp [htimers]) rfl rfl rfl hr'
  rw [hclosed]
  refine hdown.reconnect ?_ (.inl rfl) ?_ ?_ connect
  · exact clear_callback (.inl hfd)
  · simp [Channel.disconnected,htimers]
  · simpa [Channel.disconnected] using hr'

theorem Sound.readable (h : Sound c) (hcallback : c.callback = .established) {read : ReadResult}
    (hanswer : ∀ bytes, read = .data bytes → Answers heap c.receiver read ∧
      ofpFramer.Headed Lengthy (c.link.incoming ++ bytes))
    (hclosed : read = .closed → c.receiver.kept = []) (connect : ConnectResult) :
    ∃ d, c.recvFromSecureChannel heap read connect = .ok d ∧ Sound d := by
  obtain ⟨hstate,hfd,htimers,hread⟩ := h.established hcallback
  have hheard : heard c = c.link.incoming := if_pos hcallback
  obtain ⟨r',hr',hagain,hfailed,_⟩ := Channel.recv_other heap hread connect
  cases read with
  | again => exact ⟨_,hagain,h.receiver (by rwa [hheard])⟩
  | failed => exact ⟨_,hfailed,h.receiver (by rwa [hheard])⟩
  | closed => exact h.closed hcallback (hclosed rfl) connect
  | data bytes =>
    obtain ⟨hanswers,hheaded⟩ := hanswer bytes rfl
    obtain ⟨r,hrun,hr⟩ := Channel.recv_data _ bytes hread hheaded hanswers connect
    refine ⟨_,hrun,h.phase,h.queued,?_,?_,h.written⟩
    · rw [heard,if_pos hcallback]
      exact hr
    · have happend := ofpFramer.frames_append c.link.incoming bytes
      simp only [happend,h.delivered]

theorem Sound.writable (h : Sound c) (hcallback : c.callback = .established)
    (hwritable : c.writable = true) {writes : List WriteResult} (hwrites : Wrote writes) :
    ∃ d, c.flushSendQueue writes = .ok d ∧ Sound d := by
  obtain ⟨hstate,hfd,htimers,hread⟩ := h.established hcallback
  obtain ⟨messages,hqueued,hvoice⟩ := h.queued
  have htalking : Talking c messages := by
    rcases hvoice hcallback with htalk | hsilent
    · exact htalk
    · exact absurd (hwritable.symm.trans hsilent.2.1) (by simp)
  obtain ⟨f,messages',hrun,hf,hbytes⟩ :=
    hqueued.flush writes hwrites c.link.outgoing false
  have htalking' : f.outgoing ++ totalBytes messages' = c.link.offered.flatten :=
    hbytes.trans htalking
  rw [Channel.flushSendQueue,abortIf_false (by simp [hfd]),ok_bind,hrun,ok_bind]
  exact ⟨_,rfl,h.phase,⟨messages',hf,fun _ => .inl htalking'⟩,h.read,h.delivered,
    ⟨totalBytes messages',htalking'⟩⟩

theorem Sound.send (h : Sound c) (hstate : c.state = .connected) {message : Buffer}
    (hm : Sendable message)
    (hclean : c.waiting.length % 4294967296 = 0 → c.Whole) :
    ∃ d, c.sendMessageToSecureChannel message = .ok d ∧ Sound d := by
  have hcallback : c.callback = .established := by
    have hphase := h.phase
    cases hc : c.callback with
    | established => rfl
    | checkConnected => simp [Phase,hc,hstate] at hphase
    | none => simp [Phase,hc,hstate] at hphase
  obtain ⟨_,hfd,htimers,hread⟩ := h.established hcallback
  obtain ⟨messages,hqueued,hvoice⟩ := h.queued
  have hwaiting : c.waiting = messages := hqueued.holds.waiting_eq
  have hpos := hm.nonempty
  have hlength : c.sendQueue.length = 0 ↔ messages.length % 4294967296 = 0 := by
    rw [hqueued.holds.counted,← UInt32.toNat_inj]
    simp
  have htalk : Talking c messages → c.link.outgoing ++ totalBytes (messages ++ [message]) =
      (c.link.offered ++ [message.bytes]).flatten := by
    intro htalking
    rw [totalBytes_append,← List.append_assoc,htalking]
    simp [totalBytes]
  rw [Channel.sendMessageToSecureChannel,abortIf_false (by omega),ok_bind,
    abortIf_false (by simp [hstate]),ok_bind,abortIf_false (by simp [hfd]),ok_bind]
  by_cases hzero : c.sendQueue.length = 0
  · have htalking : Talking c messages := by
      rcases hvoice hcallback with htalk | ⟨hout,_,_,hoffered⟩
      · exact htalk
      · have hwhole := hclean (by rw [hwaiting]; exact hlength.mp hzero)
        rw [Channel.Whole,hwaiting] at hwhole
        rw [Talking,hout,hoffered,← hwhole,totalBytes_map]
        rfl
    rw [if_pos hzero,Channel.setWritable,if_neg (by simp [hcallback])]
    refine ⟨_,rfl,h.phase,⟨_,hqueued.enqueue hm,fun _ => .inl (htalk htalking)⟩,h.read,
      h.delivered,?_⟩
    exact ⟨_,htalk htalking⟩
  · rw [if_neg hzero]
    refine ⟨_,rfl,h.phase,⟨_,hqueued.enqueue hm,fun _ => ?_⟩,h.read,h.delivered,?_⟩
    · rcases hvoice hcallback with htalking | ⟨hout,hquiet,_,hoffered⟩
      · exact .inl (htalk htalking)
      · exact .inr ⟨hout,hquiet,by simp,by simp only [hoffered]⟩
    · obtain ⟨rest,hrest⟩ := h.written
      refine ⟨rest ++ message.bytes,?_⟩
      simp only [← List.append_assoc,hrest]
      simp

end Steps

section Runs

variable (heap : Nat → UInt8)

def ReadResult.Fits (r : Receiver) : ReadResult → Prop
  | .data bytes => Answers heap r (.data bytes)
  | _ => True

def ChannelEvent.Possible (c : Channel) : ChannelEvent → Prop
  | .readable read _ => c.callback = .established ∧ read.Fits heap c.receiver
  | .writable writes => c.callback = .established ∧ c.writable = true ∧ Wrote writes
  | .check _ => c.callback = .checkConnected
  | .timer _ => 0 < c.timers
  | .send message => c.state = .connected ∧ Sendable message

def ChannelEvent.Clean (c : Channel) : ChannelEvent → Prop
  | .readable (.data bytes) _ => ofpFramer.Headed Lengthy (c.link.incoming ++ bytes)
  | .readable .closed _ => c.receiver.kept = []
  | .send _ => c.waiting.length % 4294967296 = 0 → c.Whole
  | _ => True

def Everywhere (holds : Channel → ChannelEvent → Prop) : Channel → List ChannelEvent → Prop
  | _, [] => True
  | c, event :: events => holds c event ∧
      ∀ d, event.step heap c = .ok d → Everywhere holds d events

variable {heap} {c : Channel}

theorem Sound.step {event : ChannelEvent} (h : Sound c) (hpossible : event.Possible heap c)
    (hclean : event.Clean c) : ∃ d, event.step heap c = .ok d ∧ Sound d := by
  cases event with
  | readable read connect =>
    refine h.readable hpossible.1 (fun bytes hbytes => ?_) (fun hclosed => ?_) connect
    · subst hbytes
      exact ⟨hpossible.2,hclean⟩
    · subst hclosed
      exact hclean
  | writable writes => exact h.writable hpossible.1 hpossible.2.1 hpossible.2.2
  | check result => exact h.check hpossible result
  | timer connect => exact h.timer hpossible connect
  | send message => exact h.send hpossible.1 hpossible.2 hclean

theorem Sound.run (h : Sound c) (events : List ChannelEvent)
    (hpossible : Everywhere heap (fun d event => event.Possible heap d) c events)
    (hclean : Everywhere heap (fun d event => event.Clean d) c events) :
    ∃ d, channelRun heap c events = .ok d ∧ Sound d := by
  induction events generalizing c with
  | nil => exact ⟨c,rfl,h⟩
  | cons event events ih =>
    obtain ⟨d,hstep,hd⟩ := h.step hpossible.1 hclean.1
    obtain ⟨e,hrun,he⟩ := ih hd (hpossible.2 d hstep) (hclean.2 d hstep)
    exact ⟨e,by rw [channelRun,hstep,ok_bind,hrun],he⟩

theorem sound_unconnected : Sound Channel.unconnected :=
  ⟨⟨.inl rfl,Nat.zero_le _⟩,⟨[],⟨Holds.create,by simp,rfl⟩,fun h => by simp [Channel.unconnected] at h⟩,
    read_init,rfl,List.prefix_rfl⟩

theorem sound_init {connect : ConnectResult} {c : Channel}
    (h : initSecureChannel connect = .ok (true,c)) : Sound c := by
  have hsound := sound_unconnected.reconnect rfl (.inl rfl) rfl read_init connect
  obtain ⟨d,hd,hsound⟩ := hsound
  have hsame : initSecureChannel connect = .ok (true,c) → d = c := by
    intro hinit
    rw [initSecureChannel,bind_eq_ok] at hinit
    obtain ⟨tried,htry,hpair⟩ := hinit
    rw [Channel.reconnect,htry,ok_bind] at hd
    injection hd with hd
    injection hpair with hpair
    rw [← hd]
    exact congrArg Prod.snd hpair
  rw [← hsame h]
  exact hsound

variable (heap) in
theorem reconnections_frame_anew {connect : ConnectResult} {start : Channel}
    (hinit : initSecureChannel connect = .ok (true,start)) (events : List ChannelEvent)
    (hpossible : Everywhere heap (fun c event => event.Possible heap c) start events)
    (hclean : Everywhere heap (fun c event => event.Clean c) start events) :
    ∃ c, channelRun heap start events = .ok c ∧
      c.link.delivered = (ofpFramer.frames c.link.incoming).1 ∧
      c.link.outgoing <+: c.link.offered.flatten := by
  obtain ⟨c,hrun,hc⟩ := (sound_init hinit).run events hpossible hclean
  exact ⟨c,hrun,hc.delivered,hc.written⟩

end Runs

section Examples

def zeroHeap : Nat → UInt8 := fun _ => 0

variable {holds : Channel → ChannelEvent → Prop} {c d : Channel} {event : ChannelEvent}
  {events : List ChannelEvent}

theorem everywhere_cons {heap : Nat → UInt8} (hfirst : holds c event)
    (hstep : event.step heap c = .ok d) (hrest : Everywhere heap holds d events) :
    Everywhere heap holds c (event :: events) := by
  refine ⟨hfirst,fun e he => ?_⟩
  rw [hstep] at he
  injection he with he
  exact he ▸ hrest

theorem run_cons {heap : Nat → UInt8} (hstep : event.step heap c = .ok d)
    (events : List ChannelEvent) :
    channelRun heap c (event :: events) = channelRun heap d events := by
  rw [channelRun,hstep,ok_bind]

def asking : Channel :=
  { Channel.unconnected with
    state := .connecting, fd := true, callback := .checkConnected, writable := true }

def up : Channel := { asking with callback := .none, writable := false }.connected

theorem init_asking : initSecureChannel .inProgress = .ok (true,asking) := rfl

theorem check_up (heap : Nat → UInt8) (r : Receiver) (link : Link) :
    (ChannelEvent.check .connected).step heap { asking with receiver := r, link := link } =
      .ok { up with receiver := r } := rfl

theorem closed_asking (heap : Nat → UInt8) {r : Receiver} {read : Bytes} (h : r.Read read)
    (link : Link) : ∃ r', r'.Read read ∧
      (ChannelEvent.readable .closed .inProgress).step heap
        { up with receiver := r, link := link } =
          .ok { asking with receiver := r', link := link } := by
  obtain ⟨r',hr',_,_,hclosed⟩ :=
    Channel.recv_other heap (c := { up with receiver := r, link := link }) h .inProgress
  exact ⟨r',hr',hclosed⟩

def resumed : List ChannelEvent :=
  [.check .connected,.readable .closed .inProgress,.check .connected,.send oneByte]

theorem reconnections_frame_anew_resumed :
    ∃ c, channelRun zeroHeap asking resumed = .ok c ∧
      c.link.delivered = (ofpFramer.frames c.link.incoming).1 ∧
      c.link.outgoing <+: c.link.offered.flatten := by
  obtain ⟨r,_,hclosed⟩ := closed_asking zeroHeap read_init ⟨[],[],[],[]⟩
  have hfirst := check_up zeroHeap Receiver.init ⟨[],[],[],[]⟩
  have hsecond := check_up zeroHeap r ⟨[],[],[],[]⟩
  refine reconnections_frame_anew zeroHeap init_asking resumed ?_ ?_
  · exact everywhere_cons rfl hfirst (everywhere_cons ⟨rfl,trivial⟩ hclosed
      (everywhere_cons rfl hsecond ⟨⟨rfl,sendable_oneByte⟩,fun _ _ => trivial⟩))
  · exact everywhere_cons trivial hfirst (everywhere_cons rfl hclosed
      (everywhere_cons trivial hsecond ⟨fun _ => rfl,fun _ _ => trivial⟩))

def halfHeader : Bytes := [1,0,0,8]

def hello : Bytes := [1,0,0,8,0,0,0,9]

def broken : List ChannelEvent :=
  [.check .connected,.readable (.data halfHeader) .inProgress,.readable .closed .inProgress,
    .check .connected,.readable (.data hello) .inProgress]

theorem frames_half : ofpFramer.frames halfHeader = ([],halfHeader) := by decide

theorem frames_joined :
    ofpFramer.frames (halfHeader ++ hello) = ([[1,0,0,8,1,0,0,8]],[0,0,0,9]) := by decide

theorem frames_hello : ¬ [[1,0,0,8,1,0,0,8]] = (ofpFramer.frames hello).1 := by decide

theorem headed_half : ofpFramer.Headed Lengthy halfHeader := by
  rw [Framer.Headed,frames_half]
  exact ⟨by simp,fun h => absurd h (by decide)⟩

theorem headed_joined : ofpFramer.Headed Lengthy (halfHeader ++ hello) := by
  rw [Framer.Headed,frames_joined]
  refine ⟨fun m hm => ?_,fun h => absurd h (by decide)⟩
  rw [List.mem_singleton.mp hm]
  exact ⟨by decide,trivial⟩

theorem stale_fragment_misframes :
    ∃ c, initSecureChannel .inProgress = .ok (true,asking) ∧
      Everywhere zeroHeap (fun c event => event.Possible zeroHeap c) asking broken ∧
      channelRun zeroHeap asking broken = .ok c ∧ c.link.incoming = hello ∧
      c.link.delivered = [[1,0,0,8,1,0,0,8]] ∧
      ¬ c.link.delivered = (ofpFramer.frames c.link.incoming).1 := by
  have hfirst := check_up zeroHeap Receiver.init ⟨[],[],[],[]⟩
  have hhalf : Answers zeroHeap up.receiver (.data halfHeader) :=
    read_init.answers zeroHeap ((headed_half.of_append (s := []) fun _ _ _ => Iff.rfl))
      ⟨by decide,by decide⟩
  obtain ⟨r₁,hdata,hr₁⟩ :=
    Channel.recv_data (c := up) [] halfHeader read_init headed_half hhalf .inProgress
  obtain ⟨r₂,hr₂,hclosed⟩ := closed_asking zeroHeap hr₁ ⟨halfHeader,[],[],[]⟩
  have hsecond := check_up zeroHeap r₂ ⟨halfHeader,[],[],[]⟩
  have hhello : Answers zeroHeap r₂ (.data hello) :=
    hr₂.answers zeroHeap headed_half ⟨by decide,by decide⟩
  obtain ⟨r₃,hlast,_⟩ :=
    Channel.recv_data (c := { up with receiver := r₂ }) halfHeader hello hr₂ headed_joined hhello
      .inProgress
  have hread : (ChannelEvent.readable (.data halfHeader) .inProgress).step zeroHeap up =
      .ok { up with receiver := r₁, link := ⟨halfHeader,[],[],[]⟩ } := by
    have hnone : (ofpFramer.frames []).2 ++ halfHeader = halfHeader := rfl
    rw [hnone,frames_half] at hdata
    exact hdata
  have hmixed : (ChannelEvent.readable (.data hello) .inProgress).step zeroHeap
      { up with receiver := r₂ } =
        .ok { up with receiver := r₃, link := ⟨hello,[[1,0,0,8,1,0,0,8]],[],[]⟩ } := by
    rw [frames_half,frames_joined] at hlast
    exact hlast
  refine ⟨{ up with receiver := r₃, link := ⟨hello,[[1,0,0,8,1,0,0,8]],[],[]⟩ },init_asking,?_,?_,rfl,
    rfl,frames_hello⟩
  · exact everywhere_cons rfl hfirst (everywhere_cons ⟨rfl,hhalf⟩ hread
      (everywhere_cons ⟨rfl,trivial⟩ hclosed (everywhere_cons rfl hsecond
        ⟨⟨rfl,hhello⟩,fun _ _ => trivial⟩)))
  · exact (run_cons hfirst _).trans ((run_cons hread _).trans ((run_cons hclosed _).trans
      ((run_cons hsecond _).trans (run_cons hmixed _))))

end Examples

end Trema.SecureChannel
