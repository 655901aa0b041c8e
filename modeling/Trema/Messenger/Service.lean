import Trema.Messenger.Receiving
import Mathlib.Logic.Function.Basic

namespace Trema.Messenger

open Library

variable {υ : Type} {callbacks : List ReceiveQueueCallback}

-- The messages were handled one by one, in order, each with the calls it asks for and with the context
-- table that the calls before it left.
inductive Delivered (react : Call υ → List υ) (callbacks : List ReceiveQueueCallback) :
    Contexts υ → List Message → List (Handled υ) → Contexts υ → Prop
  | nil (c : Contexts υ) : Delivered react callbacks c [] [] c
  | cons {c c' : Contexts υ} {m : Message} {ms : List Message} {handled : List (Handled υ)}
      {calls : List (Call υ)} (h : Invokes callbacks c m calls)
      (rest : Delivered react callbacks (callMessageCallbacks react m.pulled callbacks m.data c).2 ms
        handled c') :
      Delivered react callbacks c (m :: ms) (⟨m.pulled,c,calls⟩ :: handled) c'

theorem Delivered.append {react : Call υ → List υ} {c c' c'' : Contexts υ} {ms ms' : List Message}
    {handled handled' : List (Handled υ)} (h : Delivered react callbacks c ms handled c')
    (h' : Delivered react callbacks c' ms' handled' c'') :
    Delivered react callbacks c (ms ++ ms') (handled ++ handled') c'' := by
  induction h with
  | nil => exact h'
  | cons hinvokes _ ih => exact .cons hinvokes (ih h')

structure Supported (callbacks : List ReceiveQueueCallback) : Prop where
  request : (functionsOf callbacks .request).length ≤ 1
  reply : (functionsOf callbacks .reply).length ≤ 1

-- A packet of whole messages that one recv takes.
def Whole (ms : List Message) : Prop := ms ≠ [] ∧ (frames ms).length ≤ messengerRecvBuffer

section Passes

theorem size_le_frames {ms : List Message} {m : Message} (h : m ∈ ms) : m.size ≤ (frames ms).length := by
  induction ms with
  | nil => exact absurd h (by simp)
  | cons a ms ih =>
    rw [frames_cons,List.length_append,Message.length_encode]
    rcases List.mem_cons.mp h with rfl | h
    · exact Nat.le_add_right _ _
    · exact (ih h).trans (Nat.le_add_left _ _)

theorem pullLoop_frames (react : Call υ → List υ) (hc : Supported callbacks) {ms : List Message} {buf : MessageBuffer} {fuel : Nat}
    (h : buf.contents = frames ms) (hsmall : ∀ m ∈ ms, m.size ≤ messengerRecvBuffer)
    (hfuel : ms.length < fuel) (c : Contexts υ) :
    ∃ r, pullLoop react callbacks fuel buf c = .ok r ∧
      Delivered react callbacks c ms r.handled r.contexts ∧ r.buffer.contents = [] ∧ r.buffer.size = buf.size := by
  induction ms generalizing buf fuel c with
  | nil =>
    obtain ⟨fuel,rfl⟩ := Nat.exists_eq_succ_of_ne_zero (Nat.ne_of_gt hfuel)
    rw [pullLoop,pull_empty h]
    exact ⟨_,rfl,.nil c,h,rfl⟩
  | cons m ms ih =>
    obtain ⟨fuel,rfl⟩ := Nat.exists_eq_succ_of_ne_zero (Nat.ne_of_gt (Nat.zero_lt_of_lt hfuel))
    obtain ⟨buf',hpull,hrest,hsize⟩ := pull_frames h (hsmall m (by simp))
    rw [pullLoop,hpull]
    simp only
    obtain ⟨r,hr,hdelivered,hempty,hsize'⟩ := ih hrest (fun a ha => hsmall a (by simp [ha]))
      (by simpa using hfuel) (callMessageCallbacks react m.pulled callbacks m.pulled.data c).2
    rw [hr]
    exact ⟨_,rfl,.cons (call_invokes hc.request hc.reply c) hdelivered,hempty,hsize'.trans hsize⟩

theorem recvLoop_frames (closes : Bool) {mss : List (List Message)} {done : List Message}
    {buf : MessageBuffer} (h : buf.contents = frames done) (hsize : buf.size = messengerRecvQueueLength)
    (hwhole : ∀ ms ∈ mss, Whole ms) :
    ∃ taken left, mss = taken ++ left ∧ (recvLoop closes (mss.map frames) buf).waiting = left.map frames ∧
      (recvLoop closes (mss.map frames) buf).buffer.contents = frames (done ++ taken.flatten) ∧
      (recvLoop closes (mss.map frames) buf).buffer.size = messengerRecvQueueLength ∧
      ((recvLoop closes (mss.map frames) buf).closed = true → left = []) ∧
      (done = [] → taken = [] → mss = []) := by
  induction mss generalizing done buf with
  | nil => exact ⟨[],[],rfl,rfl,by simp [recvLoop,h],hsize,fun _ => rfl,fun _ _ => rfl⟩
  | cons ms mss ih =>
    obtain ⟨hne,hle⟩ := hwhole ms (by simp)
    have hlen := buf.length_contents
    rw [h] at hlen
    have hq : messengerRecvQueueLength = 200000 := rfl
    have hr : messengerRecvBuffer = 100000 := rfl
    have hv : messengerRecvQueueReserved = 100000 := rfl
    rw [List.map_cons,recvLoop]
    split
    · rename_i hroom
      have hremain : (frames ms).length ≤ min (messageBufferRemainBytes buf) messengerRecvBuffer := by
        omega
      have hsome : ¬ (frames ms).length = 0 := by
        intro hzero
        exact hne (frames_eq_nil (by omega))
      simp only [List.take_of_length_le hremain,if_neg hsome]
      have hcontents : (writeMessageBuffer buf (frames ms)).2.contents = frames (done ++ ms) := by
        rw [contents_write buf (by omega),h,frames_append]
      obtain ⟨taken,left,hsplit,hwaiting,hall,hsize',hclosed,_⟩ :=
        ih hcontents ((size_write buf _).trans hsize) fun a ha => hwhole a (by simp [ha])
      refine ⟨ms :: taken,left,by rw [hsplit]; rfl,hwaiting,?_,hsize',hclosed,by simp⟩
      rw [hall,List.flatten_cons,List.append_assoc]
    · rename_i hfull
      refine ⟨[],ms :: mss,rfl,rfl,by simp [h],hsize,by simp,?_⟩
      intro hdone _
      subst hdone
      rw [messageBufferRemainBytes] at hfull
      rw [frames_nil,List.length_nil] at hlen
      omega

theorem onRecv_frames (react : Call υ → List υ) (hc : Supported callbacks) {rq : ReceiveQueue}
    (hcallbacks : rq.messageCallbacks = callbacks) (hempty : rq.buffer.contents = []) (hsize : rq.buffer.size = messengerRecvQueueLength)
    {mss : List (List Message)} (hwhole : ∀ ms ∈ mss, Whole ms) (c : Contexts υ) (closes : Bool) :
    ∃ pass taken left, onRecv react rq c (mss.map frames) closes = .ok pass ∧ mss = taken ++ left ∧
      pass.waiting = left.map frames ∧
      Delivered react callbacks c taken.flatten pass.handled pass.contexts ∧
      pass.rq.messageCallbacks = callbacks ∧ pass.rq.buffer.contents = [] ∧
      pass.rq.buffer.size = messengerRecvQueueLength ∧ (pass.closed = true → left = []) ∧
      (taken = [] → mss = []) := by
  have hstart : rq.buffer.contents = frames [] := hempty
  obtain ⟨taken,left,hsplit,hwaiting,hcontents,hsize',hclosed,htaken⟩ :=
    recvLoop_frames closes hstart hsize hwhole
  rw [List.nil_append] at hcontents
  have hsmall : ∀ m ∈ taken.flatten, m.size ≤ messengerRecvBuffer := by
    intro m hm
    obtain ⟨ms,hms,hmem⟩ := List.mem_flatten.mp hm
    have hle := (hwhole ms (by rw [hsplit]; simp [hms])).2
    exact (size_le_frames hmem).trans hle
  have hfuel : taken.flatten.length < (recvLoop closes (mss.map frames) rq.buffer).buffer.dataLength + 1 := by
    have hcount := messages_le_bytes taken.flatten
    rw [← hcontents,MessageBuffer.length_contents] at hcount
    omega
  obtain ⟨r,hr,hdelivered,hdone,hsize''⟩ := pullLoop_frames react hc hcontents hsmall hfuel c
  rw [onRecv,hcallbacks]
  simp only [hr]
  exact ⟨_,taken,left,rfl,hsplit,hwaiting,hdelivered,rfl,hdone,hsize''.trans hsize',hclosed,
    htaken rfl⟩

end Passes

-- The service with the sockets of its clients; `arrived` are the packets the clients sent.
structure Service (υ : Type) where
  rq : ReceiveQueue
  contexts : Contexts υ
  sockets : Nat → Option (List Bytes)
  arrived : List (Nat × List Message)
  handled : List (Handled υ)

inductive ServiceEvent where
  | accept (client : Nat)
  | arrive (client : Nat) (ms : List Message)
  | ready (client : Nat) (closes : Bool)

section Runs

variable (react : Call υ → List υ)

def serviceStep (s : Service υ) : ServiceEvent → Except Fault (Service υ)
  | .accept client =>
    match s.sockets client with
    | some _ => .ok s
    | none => .ok { s with sockets := Function.update s.sockets client (some []) }
  | .arrive client ms =>
    match s.sockets client with
    | none => .ok s
    | some waiting =>
      let sockets := Function.update s.sockets client (some (waiting ++ [frames ms]))
      .ok { s with sockets := sockets, arrived := s.arrived ++ [(client,ms)] }
  | .ready client closes =>
    match s.sockets client with
    | none => .ok s
    | some waiting =>
      match onRecv react s.rq s.contexts waiting closes with
      | .error e => .error e
      | .ok pass =>
        .ok ⟨pass.rq,pass.contexts,
          Function.update s.sockets client (if pass.closed then none else some pass.waiting),
          s.arrived,s.handled ++ pass.handled⟩

def serviceRun : Service υ → List ServiceEvent → Except Fault (Service υ)
  | s, [] => .ok s
  | s, event :: events =>
    match serviceStep react s event with
    | .error e => .error e
    | .ok s => serviceRun s events

def newService (rq : ReceiveQueue) (c : Contexts υ) : Service υ := ⟨rq,c,fun _ => none,[],[]⟩

def ServiceEvent.Carries : ServiceEvent → Prop
  | .arrive _ ms => Whole ms
  | _ => True

def ofClient (client : Nat) (packets : List (Nat × List Message)) : List (List Message) :=
  (packets.filter fun p => p.1 = client).map Prod.snd

-- `log` are the packets that were handled. A client's packets are handled in order; the rest waits.
structure InStep (callbacks : List ReceiveQueueCallback) (c : Contexts υ) (s : Service υ)
    (log : List (Nat × List Message)) : Prop where
  registered : s.rq.messageCallbacks = callbacks
  empty : s.rq.buffer.contents = []
  size : s.rq.buffer.size = messengerRecvQueueLength
  delivered : Delivered react callbacks c (log.flatMap Prod.snd) s.handled s.contexts
  order : ∀ client, ∃ left, (s.sockets client).getD [] = left.map frames ∧ (∀ ms ∈ left, Whole ms) ∧
    ofClient client s.arrived = ofClient client log ++ left

theorem ofClient_append (client : Nat) (l l' : List (Nat × List Message)) :
    ofClient client (l ++ l') = ofClient client l ++ ofClient client l' := by
  rw [ofClient,List.filter_append,List.map_append]
  rfl

theorem ofClient_tagged (client client' : Nat) (mss : List (List Message)) :
    ofClient client (mss.map fun ms => (client',ms)) = if client' = client then mss else [] := by
  induction mss with
  | nil => simp [ofClient]
  | cons ms mss ih =>
    rw [ofClient] at ih
    rw [List.map_cons,ofClient,List.filter_cons]
    by_cases hc : client' = client
    · simp [hc] at ih ⊢
      exact ih
    · simp [hc]

variable {react} {c : Contexts υ} {s : Service υ} {log : List (Nat × List Message)}

theorem InStep.step (hc : Supported callbacks) (h : InStep react callbacks c s log) (event : ServiceEvent)
    (hevent : event.Carries) :
    ∃ s' log', serviceStep react s event = .ok s' ∧ InStep react callbacks c s' log' := by
  cases event with
  | accept client =>
    rw [serviceStep]
    cases hs : s.sockets client with
    | some waiting => exact ⟨s,log,rfl,h⟩
    | none =>
      refine ⟨_,log,rfl,h.registered,h.empty,h.size,h.delivered,?_⟩
      intro other
      obtain ⟨left,hleft,hwhole,harrived⟩ := h.order other
      refine ⟨left,?_,hwhole,harrived⟩
      simp only [Function.update_apply]
      split
      · rename_i hother
        rw [hother,hs] at hleft
        exact hleft
      · exact hleft
  | arrive client ms =>
    rw [serviceStep]
    cases hs : s.sockets client with
    | none => exact ⟨s,log,rfl,h⟩
    | some waiting =>
      refine ⟨_,log,rfl,h.registered,h.empty,h.size,h.delivered,?_⟩
      intro other
      obtain ⟨left,hleft,hwhole,harrived⟩ := h.order other
      simp only [Function.update_apply,ofClient_append,harrived]
      have hone : ofClient other [(client,ms)] = if client = other then [ms] else [] :=
        ofClient_tagged other client [ms]
      rw [hone]
      by_cases hother : other = client
      · subst hother
        rw [hs,Option.getD_some] at hleft
        refine ⟨left ++ [ms],by simp [hleft],?_,by simp⟩
        intro a ha
        rcases List.mem_append.mp ha with ha | ha
        · exact hwhole a ha
        · rw [List.mem_singleton.mp ha]
          exact hevent
      · refine ⟨left,by rw [if_neg hother]; exact hleft,hwhole,?_⟩
        rw [if_neg (Ne.symm hother),List.append_nil]
  | ready client closes =>
    rw [serviceStep]
    cases hs : s.sockets client with
    | none => exact ⟨s,log,rfl,h⟩
    | some waiting =>
      obtain ⟨left,hleft,hwhole,harrived⟩ := h.order client
      rw [hs,Option.getD_some] at hleft
      subst hleft
      obtain ⟨pass,taken,left',hpass,hsplit,hwaiting,hdelivered,hcallbacks,hempty,hsize,hclosed,_⟩ :=
        onRecv_frames react hc h.registered h.empty h.size hwhole s.contexts closes
      simp only [hpass]
      refine ⟨_,log ++ taken.map fun ms => (client,ms),rfl,hcallbacks,hempty,hsize,?_,?_⟩
      · rw [List.flatMap_append,List.flatMap_map]
        have hflat : (taken.flatMap fun ms => (client,ms).2) = taken.flatten := by
          rw [List.flatMap_id']
        rw [hflat]
        exact h.delivered.append hdelivered
      · intro other
        obtain ⟨left₀,hleft₀,hwhole₀,harrived₀⟩ := h.order other
        simp only [Function.update_apply,ofClient_append,ofClient_tagged]
        by_cases hother : other = client
        · subst hother
          refine ⟨left',?_,?_,?_⟩
          · rw [if_pos rfl]
            cases hcl : pass.closed with
            | true => simp [hclosed hcl]
            | false => simp [hwaiting]
          · intro ms hms
            exact hwhole ms (by rw [hsplit]; simp [hms])
          · rw [harrived,hsplit,if_pos rfl,List.append_assoc]
        · refine ⟨left₀,by rw [if_neg hother]; exact hleft₀,hwhole₀,?_⟩
          rw [harrived₀,if_neg (Ne.symm hother),List.append_nil]

theorem InStep.run (hc : Supported callbacks) (events : List ServiceEvent) (h : InStep react callbacks c s log)
    (hevents : ∀ e ∈ events, e.Carries) :
    ∃ s' log', serviceRun react s events = .ok s' ∧ InStep react callbacks c s' log' := by
  induction events generalizing s log with
  | nil => exact ⟨s,log,rfl,h⟩
  | cons event events ih =>
    obtain ⟨s',log',hstep,h'⟩ := h.step hc event (hevents event (by simp))
    rw [serviceRun,hstep]
    exact ih h' fun e he => hevents e (by simp [he])

theorem registered_eq (heap : Nat → UInt8) (callbacks : List ReceiveQueueCallback) :
    registered heap callbacks = ⟨callbacks,createMessageBuffer heap messengerRecvQueueLength⟩ := by
  induction callbacks with
  | nil => rfl
  | cons cb callbacks ih =>
    rw [registered,List.foldr_cons,← registered,ih]
    rfl

theorem newService_inStep (react : Call υ → List υ) (heap : Nat → UInt8) (callbacks : List ReceiveQueueCallback)
    (c : Contexts υ) : InStep react callbacks c (newService (registered heap callbacks) c) [] := by
  rw [registered_eq]
  exact ⟨rfl,contents_create _ _,size_create _ _,.nil c,fun client => ⟨[],rfl,by simp,rfl⟩⟩

theorem service_invokes_callbacks (react : Call υ → List υ) (heap : Nat → UInt8)
    (hc : Supported callbacks) (c : Contexts υ) (events : List ServiceEvent)
    (hevents : ∀ e ∈ events, e.Carries) :
    ∃ s log, serviceRun react (newService (registered heap callbacks) c) events = .ok s ∧
      s.rq.buffer.contents = [] ∧
      Delivered react callbacks c (log.flatMap Prod.snd) s.handled s.contexts ∧
      (∀ client, ∃ left, (s.sockets client).getD [] = left.map frames ∧
        ofClient client s.arrived = ofClient client log ++ left) ∧
      ∀ client packet packets closes, s.sockets client = some (packet :: packets) →
        ∃ pass, onRecv react s.rq s.contexts (packet :: packets) closes = .ok pass ∧ pass.handled ≠ [] := by
  obtain ⟨s,log,hrun,h⟩ := (newService_inStep react heap callbacks c).run hc events hevents
  refine ⟨s,log,hrun,h.empty,h.delivered,?_,?_⟩
  · intro client
    obtain ⟨left,hleft,_,harrived⟩ := h.order client
    exact ⟨left,hleft,harrived⟩
  · intro client packet packets closes hs
    obtain ⟨left,hleft,hwhole,_⟩ := h.order client
    rw [hs,Option.getD_some] at hleft
    obtain ⟨pass,taken,left',hpass,hsplit,_,hdelivered,_,_,_,_,hsome⟩ :=
      onRecv_frames react hc h.registered h.empty h.size hwhole s.contexts closes
    rw [hleft]
    refine ⟨pass,hpass,?_⟩
    intro hnone
    rw [hnone] at hdelivered
    have hnil : taken.flatten = [] := by
      cases hflat : taken.flatten with
      | nil => rfl
      | cons m ms =>
        rw [hflat] at hdelivered
        cases hdelivered
    have htaken : taken = [] := by
      cases taken with
      | nil => rfl
      | cons ms taken =>
        rw [List.flatten_cons,List.append_eq_nil_iff] at hnil
        exact absurd hnil.1 (hwhole ms (by rw [hsplit]; simp)).1
    rw [hsome htaken] at hleft
    exact absurd hleft (by simp)

theorem serviceStep_packet (react : Call υ → List υ) (hc : Supported callbacks)
    (hcallbacks : s.rq.messageCallbacks = callbacks) (hempty : s.rq.buffer.contents = [])
    (hsize : s.rq.buffer.size = messengerRecvQueueLength) {client : Nat} {ms : List Message} (hs : s.sockets client = some [frames ms]) (hwhole : Whole ms) :
    ∃ s' handled, serviceStep react s (.ready client false) = .ok s' ∧ s'.handled = s.handled ++ handled ∧
      Delivered react callbacks s.contexts ms handled s'.contexts ∧
      (∀ other, other ≠ client → s'.sockets other = s.sockets other) ∧
      s'.rq.messageCallbacks = callbacks ∧ s'.rq.buffer.contents = [] ∧
      s'.rq.buffer.size = messengerRecvQueueLength := by
  have hall : ∀ a ∈ [ms], Whole a := by
    intro a ha
    rw [List.mem_singleton.mp ha]
    exact hwhole
  obtain ⟨pass,taken,left,hpass,hsplit,_,hdelivered,hcallbacks',hempty',hsize',_,hsome⟩ :=
    onRecv_frames react hc hcallbacks hempty hsize hall s.contexts false
  have htaken : taken.flatten = ms := by
    cases taken with
    | nil => exact absurd (hsome rfl) (by simp)
    | cons a taken =>
      obtain ⟨rfl,hrest⟩ := List.cons.inj hsplit
      rw [(List.append_eq_nil_iff.mp hrest.symm).1,List.flatten_cons,List.flatten_nil,List.append_nil]
  rw [htaken] at hdelivered
  rw [List.map_cons,List.map_nil] at hpass
  rw [serviceStep,hs]
  simp only [hpass]
  refine ⟨_,_,rfl,rfl,hdelivered,?_,hcallbacks',hempty',hsize'⟩
  intro other hother
  exact Function.update_of_ne hother _ _

theorem serviceRun_append {s' : Service υ} {events : List ServiceEvent} (h : serviceRun react s events = .ok s')
    (later : List ServiceEvent) : serviceRun react s (events ++ later) = serviceRun react s' later := by
  induction events generalizing s with
  | nil => rw [List.nil_append,← Except.ok.inj h]
  | cons event events ih =>
    rw [serviceRun] at h
    rw [List.cons_append,serviceRun]
    cases hstep : serviceStep react s event with
    | error e =>
      rw [hstep] at h
      exact absurd h (by simp)
    | ok s₁ =>
      rw [hstep] at h
      exact ih h

def twoNotifications : List Message := [⟨0,5,[1]⟩,⟨0,6,[2,3]⟩]

def oneRequest : List Message := [⟨1,7,[0,0,0,9,0,2,0,0,97,0,4]⟩]

-- Two clients, one with two messages in a packet and one with a request.
theorem two_clients_served :
    ∃ s, serviceRun (fun _ => []) (newService (registered (fun _ => 0) [⟨7,.notify⟩,⟨8,.request⟩])
        (createContextDb : Contexts Nat))
        [.accept 1,.accept 2,.arrive 1 twoNotifications,.arrive 2 oneRequest,.ready 2 false,.ready 1 false] = .ok s ∧
      s.handled.map (·.calls) = [[.requested 8 9 [97,0] 7 [4] 1],[.received 7 5 [1] 1],[.received 7 6 [2,3] 2]] ∧
      s.rq.buffer.contents = [] := by
  have hc : Supported [⟨7,.notify⟩,⟨8,.request⟩] := ⟨by decide,by decide⟩
  have hnotifications : Whole twoNotifications := ⟨by simp [twoNotifications],by decide⟩
  have hrequest : Whole oneRequest := ⟨by simp [oneRequest],by decide⟩
  obtain ⟨s,_,hrun,hempty,_⟩ := service_invokes_callbacks (fun _ => []) (fun _ => 0) hc
    (createContextDb : Contexts Nat)
    [.accept 1,.accept 2,.arrive 1 twoNotifications,.arrive 2 oneRequest,.ready 2 false,.ready 1 false]
    (by
      intro e he
      simp only [List.mem_cons,List.not_mem_nil,or_false] at he
      rcases he with rfl | rfl | rfl | rfl | rfl | rfl
      · trivial
      · trivial
      · exact hnotifications
      · exact hrequest
      · trivial
      · trivial)
  obtain ⟨s₀,hstart,hfirst,hsecond,hrq,hnone⟩ : ∃ s₀ : Service Nat,
      serviceRun (fun _ => []) (newService (registered (fun _ => 0) [⟨7,.notify⟩,⟨8,.request⟩]) createContextDb)
        [.accept 1,.accept 2,.arrive 1 twoNotifications,.arrive 2 oneRequest] = .ok s₀ ∧
      s₀.sockets 1 = some [frames twoNotifications] ∧ s₀.sockets 2 = some [frames oneRequest] ∧
      s₀.rq = registered (fun _ => 0) [⟨7,.notify⟩,⟨8,.request⟩] ∧ s₀.handled = [] :=
    ⟨_,rfl,rfl,rfl,rfl,rfl⟩
  rw [registered_eq] at hrq
  have hregistered : s₀.rq.messageCallbacks = [⟨7,.notify⟩,⟨8,.request⟩] := by rw [hrq]
  have hbuffer : s₀.rq.buffer = createMessageBuffer (fun _ => 0) messengerRecvQueueLength := by rw [hrq]
  obtain ⟨s₁,handled₁,hstep₁,hhandled₁,hdelivered₁,hothers,hcallbacks,hempty₁,hsize⟩ :=
    serviceStep_packet (fun _ => []) hc hregistered (by rw [hbuffer]; exact contents_create _ _)
      (by rw [hbuffer]; exact size_create _ _) hsecond hrequest
  obtain ⟨s₂,handled₂,hstep₂,hhandled₂,hdelivered₂,_⟩ :=
    serviceStep_packet (fun _ => []) hc hcallbacks hempty₁ hsize
      ((hothers 1 (by decide)).trans hfirst) hnotifications
  have hend : serviceRun (fun _ => []) s₀ [.ready 2 false,.ready 1 false] = .ok s₂ := by
    simp only [serviceRun,hstep₁,hstep₂]
  obtain rfl := Except.ok.inj ((hend.symm.trans (serviceRun_append hstart _).symm).trans hrun)
  refine ⟨s₂,hrun,?_,hempty⟩
  rw [hhandled₂,hhandled₁,hnone]
  rw [oneRequest] at hdelivered₁
  rw [twoNotifications] at hdelivered₂
  generalize s₀.contexts = c at hdelivered₁
  generalize s₁.contexts = c₁ at hdelivered₁ hdelivered₂
  generalize s₂.contexts = c₂ at hdelivered₂
  cases hdelivered₁ with
  | cons hrequested hrest =>
    cases hrest
    cases hdelivered₂ with
    | cons hone hrest =>
      cases hrest with
      | cons htwo hrest =>
        cases hrest
        rw [hrequested.request rfl (by decide),hone.notify rfl,htwo.notify rfl]
        rfl

-- A reply that no context waits for, as a service that was restarted may get.
def strayReply : Message := ⟨2,5,[0,0,0,9,0,0,0,0,1,2]⟩

theorem stray_reply_not_passed_on :
    functionsOf [⟨7,.reply⟩] .reply = [7] ∧
      ∃ pass, onRecv (fun _ => []) (registered (fun _ => 0) [⟨7,.reply⟩]) (createContextDb : Contexts Nat)
          [frames [strayReply]] false = .ok pass ∧
        pass.handled.map (·.message) = [strayReply.pulled] ∧ pass.handled.map (·.calls) = [[]] := by
  refine ⟨rfl,?_⟩
  have hstart := newService_inStep (fun _ => []) (fun _ => 0) [⟨7,.reply⟩] (createContextDb : Contexts Nat)
  have hwhole : ∀ ms ∈ [[strayReply]], Whole ms := by
    intro ms hms
    rw [List.mem_singleton.mp hms]
    exact ⟨by simp,by decide⟩
  obtain ⟨pass,taken,left,hpass,hsplit,_,hdelivered,_,_,_,_,hsome⟩ := onRecv_frames (fun _ => [])
    (⟨by decide,by decide⟩ : Supported [⟨7,.reply⟩]) hstart.registered hstart.empty hstart.size hwhole
    (createContextDb : Contexts Nat) false
  refine ⟨pass,hpass,?_⟩
  have htaken : taken.flatten = [strayReply] := by
    cases taken with
    | nil => exact absurd (hsome rfl) (by simp)
    | cons ms taken =>
      obtain ⟨rfl,hrest⟩ := List.cons.inj hsplit
      rw [(List.append_eq_nil_iff.mp hrest.symm).1]
      rfl
  rw [htaken] at hdelivered
  generalize pass.handled = handled at hdelivered ⊢
  generalize pass.contexts = c at hdelivered
  cases hdelivered with
  | cons hinvokes hrest =>
    cases hrest with
    | nil =>
      rw [hinvokes.reply rfl (by decide)]
      exact ⟨rfl,by decide⟩

end Runs

end Trema.Messenger
