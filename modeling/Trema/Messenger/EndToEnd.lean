import Trema.Messenger.QueueRun
import Trema.Messenger.Service

namespace Trema.Messenger

open Library

section Packets

def Output.sentPacket : Output → Option Bytes
  | .packet bytes .sent => some bytes
  | _ => none

def sentPackets (outputs : List Output) : List Bytes := outputs.filterMap Output.sentPacket

variable {accepted delivered pending : List Message} {outputs : List Output}

theorem Explained.packets (h : Explained accepted outputs delivered pending) :
    ∃ mss : List (List Message), sentPackets outputs = mss.map frames ∧ mss.flatten = delivered ∧ ∀ ms ∈ mss, ms ≠ [] := by
  induction h with
  | done => exact ⟨[],rfl,rfl,by simp⟩
  | @sent ms _ _ _ _ hms _ ih =>
    obtain ⟨mss,hpackets,hflat,hne⟩ := ih
    refine ⟨ms :: mss,?_,by rw [List.flatten_cons,hflat],?_⟩
    · rw [List.map_cons,← hpackets]
      rfl
    · intro a ha
      rcases List.mem_cons.mp ha with rfl | ha
      · exact hms
      · exact hne a ha
  | @refused _ _ _ _ _ result _ hresult _ ih =>
    have hskip : ∀ bytes outputs, sentPackets (.packet bytes result :: outputs) = sentPackets outputs := by
      intro bytes outputs
      rcases hresult with rfl | rfl
      · rfl
      · rfl
    rw [hskip]
    exact ih
  | dropped _ _ ih => exact ih
  | cleared _ ih => exact ih

theorem mem_sentPackets {bytes : Bytes} (h : bytes ∈ sentPackets outputs) :
    Output.packet bytes .sent ∈ outputs := by
  obtain ⟨o,ho,hbytes⟩ := List.mem_filterMap.mp h
  cases o with
  | packet other result =>
    cases result with
    | sent => rw [← Option.some.inj hbytes]; exact ho
    | again => exact absurd hbytes (by simp [Output.sentPacket])
    | tooBig => exact absurd hbytes (by simp [Output.sentPacket])
    | failed => exact absurd hbytes (by simp [Output.sentPacket])
  | dropped => exact absurd hbytes (by simp [Output.sentPacket])
  | cleared => exact absurd hbytes (by simp [Output.sentPacket])

end Packets

section Receiver

variable {υ : Type} {callbacks : List ReceiveQueueCallback}

structure Reception (υ : Type) where
  handled : List (Handled υ)
  rq : ReceiveQueue
  contexts : Contexts υ
  waiting : List Bytes

-- The passes of the receiver over one connection; the packets of `arrivals` come in between them.
def receive (react : Call υ → List υ) : Reception υ → List (List Bytes) → Except Fault (Reception υ)
  | r, [] => .ok r
  | r, packets :: arrivals =>
    match onRecv react r.rq r.contexts (r.waiting ++ packets) false with
    | .error e => .error e
    | .ok pass =>
      receive react ⟨r.handled ++ pass.handled,pass.rq,pass.contexts,pass.waiting⟩ arrivals

theorem Delivered.messages {react : Call υ → List υ} {c c' : Contexts υ} {ms : List Message}
    {handled : List (Handled υ)} (h : Delivered react callbacks c ms handled c') :
    handled.map (·.message) = ms.map Message.pulled := by
  induction h with
  | nil => rfl
  | cons _ _ ih => rw [List.map_cons,List.map_cons,ih]

-- The receiver is between two packets and has handled the messages of `log`.
structure Aligned (callbacks : List ReceiveQueueCallback) (r : Reception υ) (log : List Message)
    (left : List (List Message)) : Prop where
  registered : r.rq.messageCallbacks = callbacks
  empty : r.rq.buffer.contents = []
  size : r.rq.buffer.size = messengerRecvQueueLength
  handled : r.handled.map (·.message) = log.map Message.pulled
  waiting : r.waiting = left.map frames
  whole : ∀ ms ∈ left, Whole ms

theorem receive_aligned (react : Call υ → List υ) (hc : Supported callbacks) {arrivals : List (List Bytes)}
    {r : Reception υ} {log : List Message} {left mss : List (List Message)}
    (h : Aligned callbacks r log left) (harrivals : arrivals.flatten = mss.map frames)
    (hwhole : ∀ ms ∈ mss, Whole ms) :
    ∃ r' log' left', receive react r arrivals = .ok r' ∧ Aligned callbacks r' log' left' ∧
      log' ++ left'.flatten = log ++ left.flatten ++ mss.flatten := by
  induction arrivals generalizing r log left mss with
  | nil =>
    have hnil : mss = [] := by
      rw [List.flatten_nil] at harrivals
      exact List.map_eq_nil_iff.mp harrivals.symm
    subst hnil
    exact ⟨r,log,left,rfl,h,by simp⟩
  | cons packets arrivals ih =>
    rw [List.flatten_cons] at harrivals
    obtain ⟨first,later,hsplit,hfirst,hlater⟩ := List.map_eq_append_iff.mp harrivals.symm
    have hall : ∀ ms ∈ left ++ first, Whole ms := by
      intro ms hms
      rcases List.mem_append.mp hms with hms | hms
      · exact h.whole ms hms
      · exact hwhole ms (by rw [hsplit]; simp [hms])
    obtain ⟨pass,taken,rest,hpass,htaken,hwaiting,hdelivered,hcallbacks,hempty,hsize,_⟩ :=
      onRecv_frames react hc h.registered h.empty h.size hall r.contexts false
    have hnext : Aligned callbacks
        (⟨r.handled ++ pass.handled,pass.rq,pass.contexts,pass.waiting⟩ : Reception υ)
        (log ++ taken.flatten) rest := by
      refine ⟨hcallbacks,hempty,hsize,?_,hwaiting,?_⟩
      · rw [List.map_append,List.map_append,h.handled,hdelivered.messages]
      · intro ms hms
        exact hall ms (by rw [htaken]; simp [hms])
    obtain ⟨r',log',left',hrun,haligned,htotal⟩ := ih hnext hlater.symm
      fun ms hms => hwhole ms (by rw [hsplit]; simp [hms])
    rw [receive,h.waiting,← hfirst,← List.map_append,hpass]
    refine ⟨r',log',left',hrun,haligned,?_⟩
    have hflat : left.flatten ++ first.flatten = taken.flatten ++ rest.flatten := by
      rw [← List.flatten_append,htaken,List.flatten_append]
    rw [htotal,hsplit,List.flatten_append,List.append_assoc log,← hflat]
    simp only [List.append_assoc]

end Receiver

section Carried

-- What went out of the queue comes in at any receiver: no assertion fails, every packet fits one recv,
-- and the messages are handled whole and in order.
structure Carried (r : QueueRun) (delivered pending : List Message) : Prop where
  explained : Explained r.accepted r.outputs delivered pending
  queued : ∀ s, r.station = some s → s.sq.buffer.contents = frames pending
  within : WithinRecv r.outputs
  received : ∀ (react : Call Nat → List Nat) (heap : Nat → UInt8) (callbacks : List ReceiveQueueCallback)
    (c : Contexts Nat) (arrivals : List (List Bytes)), Supported callbacks →
    arrivals.flatten = sentPackets r.outputs →
    ∃ r', ∃ left : List (List Message), receive react ⟨[],registered heap callbacks,c,[]⟩ arrivals = .ok r' ∧
      r'.rq.buffer.contents = [] ∧ r'.waiting = left.map frames ∧
      r'.handled.map (·.message) ++ left.flatten.map Message.pulled = delivered.map Message.pulled

theorem Accounted.carried {P : Message → Prop} {r : QueueRun} {delivered pending : List Message}
    (h : Accounted P r delivered pending) (hsmall : ∀ m, P m → m.size ≤ messengerRecvBuffer) :
    Carried r delivered pending := by
  have hwithin := h.within hsmall
  refine ⟨h.explained,fun s hs => (h.holding s hs).contents,hwithin,?_⟩
  intro react heap callbacks c arrivals hc harrivals
  obtain ⟨mss,hpackets,hflat,hne⟩ := h.explained.packets
  have hwhole : ∀ ms ∈ mss, Whole ms := by
    intro ms hms
    refine ⟨hne ms hms,hwithin _ .sent (mem_sentPackets ?_)⟩
    rw [hpackets]
    exact List.mem_map_of_mem hms
  have hstart : Aligned callbacks ⟨[],registered heap callbacks,c,[]⟩ [] [] := by
    rw [registered_eq]
    exact ⟨rfl,contents_create _ _,size_create _ _,rfl,rfl,by simp⟩
  obtain ⟨r',log,left,hrun,haligned,htotal⟩ :=
    receive_aligned react hc hstart (harrivals.trans hpackets) hwhole
  refine ⟨r',left,hrun,haligned.empty,haligned.waiting,?_⟩
  rw [haligned.handled,← List.map_append,htotal,← hflat]
  rfl

-- Every life of a queue into which only messages of the kind are pushed.
def CarriesAll (P : Message → Prop) : Prop :=
  ∀ id outcome heap timers s events, createSendQueue id outcome heap timers = some s →
    (∀ e ∈ events, e.Pushes P) →
    ∃ r delivered pending, queueRun id (newRun s) events = .ok r ∧ Carried r delivered pending

theorem pending_of_silent {ms delivered pending : List Message} (h : Explained ms [] delivered pending) :
    pending = ms := by
  cases h with
  | done => rfl

variable {id : QueueId} {s : Station} {m : Message}

-- The length field has wrapped: the header goes in, the data does not.
theorem Waiting.push_wrapped (h : Waiting id s []) (hm : m.Admissible) (sends : Nat → SendOutcome)
    (outcome : ConnectOutcome) :
    ∃ s', pushMessage id s sends outcome m = .ok (true,[],s') ∧
      s'.sq.buffer.size = messengerSendQueueLength := by
  have hdata : s.sq.buffer.dataLength = 0 := h.held.length.symm
  have hremain : ¬ messageBufferRemainBytes s.sq.buffer < m.length.toNat := by
    rw [messageBufferRemainBytes,hdata,h.held.size]
    rw [Message.Admissible] at hm
    omega
  rw [pushMessage]
  simp only [if_neg hremain,h.closed,Option.isNone_none,if_true,sendQueueTryConnect]
  rw [if_pos h.waits]
  exact ⟨_,rfl,by rw [size_write,size_write,h.held.size]⟩

theorem Waiting.not_carried_wrapped (h : Waiting id s []) (hm : m.Admissible) (hframed : ¬ m.Framed) :
    ¬ ∃ r delivered pending, queueRun id (newRun s) [.push m allSent .refused] = .ok r ∧
      Carried r delivered pending := by
  rintro ⟨r,delivered,pending,hrun,hcarried⟩
  obtain ⟨s',hpush,hsize⟩ := h.push_wrapped hm allSent .refused
  have hr : queueRun id (newRun s) [.push m allSent .refused] = .ok ⟨[m],[],some s'⟩ := by
    simp only [queueRun,queueStep,newRun,hpush]
    rfl
  obtain rfl := Except.ok.inj (hr.symm.trans hrun)
  have hpending := pending_of_silent hcarried.explained
  have hcontents := hcarried.queued s' rfl
  have hlen := s'.sq.buffer.length_contents
  have hle := s'.sq.buffer.dataLength_le
  rw [hcontents,hpending,frames_cons,frames_nil,List.append_nil,Message.length_encode] at hlen
  rw [Message.Framed] at hframed
  have hq : messengerSendQueueLength = 400000 := rfl
  omega

theorem Waiting.large_packet (h : Waiting id s []) (hroom : m.size ≤ messengerSendQueueLength)
    (hsend : m.Sendable) :
    ∃ r ms, queueRun id (newRun s)
        [.push m allSent .refused,.timeout (.connected 3 none),.write allSent .refused] = .ok r ∧
      Output.packet (frames ms) .sent ∈ r.outputs ∧ m ∈ ms := by
  obtain ⟨s',hrun,hheld,hopen,hwritable⟩ := h.push_connects hsend.framed hroom allSent
  have hnext := queueRun_append hrun [.write allSent .refused]
  rcases onSendWrite_holding id .refused hheld allSent with
    ⟨outputs,s'',delivered,left,hwrite,hwritten⟩ | ⟨⟨a,ha,hlarge⟩,_⟩
  · obtain ⟨rfl,rfl,_⟩ := hwritten.drained fun _ => rfl
    obtain ⟨mss,hpackets,hflat,_⟩ := hwritten.explained.packets
    have hm : m ∈ mss.flatten := by
      rw [hflat]
      simp
    obtain ⟨ms,hms,hmem⟩ := List.mem_flatten.mp hm
    refine ⟨⟨[m],outputs,some s''⟩,ms,?_,mem_sentPackets ?_,hmem⟩
    · refine Eq.trans hnext ?_
      simp only [queueRun,queueStep,hopen,hwritable,Option.isSome_some,Bool.and_self,if_true,hwrite]
      rfl
    · rw [hpackets]
      exact List.mem_map_of_mem hms
  · rw [List.mem_singleton.mp ha] at hlarge
    exact absurd hsend hlarge

-- A message above the receiver's buffer is sent as one packet, stops the queue or goes in without its data.
theorem CarriesAll.small {P : Message → Prop} (hall : CarriesAll P) :
    ∀ m, P m → m.Admissible → m.size ≤ messengerRecvBuffer := by
  intro m hm hfits
  by_contra hlarge
  obtain ⟨s,hs,hwaiting⟩ := refused_waiting 0 (fun _ => 0) []
  have hrun := hall 0 .refused (fun _ => 0) [] s
  by_cases hframed : m.Framed
  · have hroom : m.size ≤ messengerSendQueueLength := by
      rw [Message.Admissible,Message.toNat_length hframed] at hfits
      exact hfits
    obtain ⟨r,delivered,pending,hok,hcarried⟩ := hrun
      [.push m allSent .refused,.timeout (.connected 3 none),.write allSent .refused] hs
      (by
        intro e he
        simp only [List.mem_cons,List.not_mem_nil,or_false] at he
        rcases he with rfl | rfl | rfl
        · exact fun _ => hm
        · trivial
        · trivial)
    by_cases hsend : m.Sendable
    · obtain ⟨r',ms,hok',hpacket,hmem⟩ := hwaiting.large_packet hroom hsend
      obtain rfl := Except.ok.inj (hok'.symm.trans hok)
      exact hlarge ((size_le_frames hmem).trans (hcarried.within _ _ hpacket))
    · have hsent : ∀ n, (allSent n).result = .sent := fun _ => rfl
      have habort := hwaiting.push_aborts hframed hroom hsend hsent .refused
      exact absurd (habort.symm.trans hok) (by simp)
  · refine hwaiting.not_carried_wrapped hfits hframed (hrun [.push m allSent .refused] hs ?_)
    intro e he
    rw [List.mem_singleton.mp he]
    exact fun _ => hm

theorem carriesAll_of_small {P : Message → Prop}
    (hsmall : ∀ m, P m → m.Admissible → m.size ≤ messengerRecvBuffer) : CarriesAll P := by
  intro id outcome heap timers s events hs hevents
  let small : Message → Prop := fun m => m.size ≤ messengerRecvBuffer
  have hframed : ∀ m, small m → m.Framed := fun m hm => Nat.lt_of_le_of_lt hm (by decide)
  have hpushes : ∀ e ∈ events, e.Pushes small := by
    intro e he
    have := hevents e he
    cases e with
    | push m sends outcome => exact fun hfits => hsmall m (this hfits) hfits
    | write => trivial
    | read => trivial
    | timeout => trivial
    | clear => trivial
  rcases queueRun_accounted hframed events (newRun_accounted small hs) hpushes with
    ⟨r,delivered,pending,hok,h⟩ | ⟨⟨m,hm,hlarge⟩,_⟩
  · exact ⟨r,delivered,pending,hok,h.carried fun m hm => hm⟩
  · exact absurd (Nat.lt_of_le_of_lt hm (by decide) : m.size < messengerRecvQueueLength) hlarge

theorem carries_iff (P : Message → Prop) :
    CarriesAll P ↔ ∀ m, P m → m.Admissible → m.size ≤ messengerRecvBuffer :=
  ⟨CarriesAll.small,carriesAll_of_small⟩

theorem large_packet_sent :
    ∃ s r ms, createSendQueue 0 .refused (fun _ => 0) [] = some s ∧
      queueRun 0 (newRun s) [.push (zeros 149992) allSent .refused,.timeout (.connected 3 none),
        .write allSent .refused] = .ok r ∧
      Output.packet (frames ms) .sent ∈ r.outputs ∧ messengerRecvBuffer < (frames ms).length := by
  have hsize := size_zeros 149992
  have hroom : (zeros 149992).size ≤ messengerSendQueueLength := by
    rw [hsize]
    decide
  have hsend : (zeros 149992).Sendable := by
    rw [Message.Sendable,hsize]
    decide
  obtain ⟨s,hs,hwaiting⟩ := refused_waiting 0 (fun _ => 0) []
  obtain ⟨r,ms,hrun,hpacket,hmem⟩ := hwaiting.large_packet hroom hsend
  refine ⟨s,r,ms,hs,hrun,hpacket,?_⟩
  have hle := size_le_frames hmem
  rw [hsize] at hle
  have hr : messengerRecvBuffer = 100000 := rfl
  omega

end Carried

section Replies

-- The message that send_reply_message pushes; the padding of the handle is left as the memory has it.
def sendReplyMessage (heap : Nat → UInt8) (transactionId : UInt32) (tag : UInt16) (data : Bytes) : Message :=
  ⟨MessageType.reply.code,tag,toNet32 transactionId ++ toNet16 0 ++ [heap 6,heap 7] ++ data⟩

variable {heap : Nat → UInt8} {transactionId : UInt32} {tag : UInt16} {data : Bytes}

theorem size_sendReplyMessage : (sendReplyMessage heap transactionId tag data).size = 16 + data.length := by
  simp [sendReplyMessage,Message.size,sizeofMessageHeader]
  omega

theorem carriesAll_reply (hsize : data.length ≤ 399984) :
    CarriesAll (· = sendReplyMessage heap transactionId tag data) ↔ 16 + data.length ≤ messengerRecvBuffer := by
  have hfits : (sendReplyMessage heap transactionId tag data).Admissible := by
    rw [Message.Admissible,Message.toNat_length (by rw [size_sendReplyMessage]; omega),size_sendReplyMessage]
    have hlength : messengerSendQueueLength = 400000 := rfl
    omega
  rw [← @size_sendReplyMessage heap transactionId tag data]
  constructor
  · intro hall
    exact hall.small _ rfl hfits
  · intro hsmall
    refine carriesAll_of_small ?_
    rintro _ rfl _
    exact hsmall

-- The replied functions have the data while the request has a context.
theorem call_sendReplyMessage {υ : Type} {react : Call υ → List υ} {callbacks : List ReceiveQueueCallback}
    (hc : Supported callbacks) {c : Contexts υ} {context : MessengerContext υ}
    (hcontext : getContext c transactionId = some context) :
    (callMessageCallbacks react (sendReplyMessage heap transactionId tag data).pulled callbacks
        (sendReplyMessage heap transactionId tag data).data c).1 =
      (functionsOf callbacks .reply).map fun f => .replied f tag data data.length context.userData := by
  have hid : be32 (sendReplyMessage heap transactionId tag data).data 0 = transactionId := by
    rw [sendReplyMessage,be32,List.append_assoc,List.append_assoc,slice_append_left (by simp),
      slice_whole (by simp),ofNat_beNat_toNet32]
  have hdrop : (sendReplyMessage heap transactionId tag data).data.drop 8 = data := List.drop_left' rfl
  have hlength : (sendReplyMessage heap transactionId tag data).data.length = 8 + data.length := by
    simp [sendReplyMessage]
    omega
  rw [call_reply rfl (by omega) hc.reply c,hid,hcontext,hdrop,hlength,Nat.add_sub_cancel_left]
  rfl

end Replies

end Trema.Messenger
