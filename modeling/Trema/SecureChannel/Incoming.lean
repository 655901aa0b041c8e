import Trema.OpenFlow.Handling
import Trema.SecureChannel.Sessions

namespace Trema.SecureChannel

open Library
open OpenFlow (Exec abortIf Handlers SwitchEvent Handleable handleOpenflowMessage handleOpenflowMessage_ok)

section Announcements

-- The headers up to one that is refused announce messages that hold them.
inductive Announces (valid : UInt8 → UInt8 → Bool) : Bytes → Prop
  | short {s : Bytes} : s.length < 8 → Announces valid s
  | refused {s : Bytes} : Refused valid s → Announces valid s
  | header {s : Bytes} : 8 ≤ s.length → 8 ≤ messageLength s →
      Announces valid (s.drop (messageLength s)) → Announces valid s

variable {heap : Nat → UInt8} {valid : UInt8 → UInt8 → Bool} {s : Bytes}

theorem Announces.frames (h : Announces valid s) :
    (∀ m ∈ ((checkedFramer valid).frames s).1, 8 ≤ m.length) ∧
      ¬ Stuck valid ((checkedFramer valid).frames s).2 := by
  induction h with
  | @short s hshort =>
    have hc : ¬ (checkedFramer valid).Complete s := fun hc => by
      have hhead : 8 ≤ s.length := hc.1
      omega
    rw [Framer.frames_of_not_complete hc]
    refine ⟨by simp,fun hstuck => ?_⟩
    have hhead : 8 ≤ s.length := hstuck.1
    omega
  | @refused s hrefused =>
    have hc : ¬ (checkedFramer valid).Complete s := fun hc => by
      obtain ⟨_,hsup,_⟩ := checkedFramer_complete.mp hc
      exact absurd (hrefused.2.symm.trans hsup) (by simp)
    rw [Framer.frames_of_not_complete hc]
    refine ⟨by simp,fun hstuck => ?_⟩
    exact absurd (hrefused.2.symm.trans hstuck.2.1) (by simp)
  | @header s hhead hlong _ ih =>
    by_cases hc : (checkedFramer valid).Complete s
    · obtain ⟨_,hsup,_,hle⟩ := checkedFramer_complete.mp hc
      rw [Framer.frames_of_complete hc,checkedFramer_size hsup]
      refine ⟨?_,ih.2⟩
      intro m hm
      rcases List.mem_cons.mp hm with rfl | hm
      · rw [List.length_take,Nat.min_eq_left hle]
        exact hlong
      · exact ih.1 m hm
    · rw [Framer.frames_of_not_complete hc]
      refine ⟨by simp,fun hstuck => ?_⟩
      have hzero : messageLength s = 0 := hstuck.2.2
      omega

variable (heap valid)

-- The frames that a read hands on hold a header, and a header with a version that is refused ends in the error
-- return.
def HandsOn (r : Receiver) (read : ReadResult) : Prop :=
  ∃ result r', ∃ messages : List Bytes, recvFromSecureChannel heap valid r read = .ok (result,r') ∧
    Holds r'.recvQueue (messages.map Buffer.ofBytes) ∧ (∀ m ∈ messages, 8 ≤ m.length) ∧
    ∀ bytes, read = .data bytes →
      Refused valid ((checkedFramer valid).frames (r.kept ++ bytes)).2 → result = .badVersion

-- What read() may have answered, and the headers in it.
def FitsRead (r : Receiver) (read : ReadResult) : Prop :=
  ∀ bytes, read = .data bytes → Answers heap r (.data bytes) ∧ Announces valid (r.kept ++ bytes)

variable {heap valid} {r : Receiver} {rest : Bytes}

theorem fits_of_answered {bytes : Bytes} (hkeeps : r.Keeps rest) (h : Answers heap r (.data bytes)) :
    rest.length + bytes.length ≤ receiveBufferSize := by
  obtain ⟨b,_,hsize,_,hlen,hbytes⟩ := hkeeps.fragment heap
  have hrest : rest.length ≤ receiveBufferSize := by
    rw [← hbytes,Buffer.bytes,slice,List.length_take,List.length_drop,← hsize]
    omega
  have hfits := h.2 _ (requestedSize_eq hkeeps hrest)
  omega

theorem handsOn_of_fits (hdrained : Holds r.recvQueue []) (hkeeps : r.Keeps rest) {read : ReadResult}
    (h : FitsRead heap valid r read) : HandsOn heap valid r read := by
  obtain ⟨b,hrecv,_⟩ := recv_other heap hkeeps hdrained
  obtain ⟨hagain,hfailed,hclosed⟩ := hrecv valid
  cases read with
  | data bytes =>
    obtain ⟨hanswers,hannounces⟩ := h bytes rfl
    rw [hkeeps.kept_eq] at hannounces
    obtain ⟨hlong,hstuck⟩ := hannounces.frames
    obtain ⟨result,r',hrecv,hqueue,hbad,_⟩ :=
      (receive_spec heap valid bytes hkeeps hdrained (fits_of_answered hkeeps hanswers)).2 hstuck
    refine ⟨result,r',_,hrecv,hqueue,hlong,?_⟩
    intro bytes' hbytes hrefused
    injection hbytes with hbytes
    rw [← hbytes,hkeeps.kept_eq] at hrefused
    exact hbad hrefused
  | again => exact ⟨_,_,[],hagain,hdrained,by simp,by simp⟩
  | failed => exact ⟨_,_,[],hfailed,hdrained,by simp,by simp⟩
  | closed => exact ⟨_,_,[],hclosed,hdrained,by simp,by simp⟩

end Announcements

section Listening

-- The switch side's receiver, with what its handlers have been called with.
structure Listener where
  receiver : Receiver
  events : List SwitchEvent

variable (heap : Nat → UInt8) (handlers : Handlers)

def handleSecureChannelMessage (fuel : Nat) (message : Buffer) (events : List SwitchEvent) :
    Exec (List SwitchEvent) := do
  abortIf (message.length < 8)
  let handled ← handleOpenflowMessage fuel handlers message.bytes
  pure (events ++ handled.events)

-- What has been read of a message stays when the connection is closed and opened again.
def Listener.recvFromSecureChannel (fuel : Nat) (l : Listener) (read : ReadResult) : Exec Listener := do
  let received ← SecureChannel.recvFromSecureChannel heap Side.switch.accepts l.receiver read
  if received.1 = .done then do
    let queue := received.2.recvQueue
    let delivered ← deliverQueue (handleSecureChannelMessage handlers fuel) queue.elements.length queue l.events
    pure ⟨{ received.2 with recvQueue := delivered.1 },delivered.2⟩
  else pure ⟨received.2,l.events⟩

structure Listener.Reads (l : Listener) (rest : Bytes) : Prop where
  drained : Holds l.receiver.recvQueue []
  keeps : l.receiver.Keeps rest

def Listener.Fits (l : Listener) (read : ReadResult) : Prop :=
  FitsRead heap Side.switch.accepts l.receiver read ∧ ∀ bytes, read = .data bytes →
    ∀ m ∈ ((checkedFramer Side.switch.accepts).frames (l.receiver.kept ++ bytes)).1, Handleable m

def Listener.Serves (l : Listener) (read : ReadResult) (_ : Listener) : Prop :=
  HandsOn heap Side.switch.accepts l.receiver read

variable {heap handlers}

variable (handlers) in
theorem handleAll_messages {messages : List Bytes} (hlong : ∀ m ∈ messages, 8 ≤ m.length)
    (hfits : ∀ m ∈ messages, Handleable m) (events : List SwitchEvent) : ∃ after k, ∀ n, k ≤ n →
      handleAll (handleSecureChannelMessage handlers n) (messages.map Buffer.ofBytes) events = .ok after := by
  induction messages generalizing events with
  | nil => exact ⟨events,0,fun _ _ => rfl⟩
  | cons m messages ih =>
    obtain ⟨hm,hlong⟩ := List.forall_mem_cons.mp hlong
    obtain ⟨hfirst,hfits⟩ := List.forall_mem_cons.mp hfits
    obtain ⟨handled,k,hk,_⟩ := handleOpenflowMessage_ok handlers hm hfirst
    obtain ⟨after,l,hl⟩ := ih hlong hfits (events ++ handled.events)
    refine ⟨after,max k l,fun n hn => ?_⟩
    have hlen : ¬ (Buffer.ofBytes m).length < 8 := by
      simp only [Buffer.ofBytes]
      omega
    simp only [List.map_cons,handleAll,handleSecureChannelMessage,abortIf,if_neg hlen,bytes_ofBytes,ok_bind,
      hk n (le_of_max_le_left hn),pure_eq_ok]
    exact hl n (le_of_max_le_right hn)

theorem Listener.step {l : Listener} {rest : Bytes} (h : l.Reads rest) {read : ReadResult}
    (hfits : l.Fits heap read) : ∃ t : Listener,
      Yields (fun n => l.recvFromSecureChannel heap handlers n read) (.ok t) ∧ l.Serves heap read t ∧
        ∃ rest', t.Reads rest' := by
  have hserves : HandsOn heap Side.switch.accepts l.receiver read :=
    handsOn_of_fits h.drained h.keeps hfits.1
  obtain ⟨b,hrecv,hkept⟩ := recv_other heap h.keeps h.drained
  obtain ⟨hagain,hfailed,hclosed⟩ := hrecv Side.switch.accepts
  have hother : Listener.Reads ⟨⟨l.receiver.recvQueue,some b⟩,l.events⟩ rest := ⟨h.drained,hkept⟩
  cases read with
  | failed =>
    refine ⟨_,⟨by simp,0,?_⟩,hserves,rest,hother⟩
    simp only [recvFromSecureChannel,hfailed,ok_bind]
    rfl
  | closed =>
    refine ⟨_,⟨by simp,0,?_⟩,hserves,rest,hother⟩
    simp only [recvFromSecureChannel,hclosed,ok_bind]
    rfl
  | again =>
    obtain ⟨drained,hdrained,hrun⟩ := deliverQueue_eq (handleSecureChannelMessage handlers 0) h.drained
      (by simp) h.drained.length_lt
    refine ⟨⟨⟨drained,some b⟩,l.events⟩,⟨by simp,0,?_⟩,hserves,rest,hdrained,hkept.none_kept,hkept.some_kept⟩
    simp only [recvFromSecureChannel,hagain,ok_bind,hrun]
    rfl
  | data bytes =>
    obtain ⟨hanswers,hannounces⟩ := hfits.1 bytes rfl
    obtain ⟨hlong,hstuck⟩ := hannounces.frames
    have hmessages := hfits.2 bytes rfl
    rw [h.keeps.kept_eq] at hlong hstuck hmessages
    have hroom := fits_of_answered h.keeps hanswers
    obtain ⟨result,r',hdata,hqueue,_,hdone⟩ :=
      (receive_spec heap Side.switch.accepts bytes h.keeps h.drained hroom).2 hstuck
    obtain ⟨hresult,hkeeps⟩ := hdone fun hrefused => absurd hrefused.2 (by simp [supported,Side.accepts])
    have hfew : (((checkedFramer Side.switch.accepts).frames (rest ++ bytes)).1.map
        Buffer.ofBytes).length < 4294967296 := by
      have hle := (checkedFramer Side.switch.accepts).length_frames (rest ++ bytes)
      have hsize : receiveBufferSize = 65553 := rfl
      rw [List.length_append] at hle
      rw [List.length_map]
      omega
    obtain ⟨after,k,hk⟩ := handleAll_messages handlers hlong hmessages l.events
    obtain ⟨drained,hdrained,hrun⟩ := deliverQueue_eq (handleSecureChannelMessage handlers k) hqueue hfew
      hqueue.length_lt
    refine ⟨⟨{ r' with recvQueue := drained },after⟩,⟨by simp,k,?_⟩,hserves,_,hdrained,hkeeps.none_kept,
      hkeeps.some_kept⟩
    simp only [recvFromSecureChannel,hdata,hresult,ok_bind,hrun,hk k le_rfl]
    rfl

end Listening

end Trema.SecureChannel
