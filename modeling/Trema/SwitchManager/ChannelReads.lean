import Trema.SwitchManager.Dispatch
import Trema.SwitchManager.Switch

namespace Trema.SwitchManager

open Library
open OpenFlow
open SecureChannel

namespace SwitchInfo

variable {d : SwitchInfo} {message : Bytes}

variable (d message) in
theorem settled_ofpmsgRecv (env : Surroundings) : Settled (fun n => d.ofpmsgRecv n env message) := by
  intro n m hnm hn
  have hvalid : validateOpenflowMessage n message ≠ .error .outOfFuel := by
    intro hout
    simp only [ofpmsgRecv,hout] at hn
    exact hn rfl
  have hsame := settled_validateOpenflowMessage message n m hnm hvalid
  simp only [ofpmsgRecv,hsame] at hn ⊢
  cases hv : validateOpenflowMessage n message with
  | error stop => cases stop <;> rfl
  | ok u =>
    simp only [hv] at hn
    simp only
    cases hb : (byteAt message 1 : Exec UInt8) with
    | error stop => rfl
    | ok type =>
      simp only [hb,ok_bind] at hn ⊢
      cases ht : OfpType.ofCode type with
      | none => rfl
      | some t =>
        rw [ht] at hn
        exact settled_dispatchMessage env t n m hnm hn

variable (d) in
theorem refuseVersion_ok : ∃ message, d.refuseVersion = .ok (d.withXid.sent message).info := by
  rw [refuseVersion,ofpmsgSendErrorMsg_eq]
  exact ⟨_,rfl⟩

section Sequences

variable (env : Surroundings)

-- The messages handled one after the other, with the number of those that a handler returned an error for.
def handleSequence (fuel : Nat) (messages : List Bytes) (s : Nat × SwitchInfo) : Exec (Nat × SwitchInfo) :=
  handleAll (handleQueued fuel env) (messages.map Buffer.ofBytes) s

theorem handleSequence_cons (fuel : Nat) (message : Bytes) (messages : List Bytes) (s : Nat × SwitchInfo) :
    handleSequence env fuel (message :: messages) s = (do
      let handled ← s.2.ofpmsgRecv fuel env message
      handleSequence env fuel messages (countError s.1 handled)) := by
  simp only [handleSequence,List.map_cons,handleAll,handleQueued,bytes_ofBytes]
  cases s.2.ofpmsgRecv fuel env message with
  | error stop => rfl
  | ok handled => rfl

theorem settled_handleSequence (messages : List Bytes) (s : Nat × SwitchInfo) :
    Settled (fun n => handleSequence env n messages s) := by
  induction messages generalizing s with
  | nil => exact settled_const _
  | cons message messages ih =>
    simp only [handleSequence_cons]
    exact settled_bind (settled_ofpmsgRecv _ _ env) fun handled => ih _

end Sequences

-- A negative return of a handler stops the event handler once all messages have been handled.
def concluded (s : Nat × SwitchInfo) (receiver : Receiver) : SwitchInfo :=
  if s.1 = 0 then { s.2 with receiver := receiver } else { s.2 with receiver := receiver, stopped := true }

theorem handleReceived_eq {messages : List Bytes} (env : Surroundings)
    (hqueue : Holds d.receiver.recvQueue (messages.map Buffer.ofBytes))
    (hfew : messages.length < 4294967296) : ∃ receiver : Receiver, Holds receiver.recvQueue [] ∧
      receiver.fragmentBuf = d.receiver.fragmentBuf ∧ ∀ fuel, d.handleReceived fuel env = (do
        let s ← handleSequence env fuel messages (0,d)
        pure (concluded s receiver)) := by
  cases messages with
  | nil =>
    have hlength : d.receiver.recvQueue.length = 0 := by simpa using hqueue.counted
    refine ⟨d.receiver,hqueue,rfl,fun fuel => ?_⟩
    rw [handleReceived,if_neg (by rw [hlength]; exact UInt32.lt_irrefl 0)]
    rfl
  | cons message messages =>
    have hlength : 0 < d.receiver.recvQueue.length := by
      rw [hqueue.counted,UInt32.lt_iff_toNat_lt,List.length_map]
      simp only [UInt32.toNat_ofNat']
      rw [Nat.mod_eq_of_lt hfew]
      exact Nat.succ_pos _
    obtain ⟨drained,hdrained,hrun⟩ := drainQueue_eq hqueue hqueue.length_lt
    refine ⟨{ d.receiver with recvQueue := drained },hdrained,rfl,fun fuel => ?_⟩
    rw [handleReceived,if_pos hlength,handleMessagesFromSecureChannel]
    simp only [hrun,handleSequence]
    cases handleAll (handleQueued fuel env) ((message :: messages).map Buffer.ofBytes) (0,d) with
    | error stop => rfl
    | ok s =>
      simp only [ok_bind,pure_eq_ok,concluded]
      split
      · rfl
      · rfl

end SwitchInfo

-- What the receiver has read of the message that is not complete yet.
structure Daemon.Reads (d : Daemon) (rest : Bytes) : Prop where
  drained : Holds d.info.receiver.recvQueue []
  keeps : d.info.receiver.Keeps rest

namespace Daemon

variable {d : Daemon} {rest : Bytes} (heap : Nat → UInt8) (env : Surroundings)

def framesOf (s : Bytes) : List Bytes := ((checkedFramer validMessageVersion).frames s).1

def restOf (s : Bytes) : Bytes := ((checkedFramer validMessageVersion).frames s).2

theorem frames_accepted {message : Bytes} (h : Accepts message) :
    framesOf message = [message] ∧ restOf message = [] := by
  obtain ⟨t,ht,_⟩ := h.type
  have hh := headed_of_type h ht
  have hfits := hh.fits
  have hsup : supported validMessageVersion message = true := by
    rw [supported,hh.type]
    exact hh.version
  have hsize : messageLength message = message.length := hh.length
  have hc : (checkedFramer validMessageVersion).Complete message :=
    checkedFramer_complete.mpr ⟨hfits,hsup,by omega,by omega⟩
  have hnil : ¬ (checkedFramer validMessageVersion).Complete ([] : Bytes) := fun h => by
    have hhead : 8 ≤ 0 := h.1
    omega
  rw [framesOf,restOf,Framer.frames_of_complete hc,checkedFramer_size hsup,hsize,
    List.drop_length,List.take_length,Framer.frames_of_not_complete hnil]
  exact ⟨rfl,rfl⟩

section Data

variable {bytes : Bytes} (h : d.Reads rest) (hfits : rest.length + bytes.length ≤ receiveBufferSize)

include h hfits

theorem read_stuck (hstuck : Stuck validMessageVersion (restOf (rest ++ bytes))) (fuel : Nat) :
    d.secureChannelRead heap fuel env (.data bytes) = .error .aborted := by
  rw [secureChannelRead,(receive_spec heap validMessageVersion bytes h.keeps h.drained hfits).1 hstuck]
  rfl

theorem read_refused (hrefused : Refused validMessageVersion (restOf (rest ++ bytes))) :
    ∃ (receiver : Receiver) (message : Bytes), ∀ fuel, d.secureChannelRead heap fuel env (.data bytes) =
      .ok (switchEventDisconnected
        { d with info := (SwitchInfo.sent (SwitchInfo.withXid { d.info with receiver := receiver }) message).info }) := by
  have hstuck : ¬ Stuck validMessageVersion (restOf (rest ++ bytes)) := by
    intro hstuck
    exact absurd (hrefused.2.symm.trans hstuck.2.1) (by simp)
  obtain ⟨result,receiver,hrecv,_,hbad,_⟩ :=
    (receive_spec heap validMessageVersion bytes h.keeps h.drained hfits).2 hstuck
  obtain ⟨message,hrefuse⟩ := SwitchInfo.refuseVersion_ok { d.info with receiver := receiver }
  refine ⟨receiver,message,fun fuel => ?_⟩
  rw [secureChannelRead,hrecv,ok_bind,hbad hrefused]
  simp only [hrefuse,ok_bind]
  rfl

theorem read_framed (hstuck : ¬ Stuck validMessageVersion (restOf (rest ++ bytes)))
    (hrefused : ¬ Refused validMessageVersion (restOf (rest ++ bytes))) :
    ∃ received receiver : Receiver, Holds receiver.recvQueue [] ∧ receiver.Keeps (restOf (rest ++ bytes)) ∧
      ∀ fuel, d.secureChannelRead heap fuel env (.data bytes) = (do
        let s ← SwitchInfo.handleSequence env fuel (framesOf (rest ++ bytes))
          (0,{ d.info with receiver := received })
        pure (d.withInfo (SwitchInfo.concluded s receiver))) := by
  obtain ⟨result,received,hrecv,hqueue,_,hdone⟩ :=
    (receive_spec heap validMessageVersion bytes h.keeps h.drained hfits).2 hstuck
  obtain ⟨hresult,hkeeps⟩ := hdone hrefused
  have hfew : (framesOf (rest ++ bytes)).length < 4294967296 := by
    have hle := (checkedFramer validMessageVersion).length_frames (rest ++ bytes)
    have hsize : receiveBufferSize = 65553 := rfl
    rw [List.length_append] at hle
    exact Nat.lt_of_le_of_lt hle (by omega)
  have hheld : Holds received.recvQueue ((framesOf (rest ++ bytes)).map Buffer.ofBytes) := hqueue
  obtain ⟨receiver,hdrained,hsame,hrun⟩ :=
    SwitchInfo.handleReceived_eq (d := { d.info with receiver := received }) env hheld hfew
  refine ⟨received,receiver,hdrained,⟨?_,?_⟩,fun fuel => ?_⟩
  · intro hnone
    exact hkeeps.none_kept (hsame.symm.trans hnone)
  · intro b hb
    exact hkeeps.some_kept b (hsame.symm.trans hb)
  · rw [secureChannelRead,hrecv,ok_bind,hresult]
    simp only [if_true,hrun]
    cases SwitchInfo.handleSequence env fuel (framesOf (rest ++ bytes))
        (0,{ d.info with receiver := received }) with
    | error stop => rfl
    | ok s => rfl

end Data

theorem read_accepted (h : d.Reads rest) {bytes message : Bytes} (hmessage : rest ++ bytes = message)
    (haccepted : Accepts message) : ∃ received receiver : Receiver, Holds receiver.recvQueue [] ∧
      receiver.Keeps [] ∧ ∀ fuel, d.secureChannelRead heap fuel env (.data bytes) = (do
        let outcome ← { d.info with receiver := received }.ofpmsgRecv fuel env message
        pure (d.withInfo (SwitchInfo.concluded (SwitchInfo.countError 0 outcome) receiver))) := by
  obtain ⟨hframes,hrest⟩ := frames_accepted haccepted
  obtain ⟨t,ht,_⟩ := haccepted.type
  have hfits : rest.length + bytes.length ≤ receiveBufferSize := by
    have hupper := (headed_of_type haccepted ht).upper
    have hsize : receiveBufferSize = 65553 := rfl
    rw [← List.length_append,hmessage]
    omega
  have hshort : ¬ 8 ≤ ([] : Bytes).length := by simp
  obtain ⟨received,receiver,hdrained,hkeeps,hrun⟩ := read_framed heap env h hfits
    (fun hstuck => by rw [hmessage,hrest] at hstuck; exact hshort hstuck.1)
    (fun hrefused => by rw [hmessage,hrest] at hrefused; exact hshort hrefused.1)
  rw [hmessage,hrest] at hkeeps
  refine ⟨received,receiver,hdrained,hkeeps,fun fuel => ?_⟩
  rw [hrun,hmessage,hframes,SwitchInfo.handleSequence_cons]
  cases SwitchInfo.ofpmsgRecv { d.info with receiver := received } fuel env message with
  | error stop => rfl
  | ok outcome => rfl

theorem read_other (h : d.Reads rest) : ∃ receiver : Receiver,
    (Holds receiver.recvQueue [] ∧ receiver.Keeps rest) ∧ ∀ fuel,
      d.secureChannelRead heap fuel env .again =
        .ok (d.withInfo { d.info with receiver := receiver }) ∧
      d.secureChannelRead heap fuel env .failed =
        .ok (switchEventDisconnected { d with info := { d.info with receiver := receiver } }) ∧
      d.secureChannelRead heap fuel env .closed =
        .ok (switchEventDisconnected { d with info := { d.info with receiver := receiver } }) := by
  obtain ⟨b,hrecv,hkept⟩ := recv_other heap h.keeps h.drained
  obtain ⟨hagain,hfailed,hclosed⟩ := hrecv validMessageVersion
  have hlength : d.info.receiver.recvQueue.length = 0 := by simpa using h.drained.counted
  have hempty : ¬ 0 < d.info.receiver.recvQueue.length := by
    rw [hlength]
    exact UInt32.lt_irrefl 0
  refine ⟨⟨d.info.receiver.recvQueue,some b⟩,⟨h.drained,hkept⟩,fun fuel => ?_⟩
  simp only [secureChannelRead,hagain,hfailed,hclosed,if_neg hempty,ok_bind,pure_eq_ok,
    SwitchInfo.handleReceived]
  exact ⟨rfl,rfl,rfl⟩

end Daemon

end Trema.SwitchManager
