import Trema.SecureChannel.Incoming
import Trema.SwitchManager.Shutdown

namespace Trema.SwitchManager

open Library
open OpenFlow
open SecureChannel

namespace SwitchInfo

variable (env : Surroundings)

-- Every message can be handled in the state that the ones before it leave.
def AllManageable : List Bytes → SwitchInfo → Prop
  | [], _ => True
  | message :: messages, d => d.Manageable message ∧
      ∀ outcome, Yields (fun n => d.ofpmsgRecv n env message) (.ok outcome) → AllManageable messages outcome.info

variable {env}

theorem sequence_manageable {messages : List Bytes} (hlong : ∀ m ∈ messages, 8 ≤ m.length) {d : SwitchInfo}
    (hd : d.cookieTable.Linked) (h : AllManageable env messages d) (errors : Nat) :
    ∃ s, Yields (fun n => handleSequence env n messages (errors,d)) (.ok s) ∧ s.2.cookieTable.Linked ∧
      s.2.sending = d.sending := by
  induction messages generalizing d errors with
  | nil => exact ⟨(errors,d),⟨by simp,0,rfl⟩,hd,rfl⟩
  | cons message messages ih =>
    obtain ⟨hm,hlong⟩ := List.forall_mem_cons.mp hlong
    obtain ⟨outcome,hrecv,_⟩ := h.1.served hd env hm
    obtain ⟨_,n₀,hn₀⟩ := hrecv
    have hlinked := ofpmsgRecv_linked hd hm hn₀
    have hadvances := advances_ofpmsgRecv hn₀
    obtain ⟨s,hs,hsequence,hsending⟩ := ih hlong hlinked (h.2 outcome ⟨by simp,n₀,hn₀⟩)
      (countError errors outcome).1
    refine ⟨s,?_,hsequence,hsending.trans hadvances.sending⟩
    obtain ⟨k,hk⟩ := (d.settled_ofpmsgRecv message env).eventually ⟨by simp,n₀,hn₀⟩
    obtain ⟨l,hl⟩ := (settled_handleSequence env messages _).eventually hs
    refine ⟨by simp,max k l,?_⟩
    simp only [handleSequence_cons,hk _ (Nat.le_max_left k l),ok_bind]
    exact hl _ (Nat.le_max_right k l)

end SwitchInfo

namespace Daemon

variable (heap : Nat → UInt8)

def readStep (n : Nat) (d : Daemon) (read : ReadResult × Surroundings) : Exec Daemon :=
  d.step heap n (.read read.1 read.2)

-- What a read calls for while the secure channel is open.
def FitsPeer (d : Daemon) (read : ReadResult × Surroundings) : Prop :=
  d.info.sending = true → FitsRead heap validMessageVersion d.info.receiver read.1 ∧
    ∀ bytes, read.1 = .data bytes → ¬ Refused validMessageVersion (restOf (d.info.receiver.kept ++ bytes)) →
      ∀ receiver, SwitchInfo.AllManageable read.2 (framesOf (d.info.receiver.kept ++ bytes))
        { d.info with receiver := receiver }

def ServesPeer (d : Daemon) (read : ReadResult × Surroundings) (d' : Daemon) : Prop :=
  d.info.sending = true → HandsOn heap validMessageVersion d.info.receiver read.1 ∧
    ∀ bytes, read.1 = .data bytes → Refused validMessageVersion (restOf (d.info.receiver.kept ++ bytes)) →
      ∃ info, SwitchInfo.Passes { d.info with receiver := info.receiver } info ∧
        d' = switchEventDisconnected { d with info := info }

structure Listening (d : Daemon) : Prop where
  linked : d.info.cookieTable.Linked
  reads : ∃ rest, d.Reads rest

variable {heap} {d : Daemon}

variable (d) in
theorem closed_listening (info : SwitchInfo) (h : info.cookieTable.Linked) :
    (switchEventDisconnected { d with info := info }).Listening :=
  ⟨h,[],Holds.create,read_init.keeps⟩

theorem Listening.data (h : d.Listening) (hopen : d.info.sending = true) {bytes : Bytes} {env : Surroundings}
    (hfits : d.FitsPeer heap (.data bytes,env)) : ∃ d',
      Yields (fun n => readStep heap n d (.data bytes,env)) (.ok d') ∧
      d.ServesPeer heap (.data bytes,env) d' ∧ d'.Listening := by
  obtain ⟨hread,hmanageable⟩ := hfits hopen
  obtain ⟨rest,hreads⟩ := h.reads
  have hserves := handsOn_of_fits hreads.drained hreads.keeps hread
  obtain ⟨hanswers,hannounces⟩ := hread bytes rfl
  have hmanageable := hmanageable bytes rfl
  have hkept := hreads.keeps.kept_eq
  rw [hkept] at hannounces hmanageable
  have hfits := fits_of_answered hreads.keeps hanswers
  obtain ⟨hlong,hstuck⟩ := hannounces.frames
  by_cases hrefused : Refused validMessageVersion (restOf (rest ++ bytes))
  · obtain ⟨receiver,message,hrun⟩ := read_refused heap env hreads hfits hrefused
    have hpasses := SwitchInfo.passes_sent (d := { d.info with receiver := receiver }) message
    have hsame := (SwitchInfo.internal_generated (d := { d.info with receiver := receiver }) message).cookieTable
    refine ⟨switchEventDisconnected { d with info := (SwitchInfo.sent
      (SwitchInfo.withXid { d.info with receiver := receiver }) message).info },⟨by simp,0,?_⟩,
      fun _ => ⟨hserves,fun _ _ _ => ⟨_,?_,rfl⟩⟩,closed_listening d _ ?_⟩
    · simp only [readStep,Daemon.step,if_pos hopen,hrun 0]
    · rw [hpasses.receiver]
      exact hpasses
    · rw [hsame]
      exact h.linked
  · obtain ⟨received,receiver,hdrained,hkeeps,hrun⟩ := read_framed heap env hreads hfits hstuck hrefused
    obtain ⟨s,⟨_,n,hn⟩,hlinked,_⟩ := SwitchInfo.sequence_manageable (d := { d.info with receiver := received })
      hlong h.linked (hmanageable hrefused received) 0
    refine ⟨d.withInfo (SwitchInfo.concluded s receiver),⟨by simp,n,?_⟩,fun _ => ⟨hserves,?_⟩,?_⟩
    · simp only at hn
      simp only [readStep,Daemon.step,if_pos hopen,hrun n,framesOf,hn]
      rfl
    · intro bytes' hbytes hbad
      injection hbytes with hbytes
      rw [← hbytes,hkept] at hbad
      exact absurd hbad hrefused
    · rw [withInfo,SwitchInfo.concluded]
      split
      · exact ⟨hlinked,_,hdrained,hkeeps⟩
      · exact ⟨hlinked,_,hdrained,hkeeps⟩

theorem Listening.step (h : d.Listening) {read : ReadResult × Surroundings} (hfits : d.FitsPeer heap read) :
    ∃ d', Yields (fun n => readStep heap n d read) (.ok d') ∧ d.ServesPeer heap read d' ∧ d'.Listening := by
  cases hopen : d.info.sending with
  | false =>
    refine ⟨d,⟨by simp,0,?_⟩,fun h => absurd (h.symm.trans hopen) (by simp),h⟩
    simp [readStep,Daemon.step,hopen,pure_eq_ok]
  | true =>
    obtain ⟨read,env⟩ := read
    obtain ⟨rest,hreads⟩ := h.reads
    obtain ⟨receiver,hkept,hother⟩ := read_other heap env hreads
    have hserves := handsOn_of_fits hreads.drained hreads.keeps (hfits hopen).1
    cases read with
    | data bytes => exact h.data hopen hfits
    | again =>
      refine ⟨d.withInfo { d.info with receiver := receiver },⟨by simp,0,?_⟩,fun _ => ⟨hserves,by simp⟩,
        h.linked,rest,hkept.1,hkept.2⟩
      simp only [readStep,Daemon.step,if_pos hopen,(hother 0).1]
    | failed =>
      refine ⟨_,⟨by simp,0,?_⟩,fun _ => ⟨hserves,by simp⟩,closed_listening d { d.info with receiver := receiver } h.linked⟩
      simp only [readStep,Daemon.step,if_pos hopen,(hother 0).2.1]
    | closed =>
      refine ⟨_,⟨by simp,0,?_⟩,fun _ => ⟨hserves,by simp⟩,closed_listening d { d.info with receiver := receiver } h.linked⟩
      simp only [readStep,Daemon.step,if_pos hopen,(hother 0).2.2]

end Daemon

-- In both programs every read of a run returns, hands on whole frames, and ends in the error return where the daemon
-- meets a version it does not know.
theorem peer_streams_served (heap : Nat → UInt8) :
    (∀ d : Daemon, d.Listening → ∀ reads, FitsRun (Daemon.readStep heap) (Daemon.FitsPeer heap) d reads →
      ServesRun (Daemon.readStep heap) (Daemon.ServesPeer heap) d reads) ∧
    ∀ (handlers : Handlers) (l : Listener) (rest : Bytes), l.Reads rest → ∀ reads,
      FitsRun (fun n l read => l.recvFromSecureChannel heap handlers n read) (Listener.Fits heap) l reads →
      ServesRun (fun n l read => l.recvFromSecureChannel heap handlers n read) (Listener.Serves heap) l reads := by
  refine ⟨fun d hd reads hfits => ?_,fun handlers l rest hl reads hfits => ?_⟩
  · exact serves_of_fits (fun _ _ hs hx => hs.step hx) hd hfits
  · have hstep : ∀ (s : Listener) x, (∃ rest, s.Reads rest) → s.Fits heap x → ∃ t : Listener,
        Yields (fun n => s.recvFromSecureChannel heap handlers n x) (.ok t) ∧ s.Serves heap x t ∧
          ∃ rest, t.Reads rest := by
      rintro s x ⟨rest,hs⟩ hx
      exact Listener.step hs hx
    exact serves_of_fits hstep ⟨rest,hl⟩ hfits

theorem Daemon.started_listening {options : StartOptions} {info : SwitchInfo}
    (h : (initSwitchInfo options).switchEventConnected = .ok ⟨0,info⟩) : (Daemon.started info).Listening := by
  obtain ⟨info',hinfo,_,htable⟩ := Daemon.connected_ok options
  have hsame : info = info' := by
    rw [h] at hinfo
    injection hinfo with hinfo
    exact congrArg Outcome.info hinfo
  refine ⟨?_,[],Daemon.started_reads h⟩
  rw [Daemon.started,hsame]
  simp only [htable]
  exact CookieTable.init_linked

section Hello

variable {heap : Nat → UInt8} {valid : UInt8 → UInt8 → Bool} {r : Receiver}

variable (valid) in
theorem hello_frames (hvalid : valid 0 1 = true) : (checkedFramer valid).frames helloMessage = ([helloMessage],[]) := by
  have hsup : supported valid helloMessage = true := by
    rw [← hvalid]
    rfl
  have hsize : messageLength helloMessage = 8 := by decide
  have hc : (checkedFramer valid).Complete helloMessage :=
    checkedFramer_complete.mpr ⟨by decide,hsup,by decide,by decide⟩
  have hnil : ¬ (checkedFramer valid).Complete (helloMessage.drop 8) := fun hc => by
    have hhead : 8 ≤ (helloMessage.drop 8).length := hc.1
    exact absurd hhead (by decide)
  rw [Framer.frames_of_complete hc,checkedFramer_size hsup,hsize,Framer.frames_of_not_complete hnil]
  rfl

theorem hello_fits (hkeeps : r.Keeps []) : FitsRead heap valid r (.data helloMessage) := by
  intro bytes hbytes
  injection hbytes with hbytes
  rw [← hbytes,hkeeps.kept_eq]
  refine ⟨⟨by decide,fun n hn => ?_⟩,.header (by decide) (by decide) (.short (by decide))⟩
  rw [requestedSize_eq hkeeps (by simp)] at hn
  injection hn with hn
  rw [← hn]
  decide

end Hello

theorem peer_streams_served_hello : ∃ info, (initSwitchInfo plainOptions).switchEventConnected = .ok ⟨0,info⟩ ∧
    ServesRun (Daemon.readStep fun _ => 0) (Daemon.ServesPeer fun _ => 0) (Daemon.started info)
      [(.data helloMessage,quietSurroundings)] ∧
    ServesRun (fun n (l : Listener) read => l.recvFromSecureChannel (fun _ => 0) (fun _ => true) n read)
      (Listener.Serves fun _ => 0) ⟨Receiver.init,[]⟩ [.data helloMessage] := by
  obtain ⟨info,hinfo,_⟩ := Daemon.connected_ok plainOptions
  have hlistening := Daemon.started_listening hinfo
  have hkeeps := (Daemon.started_reads hinfo).keeps
  have hempty : Receiver.init.Keeps [] := read_init.keeps
  obtain ⟨hdaemon,hlistener⟩ := peer_streams_served fun _ => 0
  refine ⟨info,hinfo,hdaemon _ hlistening _ ⟨?_,fun _ _ => trivial⟩,
    hlistener _ _ [] ⟨read_init.drained,hempty⟩ _ ⟨⟨hello_fits hempty,?_⟩,fun _ _ => trivial⟩⟩
  · intro _
    refine ⟨hello_fits hkeeps,fun bytes hbytes _ receiver => ?_⟩
    injection hbytes with hbytes
    have hframes : Daemon.framesOf helloMessage = [helloMessage] := congrArg Prod.fst (hello_frames _ (by decide))
    rw [← hbytes,hkeeps.kept_eq,List.nil_append,hframes]
    exact ⟨hello_manageable _,fun _ _ => trivial⟩
  · intro bytes hbytes m hm
    injection hbytes with hbytes
    rw [← hbytes,hempty.kept_eq,List.nil_append,hello_frames _ rfl] at hm
    rw [List.mem_singleton.mp hm]
    refine ⟨hello_judged.1,hello_judged.2,fun _ t ht hplain => absurd ?_ hplain⟩
    rw [hello_type ht]
    exact ⟨by simp,by simp⟩

def emptyFrame : Bytes := [1,0,0,0,0,0,0,0]

-- A header that announces no bytes at all is given to alloc_buffer_with_length().
theorem empty_frame_aborts : ∃ info, (initSwitchInfo plainOptions).switchEventConnected = .ok ⟨0,info⟩ ∧
    ∀ heap fuel, (Daemon.started info).step heap fuel (.read (.data emptyFrame) quietSurroundings) =
      .error .aborted ∧ ∀ handlers, Listener.recvFromSecureChannel heap handlers fuel ⟨Receiver.init,[]⟩
        (.data emptyFrame) = .error .aborted := by
  obtain ⟨info,hinfo,_⟩ := Daemon.connected_ok plainOptions
  have hreads := Daemon.started_reads hinfo
  have hopen : (Daemon.started info).info.sending = true := (Daemon.started_alive hinfo).sending
  have hfits : ([] : Bytes).length + emptyFrame.length ≤ receiveBufferSize := by decide
  have hframes : ∀ valid : UInt8 → UInt8 → Bool, valid 0 1 = true →
      Stuck valid ((checkedFramer valid).frames emptyFrame).2 := by
    intro valid hvalid
    have hsup : supported valid emptyFrame = true := by
      rw [← hvalid]
      rfl
    have hc : ¬ (checkedFramer valid).Complete emptyFrame := fun hc => by
      obtain ⟨_,_,hpos,_⟩ := checkedFramer_complete.mp hc
      exact absurd hpos (by decide)
    rw [Framer.frames_of_not_complete hc]
    exact ⟨by decide,hsup,by decide⟩
  refine ⟨info,hinfo,fun heap fuel => ⟨?_,fun handlers => ?_⟩⟩
  · rw [Daemon.step,if_pos hopen]
    exact Daemon.read_stuck heap quietSurroundings hreads hfits (hframes _ (by decide)) fuel
  · have hread := (receive_spec heap Side.switch.accepts emptyFrame read_init.keeps read_init.drained hfits).1
      (hframes _ (by decide))
    rw [Listener.recvFromSecureChannel,hread]
    rfl

end Trema.SwitchManager
