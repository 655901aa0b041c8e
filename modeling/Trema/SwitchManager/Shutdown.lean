import Trema.SwitchManager.Expectations

namespace Trema.SwitchManager

open Library
open OpenFlow
open SecureChannel

def Output.Ready : Output → Prop
  | .toService _ tag _ _ => tag = .ready
  | .toSwitch _ => False

-- One terminal notification to each of the services, and no other, and none that the switch is ready behind it.
def Notified (services : List Bytes) (tag : MessageTag) (outputs : List Output) : Prop :=
  ∃ before datapathId after, outputs =
      before ++ services.map (fun name => Output.toService name tag datapathId none) ++ after ∧
    (∀ o ∈ before, ¬ o.Terminal) ∧ ∀ o ∈ after, ¬ o.Terminal ∧ ¬ o.Ready

namespace SwitchInfo

-- Every message is valid and fits the state that the ones before it leave.
def AllExpected (fuel : Nat) (env : Surroundings) : List Bytes → SwitchInfo → Prop
  | [], _ => True
  | message :: messages, d => d.Expected message env ∧
      ∀ outcome, d.ofpmsgRecv fuel env message = .ok outcome → AllExpected fuel env messages outcome.info

theorem sequence_expected {fuel : Nat} {env : Surroundings} {messages : List Bytes} {d : SwitchInfo}
    {s : Nat × SwitchInfo} (hsending : d.sending = true) (h : AllExpected fuel env messages d)
    (hrun : handleSequence env fuel messages (0,d) = .ok s) : s.1 = 0 ∧ Advances d s.2 := by
  induction messages generalizing d with
  | nil =>
    injection hrun with hrun
    rw [← hrun]
    exact ⟨rfl,.refl d⟩
  | cons message messages ih =>
    rw [handleSequence_cons] at hrun
    obtain ⟨outcome,hrecv,hrun⟩ := bind_eq_ok.mp hrun
    have hzero := ret_expected hsending h.1 hrecv
    have hadvances := advances_ofpmsgRecv hrecv
    have hcount : countError 0 outcome = (0,outcome.info) := by
      rw [countError,hzero]
      rfl
    rw [hcount] at hrun
    obtain ⟨hnone,hrest⟩ := ih (hadvances.sending.trans hsending) (h.2 outcome hrecv) hrun
    exact ⟨hnone,hadvances.trans hrest⟩

end SwitchInfo

namespace Daemon

section Conditions

variable (heap : Nat → UInt8) (fuel : Nat)

-- What read() may have answered, and messages that no handler returns an error for.
def OrderlyRead (d : Daemon) (env : Surroundings) : ReadResult → Prop
  | .data bytes => Answers heap d.info.receiver (.data bytes) ∧
      (¬ Refused validMessageVersion (restOf (d.info.receiver.kept ++ bytes)) → ∀ receiver,
        SwitchInfo.AllExpected fuel env (framesOf (d.info.receiver.kept ++ bytes))
          { d.info with receiver := receiver })
  | _ => True

-- Nothing asks for the end of the connection or tells that the switch is listed while the messenger is being flushed, a
-- signal finds no other callback, and select() does not fail.
def Orderly (d : Daemon) : DaemonEvent → Prop
  | .read result env => d.OrderlyRead heap fuel env result
  | .disconnectRequest datapathId => 0 < d.flushing → datapathId ≠ d.info.datapathId
  | .switchList dpids => 0 < d.flushing → d.info.datapathId ∉ dpids
  | .externalCallback => 0 < d.flushing → d.externalCallback ≠ some .stopSwitchDaemon
  | .sigterm => d.externalCallback = none
  | .selectFailed => d.info.state = .disconnected
  | _ => True

def OrderlyRun : Daemon → List DaemonEvent → Prop
  | _, [] => True
  | d, event :: events => d.Orderly heap fuel event ∧
      ∀ d', d.step heap fuel event = .ok d' → OrderlyRun d' events

-- The handshake is complete at some point of the run.
def Completes : Daemon → List DaemonEvent → Prop
  | d, [] => d.info.state = .completed
  | d, event :: events => d.info.state = .completed ∨
      ∃ d', d.step heap fuel event = .ok d' ∧ Completes d' events

end Conditions

structure Alive (services : List Bytes) (d : Daemon) : Prop where
  live : d.info.state ≠ .disconnected
  sending : d.info.sending = true
  running : d.info.stopped = false
  working : d.failed = false
  idle : d.flushing = 0
  services : d.info.stateServices = services
  quiet : ∀ o ∈ d.info.outputs, ¬ o.Terminal
  reads : ∃ rest, d.Reads rest

structure Closing (services : List Bytes) (tag : MessageTag) (d : Daemon) : Prop where
  state : d.info.state = .disconnected
  sending : d.info.sending = false
  notified : Notified services tag d.info.outputs
  stage : 0 < d.flushing ∨ d.info.stateServices = []

variable {services : List Bytes} {tag : MessageTag} {d d' : Daemon} {heap : Nat → UInt8} {fuel : Nat}

section Closing

theorem closes (hservices : d.info.stateServices = services) (hquiet : ∀ o ∈ d.info.outputs, ¬ o.Terminal) :
    Closing services d.info.terminalTag d.switchEventDisconnected := by
  refine ⟨rfl,rfl,⟨d.info.outputs,d.info.datapathId,[],?_,hquiet,by simp⟩,.inl (Nat.succ_pos _)⟩
  rw [← hservices,List.append_nil]
  rfl

theorem Closing.again (h : Closing services tag d) (hreleased : d.info.stateServices = []) :
    Closing services tag d.switchEventDisconnected := by
  refine ⟨rfl,rfl,?_,.inl (Nat.succ_pos _)⟩
  have hsame : d.switchEventDisconnected.info.outputs = d.info.outputs := by
    rw [switchEventDisconnected,SwitchInfo.closeChannel,SwitchInfo.serviceSendState,
      SwitchInfo.serviceSendToApplication]
    simp only [hreleased,List.map_nil,List.append_nil]
  rw [hsame]
  exact h.notified

theorem Closing.released (h : Closing services tag d) (hidle : ¬ 0 < d.flushing) : d.info.stateServices = [] :=
  h.stage.resolve_left hidle

-- What a signal leaves for the loop says nothing about the connection.
theorem Closing.recalled (h : Closing services tag d) (callback : Option ExternalCallback) :
    Closing services tag { d with externalCallback := callback } :=
  ⟨h.state,h.sending,h.notified,h.stage⟩

theorem Closing.called (h : Closing services tag d) (callback : ExternalCallback) :
    Closing services tag ((d.setExternalCallback callback).getD d) := by
  rw [setExternalCallback]
  split
  · exact h
  · exact h.recalled _

theorem Closing.timer (h : Closing services tag d) (hreleased : d.info.stateServices = [])
    {callback : TimerCallback} {clock : UInt64} (hstep : d.onTimer clock callback = .ok d') :
    Closing services tag d' := by
  have hstate := h.state
  cases callback with
  | timeoutHello =>
    injection hstep with hstep
    rw [← hstep,switchEventTimeoutHello,if_neg (by rw [hstate]; simp)]
    exact h
  | timeoutFeaturesReply =>
    injection hstep with hstep
    rw [← hstep,switchEventTimeoutFeaturesReply,if_neg (by rw [hstate]; simp)]
    exact h
  | echoReplyTimeout =>
    injection hstep with hstep
    rw [← hstep]
    exact h.again hreleased
  | echoRequestInterval =>
    rw [onTimer,echoRequestInterval,SwitchInfo.ofpmsgSendEchorequest] at hstep
    obtain ⟨sent,hsent,hstep⟩ := bind_eq_ok.mp hstep
    obtain ⟨message,_,hsent⟩ := bind_eq_ok.mp hsent
    rw [SwitchInfo.sendToSecureChannel] at hsent
    obtain ⟨_,_,hsent⟩ := bind_eq_ok.mp hsent
    have hclosed : ¬ { d.info.withXid with echoRequestXid := d.info.generatedXid }.sending = true := by
      rw [Bool.not_eq_true]
      exact h.sending
    rw [if_neg hclosed] at hsent
    injection hsent with hsent
    rw [← hsent] at hstep
    rw [if_pos (by simp)] at hstep
    injection hstep with hstep
    rw [← hstep]
    refine Closing.again (d := { d with info := { d.info.withXid with echoRequestXid := d.info.generatedXid } })
      ?_ hreleased
    exact ⟨h.state,h.sending,h.notified,h.stage⟩

theorem Closing.step (h : Closing services tag d) {event : DaemonEvent}
    (horderly : d.Orderly heap fuel event) (hstep : d.step heap fuel event = .ok d') :
    Closing services tag d' := by
  have hclosed := h.sending
  cases event with
  | read result env =>
    rw [Daemon.step,if_neg (by rw [hclosed]; simp)] at hstep
    injection hstep with hstep
    rw [← hstep]
    exact h
  | write failed =>
    injection hstep with hstep
    rw [← hstep,if_neg (by rw [hclosed]; simp)]
    exact h
  | timer callback clock =>
    rw [Daemon.step] at hstep
    split at hstep
    · rename_i hdue
      have hreleased := h.released (by omega)
      have hkept : Closing services tag (d.withoutTimer callback) ∧
          (d.withoutTimer callback).info.stateServices = [] := by
        rw [withoutTimer]
        split
        · exact ⟨h,hreleased⟩
        · exact ⟨⟨h.state,h.sending,h.notified,h.stage⟩,hreleased⟩
      exact hkept.1.timer hkept.2 hstep
    · injection hstep with hstep
      rw [← hstep]
      exact h
  | openflowMessage datapathId serviceName message now =>
    obtain ⟨info,hrequest,hstep⟩ := bind_eq_ok.mp hstep
    injection hstep with hstep
    have hpasses := SwitchInfo.passes_request hrequest
    have houtputs : info.outputs = d.info.outputs := by
      rcases hpasses.outputs with hsame | ⟨hopen,_⟩
      · exact hsame
      · rw [hclosed] at hopen
        exact absurd hopen (by simp)
    rw [← hstep]
    refine ⟨hpasses.state.trans h.state,hpasses.sending.trans hclosed,?_,?_⟩
    · simp only [houtputs]
      exact h.notified
    · simp only [hpasses.services]
      exact h.stage
  | disconnectRequest datapathId =>
    injection hstep with hstep
    rw [← hstep,switchEventDisconnectRequest]
    split
    · exact h
    · rename_i hsame
      exact h.again (h.released fun hflushing => hsame (horderly hflushing))
  | switchList dpids =>
    injection hstep with hstep
    rw [← hstep]
    split
    · rw [confirmSelfDpidIsRegisterd]
      split
      · rename_i hlisted
        have hreleased := h.released fun hflushing => horderly hflushing hlisted
        have houtputs : d.notifyStateToControllers.outputs = d.info.outputs := by
          rw [notifyStateToControllers,SwitchInfo.serviceSendState,SwitchInfo.serviceSendToApplication]
          simp only [hreleased,List.map_nil,List.append_nil]
        refine ⟨h.state,h.sending,?_,.inr hreleased⟩
        simp only [houtputs]
        exact h.notified
      · exact h
    · exact h
  | sigterm =>
    injection hstep with hstep
    rw [← hstep,handleSigterm,setExternalCallback]
    split
    · exact ⟨h.state,h.sending,h.notified,h.stage⟩
    · exact h.recalled _
  | sighup =>
    injection hstep with hstep
    rw [← hstep]
    exact h.called .doRestartLog
  | sigusr1 =>
    injection hstep with hstep
    rw [← hstep]
    exact h.called .dumpStats
  | externalCallback =>
    injection hstep with hstep
    rw [← hstep,runExternalCallback]
    cases hcallback : d.externalCallback with
    | none => exact h
    | some callback =>
      cases callback with
      | doRestartLog => exact h.recalled none
      | dumpStats => exact h.recalled none
      | stopSwitchDaemon =>
        have hreleased := h.released fun hflushing => horderly hflushing hcallback
        exact (h.recalled none).again hreleased
  | flushed =>
    injection hstep with hstep
    rw [← hstep]
    split
    · exact ⟨h.state,h.sending,h.notified,.inr rfl⟩
    · exact h
  | selectFailed =>
    injection hstep with hstep
    rw [← hstep]
    split
    · exact ⟨h.state,h.sending,h.notified,h.stage⟩
    · exact h

theorem Closing.run (h : Closing services tag d) {events : List DaemonEvent}
    (horderly : OrderlyRun heap fuel d events) (hrun : d.run heap fuel events = .ok d') :
    Closing services tag d' ∧ ¬ Completes heap fuel d events := by
  have hstate : ¬ d.info.state = .completed := by
    rw [h.state]
    simp
  induction events generalizing d with
  | nil =>
    injection hrun with hrun
    rw [← hrun]
    exact ⟨h,hstate⟩
  | cons event events ih =>
    obtain ⟨d₁,hstep,hrun⟩ := bind_eq_ok.mp hrun
    have hnext := h.step horderly.1 hstep
    obtain ⟨hlast,hnever⟩ := ih hnext (horderly.2 d₁ hstep) hrun (by rw [hnext.state]; simp)
    refine ⟨hlast,?_⟩
    rintro (hdone | ⟨d₂,hstep',hlater⟩)
    · exact hstate hdone
    · rw [hstep] at hstep'
      injection hstep' with hstep'
      rw [← hstep'] at hlater
      exact hnever hlater

end Closing

section Running

-- Either the daemon goes on, or it tells of the end of the connection as the state asks for.
def Proceeds (services : List Bytes) (d d' : Daemon) : Prop :=
  Alive services d' ∧ (d.info.state = .completed → d'.info.state = .completed) ∨
    Closing services d.info.terminalTag d'

theorem Alive.same (h : Alive services d) : Proceeds services d d := .inl ⟨h,id⟩

theorem Alive.closes (h : Alive services d) : Proceeds services d d.switchEventDisconnected :=
  .inr (Daemon.closes h.services h.quiet)

theorem Alive.recalled (h : Alive services d) (callback : Option ExternalCallback) :
    Proceeds services d { d with externalCallback := callback } := by
  obtain ⟨rest,hreads⟩ := h.reads
  exact .inl ⟨⟨h.live,h.sending,h.running,h.working,h.idle,h.services,h.quiet,rest,hreads.drained,
    hreads.keeps⟩,id⟩

theorem Alive.called (h : Alive services d) (callback : ExternalCallback) :
    Proceeds services d ((d.setExternalCallback callback).getD d) := by
  rw [setExternalCallback]
  split
  · exact h.same
  · exact h.recalled _

theorem Alive.advance (h : Alive services d) {info : SwitchInfo} (hadvances : SwitchInfo.Advances d.info info)
    (hreads : ∃ rest, Holds info.receiver.recvQueue [] ∧ info.receiver.Keeps rest) :
    Alive services (d.withInfo info) := by
  obtain ⟨new,hnew,hquiet⟩ := hadvances.outputs
  obtain ⟨rest,hdrained,hkeeps⟩ := hreads
  refine ⟨fun hgone => h.live (hadvances.live.mp hgone),hadvances.sending.trans h.sending,
    hadvances.stopped.trans h.running,h.working,h.idle,hadvances.services.trans h.services,?_,
    rest,hdrained,hkeeps⟩
  intro o ho
  have hmem : o ∈ d.info.outputs ++ new := by
    rw [← hnew]
    exact ho
  rcases List.mem_append.mp hmem with ho | ho
  · exact h.quiet o ho
  · exact hquiet o ho

theorem fits_of_answers {rest bytes : Bytes} (hreads : d.Reads rest)
    (h : Answers heap d.info.receiver (.data bytes)) : rest.length + bytes.length ≤ receiveBufferSize := by
  obtain ⟨b,_,hsize,_,hlen,hbytes⟩ := hreads.keeps.fragment heap
  have hrest : rest.length ≤ receiveBufferSize := by
    rw [← hbytes,Buffer.bytes,slice,List.length_take,List.length_drop,← hsize]
    omega
  have hfits := h.2 _ (requestedSize_eq hreads.keeps hrest)
  omega

theorem Alive.read (h : Alive services d) {env : Surroundings} {result : ReadResult}
    (horderly : d.OrderlyRead heap fuel env result)
    (hstep : d.secureChannelRead heap fuel env result = .ok d') : Proceeds services d d' := by
  obtain ⟨rest,hreads⟩ := h.reads
  obtain ⟨receiver,hkept,hother⟩ := read_other heap env hreads
  obtain ⟨hagain,hfailed,hclosed⟩ := hother fuel
  cases result with
  | again =>
    rw [hagain] at hstep
    injection hstep with hstep
    rw [← hstep]
    exact .inl ⟨h.advance (.same rfl rfl rfl Iff.rfl (fun hdone => hdone) rfl) ⟨rest,hkept⟩,id⟩
  | failed =>
    rw [hfailed] at hstep
    injection hstep with hstep
    rw [← hstep]
    exact .inr (Daemon.closes h.services h.quiet)
  | closed =>
    rw [hclosed] at hstep
    injection hstep with hstep
    rw [← hstep]
    exact .inr (Daemon.closes h.services h.quiet)
  | data bytes =>
    obtain ⟨hanswers,hexpected⟩ := horderly
    have hfits := fits_of_answers hreads hanswers
    rw [hreads.keeps.kept_eq] at hexpected
    by_cases hstuck : Stuck validMessageVersion (restOf (rest ++ bytes))
    · rw [read_stuck heap env hreads hfits hstuck] at hstep
      exact absurd hstep (by simp)
    · by_cases hrefused : Refused validMessageVersion (restOf (rest ++ bytes))
      · obtain ⟨received,message,hrun⟩ := read_refused heap env hreads hfits hrefused
        rw [hrun] at hstep
        injection hstep with hstep
        rw [← hstep]
        have hpasses := SwitchInfo.passes_sent (d := { d.info with receiver := received }) message
        obtain ⟨new,hnew,hquiet⟩ := hpasses.advances.outputs
        have hclosing := Daemon.closes (d := { d with info := (SwitchInfo.sent
          (SwitchInfo.withXid { d.info with receiver := received }) message).info })
          (hpasses.services.trans h.services) fun o ho => by
            rw [hnew] at ho
            rcases List.mem_append.mp ho with ho | ho
            · exact h.quiet o ho
            · exact hquiet o ho
        rw [SwitchInfo.terminalTag,hpasses.state] at hclosing
        exact .inr hclosing
      · obtain ⟨received,last,hdrained,hkeeps,hrun⟩ := read_framed heap env hreads hfits hstuck hrefused
        rw [hrun] at hstep
        obtain ⟨s,hs,hstep⟩ := bind_eq_ok.mp hstep
        injection hstep with hstep
        obtain ⟨hnone,hadvances⟩ := SwitchInfo.sequence_expected
          (d := { d.info with receiver := received }) h.sending (hexpected hrefused received) hs
        rw [← hstep,SwitchInfo.concluded,if_pos hnone]
        have hinfo : SwitchInfo.Advances d.info { s.2 with receiver := last } :=
          ⟨hadvances.sending,hadvances.stopped,hadvances.services,hadvances.live,hadvances.completed,
            hadvances.outputs⟩
        exact .inl ⟨h.advance hinfo ⟨_,hdrained,hkeeps⟩,hinfo.completed⟩

theorem Alive.timer (h : Alive services d) {callback : TimerCallback} {clock : UInt64}
    (hstep : d.onTimer clock callback = .ok d') : Proceeds services d d' := by
  cases callback with
  | timeoutHello =>
    injection hstep with hstep
    rw [← hstep,switchEventTimeoutHello]
    split
    · exact .inr (Daemon.closes (d := { d with info := { d.info with runningTimer := false } }) h.services
        h.quiet)
    · exact h.same
  | timeoutFeaturesReply =>
    injection hstep with hstep
    rw [← hstep,switchEventTimeoutFeaturesReply]
    split
    · exact .inr (Daemon.closes (d := { d with info := { d.info with runningTimer := false } }) h.services
        h.quiet)
    · exact h.same
  | echoReplyTimeout =>
    injection hstep with hstep
    rw [← hstep]
    exact h.closes
  | echoRequestInterval =>
    rw [onTimer,echoRequestInterval,SwitchInfo.ofpmsgSendEchorequest] at hstep
    obtain ⟨sent,hsent,hstep⟩ := bind_eq_ok.mp hstep
    obtain ⟨message,_,hsent⟩ := bind_eq_ok.mp hsent
    have hpasses := SwitchInfo.passes_sendToSecureChannel hsent
    have hzero := SwitchInfo.ret_sendToSecureChannel
      (d := { d.info.withXid with echoRequestXid := d.info.generatedXid }) h.sending hsent
    rw [if_neg (by rw [hzero]; decide)] at hstep
    injection hstep with hstep
    have hadvances := hpasses.advances
    have hinfo : SwitchInfo.Advances d.info (sent.info.switchSetTimeout .echoReplyTimeout) :=
      ⟨hadvances.sending,hadvances.stopped,hadvances.services,hadvances.live,hadvances.completed,
        hadvances.outputs⟩
    obtain ⟨rest,hreads⟩ := h.reads
    have hkept : Holds sent.info.receiver.recvQueue [] ∧ sent.info.receiver.Keeps rest := by
      rw [hpasses.receiver]
      exact ⟨hreads.drained,hreads.keeps⟩
    have hnext := h.advance hinfo ⟨rest,hkept⟩
    rw [← hstep]
    exact .inl ⟨⟨hnext.live,hnext.sending,hnext.running,hnext.working,hnext.idle,hnext.services,
      hnext.quiet,rest,hkept.1,hkept.2⟩,hinfo.completed⟩

theorem Alive.withoutTimer (h : Alive services d) (callback : TimerCallback) :
    Alive services (d.withoutTimer callback) ∧ (d.withoutTimer callback).info.state = d.info.state := by
  obtain ⟨rest,hreads⟩ := h.reads
  rw [Daemon.withoutTimer]
  split
  · exact ⟨h,rfl⟩
  · exact ⟨⟨h.live,h.sending,h.running,h.working,h.idle,h.services,h.quiet,rest,hreads.drained,
      hreads.keeps⟩,rfl⟩

theorem Alive.step (h : Alive services d) {event : DaemonEvent}
    (horderly : d.Orderly heap fuel event) (hstep : d.step heap fuel event = .ok d') :
    Proceeds services d d' := by
  have hopen := h.sending
  have hidle : ¬ 0 < d.flushing := by
    rw [h.idle]
    exact Nat.lt_irrefl 0
  obtain ⟨rest,hreads⟩ := h.reads
  cases event with
  | read result env =>
    rw [Daemon.step,if_pos hopen] at hstep
    exact h.read horderly hstep
  | write failed =>
    injection hstep with hstep
    rw [← hstep,if_pos hopen,secureChannelWrite]
    split
    · exact h.closes
    · exact h.same
  | timer callback clock =>
    rw [Daemon.step] at hstep
    split at hstep
    · obtain ⟨hkept,hstate⟩ := h.withoutTimer callback
      rcases hkept.timer hstep with ⟨halive,hcompleted⟩ | hclosing
      · exact .inl ⟨halive,fun hdone => hcompleted (hstate.trans hdone)⟩
      · rw [SwitchInfo.terminalTag,hstate] at hclosing
        exact .inr hclosing
    · injection hstep with hstep
      rw [← hstep]
      exact h.same
  | openflowMessage datapathId serviceName message now =>
    obtain ⟨info,hrequest,hstep⟩ := bind_eq_ok.mp hstep
    injection hstep with hstep
    have hpasses := SwitchInfo.passes_request hrequest
    have hkept : Holds info.receiver.recvQueue [] ∧ info.receiver.Keeps rest := by
      rw [hpasses.receiver]
      exact ⟨hreads.drained,hreads.keeps⟩
    have hnext := h.advance hpasses.advances ⟨rest,hkept⟩
    rw [← hstep]
    exact .inl ⟨⟨hnext.live,hnext.sending,hnext.running,hnext.working,hnext.idle,hnext.services,
      hnext.quiet,rest,hkept.1,hkept.2⟩,hpasses.advances.completed⟩
  | disconnectRequest datapathId =>
    injection hstep with hstep
    rw [← hstep,switchEventDisconnectRequest]
    split
    · exact h.same
    · exact h.closes
  | switchList dpids =>
    injection hstep with hstep
    rw [← hstep]
    split
    · rw [confirmSelfDpidIsRegisterd]
      split
      · have hready := SwitchInfo.advances_broadcast (d := d.info) .ready d.info.stateServices none
          ⟨by simp,by simp⟩
        have hnext := h.advance hready ⟨rest,hreads.drained,hreads.keeps⟩
        exact .inl ⟨⟨hnext.live,hnext.sending,hnext.running,hnext.working,hnext.idle,hnext.services,
          hnext.quiet,rest,hreads.drained,hreads.keeps⟩,hready.completed⟩
      · exact h.same
    · exact h.same
  | sigterm =>
    injection hstep with hstep
    have hfree : d.externalCallback = none := horderly
    rw [← hstep,handleSigterm,setExternalCallback,hfree,if_neg (by simp)]
    exact h.recalled _
  | sighup =>
    injection hstep with hstep
    rw [← hstep]
    exact h.called .doRestartLog
  | sigusr1 =>
    injection hstep with hstep
    rw [← hstep]
    exact h.called .dumpStats
  | externalCallback =>
    injection hstep with hstep
    rw [← hstep,runExternalCallback]
    cases d.externalCallback with
    | none => exact h.same
    | some callback =>
      cases callback with
      | doRestartLog => exact h.recalled none
      | dumpStats => exact h.recalled none
      | stopSwitchDaemon =>
        exact .inr (Daemon.closes (d := { d with externalCallback := none }) h.services h.quiet)
  | flushed =>
    injection hstep with hstep
    rw [← hstep,if_neg hidle]
    exact h.same
  | selectFailed => exact absurd horderly h.live

theorem Alive.run (h : Alive services d) {events : List DaemonEvent}
    (horderly : OrderlyRun heap fuel d events) (hrun : d.run heap fuel events = .ok d') :
    Alive services d' ∨ ∃ tag, Closing services tag d' ∧
      (tag = .disconnected ∧ Completes heap fuel d events ∨
        tag = .faildToConnect ∧ ¬ Completes heap fuel d events) := by
  induction events generalizing d with
  | nil =>
    injection hrun with hrun
    rw [← hrun]
    exact .inl h
  | cons event events ih =>
    obtain ⟨d₁,hstep,hrun⟩ := bind_eq_ok.mp hrun
    have hnext : Completes heap fuel d (event :: events) ↔
        d.info.state = .completed ∨ Completes heap fuel d₁ events := by
      refine or_congr_right ⟨?_,fun hlater => ⟨d₁,hstep,hlater⟩⟩
      rintro ⟨d₂,hstep',hlater⟩
      rw [hstep] at hstep'
      injection hstep' with hstep'
      rw [hstep']
      exact hlater
    rcases h.step horderly.1 hstep with ⟨halive,hcompleted⟩ | hclosing
    · have hsame : Completes heap fuel d (event :: events) ↔ Completes heap fuel d₁ events := by
        rw [hnext]
        refine or_iff_right_of_imp fun hdone => ?_
        cases events with
        | nil => exact hcompleted hdone
        | cons next rest => exact .inl (hcompleted hdone)
      rw [hsame]
      exact ih halive (horderly.2 d₁ hstep) hrun
    · obtain ⟨hlast,hnever⟩ := hclosing.run (horderly.2 d₁ hstep) hrun
      refine .inr ⟨d.info.terminalTag,hlast,?_⟩
      rw [hnext,SwitchInfo.terminalTag]
      by_cases hdone : d.info.state = .completed
      · rw [if_pos hdone]
        exact .inl ⟨rfl,.inl hdone⟩
      · rw [if_neg hdone]
        exact .inr ⟨rfl,not_or.mpr ⟨hdone,hnever⟩⟩

end Running

section Start

variable {options : StartOptions} {info : SwitchInfo}

-- The daemon as main() starts it, once switch_event_connected has returned.
def started (info : SwitchInfo) : Daemon := ⟨info,0,false,none,false⟩

variable (options) in
theorem connected_ok : ∃ info, (initSwitchInfo options).switchEventConnected = .ok ⟨0,info⟩ ∧
    info.state = .waitHello ∧ info.cookieTable = initCookieTable := by
  rw [SwitchInfo.switchEventConnected,SwitchInfo.ofpmsgSendHello_eq,ok_bind]
  exact ⟨_,rfl,rfl,rfl⟩

theorem started_reads (h : (initSwitchInfo options).switchEventConnected = .ok ⟨0,info⟩) :
    (started info).Reads [] := by
  rw [SwitchInfo.switchEventConnected] at h
  obtain ⟨greeted,hgreeted,h⟩ := bind_eq_ok.mp h
  have hreceiver : greeted.info.receiver = Receiver.init := (SwitchInfo.passes_sendGenerated hgreeted).receiver
  split at h
  · injection h with h
    have hinfo := congrArg Outcome.info h
    simp only at hinfo
    rw [started,← hinfo]
    refine ⟨?_,?_⟩
    · simp only [hreceiver]
      exact Holds.create
    · simp only [hreceiver]
      exact read_init.keeps
  · injection h with h
    injection h with _ h
    rw [started,← h]
    refine ⟨?_,?_⟩
    · simp only [SwitchInfo.switchSetTimeout,hreceiver]
      exact Holds.create
    · simp only [SwitchInfo.switchSetTimeout,hreceiver]
      exact read_init.keeps

theorem started_alive (h : (initSwitchInfo options).switchEventConnected = .ok ⟨0,info⟩) :
    Alive options.stateServices (started info) := by
  have hreads := started_reads h
  rw [SwitchInfo.switchEventConnected] at h
  obtain ⟨greeted,hgreeted,h⟩ := bind_eq_ok.mp h
  have hbroadcast := SwitchInfo.advances_broadcast (d := initSwitchInfo options) .connected
    options.stateServices none ⟨by simp,by simp⟩
  have hadvances := hbroadcast.trans (SwitchInfo.advances_sendGenerated hgreeted)
  have hzero := SwitchInfo.ret_sendGenerated (hbroadcast.sending.trans rfl) hgreeted
  rw [if_neg (by rw [hzero]; decide)] at h
  injection h with h
  injection h with _ h
  obtain ⟨new,hnew,hquiet⟩ := hadvances.outputs
  rw [← h] at hreads ⊢
  refine ⟨by simp [started,SwitchInfo.switchSetTimeout],hadvances.sending,hadvances.stopped,rfl,rfl,
    hadvances.services,?_,[],hreads⟩
  intro o ho
  have hmem : o ∈ (initSwitchInfo options).outputs ++ new := by
    rw [← hnew]
    exact ho
  exact hquiet o hmem

end Start

end Daemon

theorem end_notified (options : StartOptions) (info : SwitchInfo)
    (hconnected : (initSwitchInfo options).switchEventConnected = .ok ⟨0,info⟩) (heap : Nat → UInt8)
    (fuel : Nat) (events : List DaemonEvent)
    (horderly : Daemon.OrderlyRun heap fuel (Daemon.started info) events) (d : Daemon)
    (hrun : (Daemon.started info).run heap fuel events = .ok d) (hended : d.Ended) :
    ∃ tag, Notified options.stateServices tag d.info.outputs ∧
      (tag = .disconnected ∧ Daemon.Completes heap fuel (Daemon.started info) events ∨
        tag = .faildToConnect ∧ ¬ Daemon.Completes heap fuel (Daemon.started info) events) := by
  rcases (Daemon.started_alive hconnected).run horderly hrun with halive | ⟨tag,hclosing,htag⟩
  · rcases hended.2 with hstopped | hfailed
    · rw [halive.running] at hstopped
      exact absurd hstopped (by simp)
    · rw [halive.working] at hfailed
      exact absurd hfailed (by simp)
  · exact ⟨tag,hclosing.notified,htag⟩

def notifyingOptions : StartOptions := { plainOptions with stateServices := [[97]] }

-- The write fails while the hello of the switch is awaited.
theorem end_notified_write_failure : ∃ info d,
    (initSwitchInfo notifyingOptions).switchEventConnected = .ok ⟨0,info⟩ ∧
    (Daemon.started info).run (fun _ => 0) 0 [.sigusr1,.write true,.flushed] = .ok d ∧
    Notified [[97]] .faildToConnect d.info.outputs := by
  obtain ⟨info,hinfo,hwaiting,_⟩ := Daemon.connected_ok notifyingOptions
  have halive := Daemon.started_alive hinfo
  have hopen : info.sending = true := halive.sending
  let called : Daemon := { Daemon.started info with externalCallback := some .dumpStats }
  have hcalled : (Daemon.started info).step (fun _ => 0) 0 .sigusr1 = .ok called := rfl
  have hwrite : called.step (fun _ => 0) 0 (.write true) = .ok called.switchEventDisconnected := by
    simp only [Daemon.step,called,Daemon.started,hopen,if_true,pure_eq_ok]
    rfl
  have hflushed : called.switchEventDisconnected.step (fun _ => 0) 0 .flushed =
      .ok called.switchEventDisconnected.flushed := rfl
  have hrun : (Daemon.started info).run (fun _ => 0) 0 [.sigusr1,.write true,.flushed] =
      .ok called.switchEventDisconnected.flushed := by
    simp only [Daemon.run,hcalled,hwrite,hflushed,ok_bind,pure_eq_ok]
  obtain ⟨tag,htag,hcases⟩ := end_notified notifyingOptions info hinfo (fun _ => 0) 0
    [.sigusr1,.write true,.flushed]
    ⟨trivial,fun _ _ => ⟨trivial,fun _ _ => ⟨trivial,fun _ _ => trivial⟩⟩⟩ _ hrun ⟨rfl,.inl rfl⟩
  rcases hcases with ⟨_,hcompleted | ⟨d₁,hstep₁,hcompleted | ⟨d₂,hstep₂,hcompleted | ⟨d₃,hstep₃,hcompleted⟩⟩⟩⟩ | ⟨rfl,_⟩
  · exact absurd (hwaiting.symm.trans hcompleted) (by simp)
  · obtain rfl := Except.ok.inj (hcalled.symm.trans hstep₁)
    exact absurd (hwaiting.symm.trans hcompleted) (by simp)
  · obtain rfl := Except.ok.inj (hcalled.symm.trans hstep₁)
    obtain rfl := Except.ok.inj (hwrite.symm.trans hstep₂)
    exact SwitchState.noConfusion hcompleted
  · obtain rfl := Except.ok.inj (hcalled.symm.trans hstep₁)
    obtain rfl := Except.ok.inj (hwrite.symm.trans hstep₂)
    obtain rfl := Except.ok.inj (hflushed.symm.trans hstep₃)
    exact SwitchState.noConfusion hcompleted
  · exact ⟨info,_,hinfo,hrun,htag⟩

-- An error message of the type OFPET_HELLO_FAILED.
def helloFailedMessage : Bytes := [1,1,0,12,0,0,0,1,0,0,0,0]

-- The loop ends on an error message before the handshake is complete, and nobody is told.
theorem end_not_notified : ∃ info fuel d,
    (initSwitchInfo notifyingOptions).switchEventConnected = .ok ⟨0,info⟩ ∧
    (Daemon.started info).run (fun _ => 0) fuel [.read (.data helloFailedMessage) quietSurroundings] = .ok d ∧
    d.Ended ∧ ∀ tag, tag = .disconnected ∨ tag = .faildToConnect → ¬ Notified [[97]] tag d.info.outputs := by
  obtain ⟨info,hinfo,hstate,_⟩ := Daemon.connected_ok notifyingOptions
  have halive := Daemon.started_alive hinfo
  have hopen : info.sending = true := halive.sending
  have hvalid : Accepts helloFailedMessage := ⟨by simp,1,by decide +kernel⟩
  have htype : OfpType.ofCode (hostByte helloFailedMessage 1) = some .error := by decide
  obtain ⟨received,receiver,_,_,hread⟩ := Daemon.read_accepted (fun _ => 0) quietSurroundings
    (Daemon.started_reads hinfo) (List.nil_append _) hvalid
  have hearly : ({ info with receiver := received } : SwitchInfo).ofpmsgRecvError helloFailedMessage =
      .ok ⟨-1,{ info with receiver := received }⟩ :=
    SwitchInfo.ofpmsgRecvError_early (headed_of_type hvalid htype) (by simp [hstate])
  obtain ⟨_,fuel,hrecv⟩ := (SwitchInfo.ofpmsgRecv_accepted hvalid htype quietSurroundings _).mpr
    (yields_ok hearly)
  have hrun : (Daemon.started info).run (fun _ => 0) fuel
      [.read (.data helloFailedMessage) quietSurroundings] = .ok ((Daemon.started info).withInfo
        { info with receiver := receiver, stopped := true }) := by
    simp only [Daemon.run,Daemon.step]
    rw [if_pos (show (Daemon.started info).info.sending = true from hopen),hread]
    simp only at hrecv
    simp only [Daemon.started,hrecv]
    rfl
  refine ⟨info,fuel,_,hinfo,hrun,⟨rfl,.inl rfl⟩,?_⟩
  rintro tag htag ⟨before,datapathId,after,houtputs,_⟩
  refine halive.quiet (.toService [97] tag datapathId none) ?_ htag
  have hsame : info.outputs = before ++ [.toService [97] tag datapathId none] ++ after := houtputs
  simp [Daemon.started,hsame]

end Trema.SwitchManager
