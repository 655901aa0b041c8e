import Trema.SecureChannel.Sessions
import Trema.SwitchManager.OfpmsgRecv

namespace Trema.SwitchManager

open Library
open OpenFlow
open SecureChannel

inductive ExternalCallback where
  | stopSwitchDaemon
  | doRestartLog
  | dumpStats
deriving DecidableEq, Repr

-- `flushing` counts the calls of flush_messenger that have not returned; they run the event handler themselves.
-- `listRequested` says that an answer to a switch list request is awaited, and `failed` that select() failed.
structure Daemon where
  info : SwitchInfo
  flushing : Nat
  listRequested : Bool
  externalCallback : Option ExternalCallback
  failed : Bool

namespace SwitchInfo

variable (d : SwitchInfo)

def switchEventConnected : Exec Outcome := do
  let greeted ← (d.serviceSendState .connected).ofpmsgSendHello
  if greeted.ret < 0 then pure greeted
  else pure ⟨0,switchSetTimeout { greeted.info with state := .waitHello } .timeoutHello⟩

def terminalTag : MessageTag := if d.state = .completed then .disconnected else .faildToConnect

-- switch_event_disconnected up to its call of flush_messenger.
def closeChannel : SwitchInfo :=
  serviceSendState
    { d with
      state := .disconnected
      timers := if d.state = .completed then d.timers.erase .echoRequestInterval else d.timers
      receiver := Receiver.init
      sending := false } d.terminalTag

-- switch_event_disconnected from there on.
def releaseServices : SwitchInfo :=
  { d with
    vendorServices := []
    packetinServices := []
    portstatusServices := []
    stateServices := []
    stopped := true }

def countError (errors : Nat) (outcome : Outcome) : Nat × SwitchInfo :=
  (if outcome.ret < 0 then errors + 1 else errors,outcome.info)

def handleQueued (fuel : Nat) (env : Surroundings) (message : Buffer) (s : Nat × SwitchInfo) :
    Exec (Nat × SwitchInfo) := do
  let handled ← s.2.ofpmsgRecv fuel env message.bytes
  pure (countError s.1 handled)

def handleMessagesFromSecureChannel (fuel : Nat) (env : Surroundings) : Exec Outcome := do
  let queue := d.receiver.recvQueue
  let drained ← drainQueue (handleQueued fuel env) queue.elements.length queue (0,d)
  pure ⟨if drained.2.1 = 0 then 0 else -1,
    { drained.2.2 with receiver := { d.receiver with recvQueue := drained.1 } }⟩

def handleReceived (fuel : Nat) (env : Surroundings) : Exec SwitchInfo :=
  if 0 < d.receiver.recvQueue.length then do
    let handled ← d.handleMessagesFromSecureChannel fuel env
    pure (if handled.ret < 0 then { handled.info with stopped := true } else handled.info)
  else pure d

-- An error message with what is left of the stream answers a version that is refused.
def refuseVersion : Exec SwitchInfo := do
  let sent ← d.ofpmsgSendErrorMsg badVersion.type badVersion.code d.receiver.kept
  pure sent.info

-- The body of an echo request: the datapath id and the time.
def echoBody (clock : UInt64) : Bytes := toNet64 d.datapathId ++ toNet64 clock

end SwitchInfo

namespace Daemon

variable (d : Daemon)

def switchEventDisconnected : Daemon := { d with info := d.info.closeChannel, flushing := d.flushing + 1 }

def flushed : Daemon := { d with info := d.info.releaseServices, flushing := d.flushing - 1 }

-- The switch list is asked for when the handshake completes.
def withInfo (info : SwitchInfo) : Daemon :=
  { d with
    info := info
    listRequested := d.listRequested || (d.info.state != .completed && info.state == .completed) }

def secureChannelRead (heap : Nat → UInt8) (fuel : Nat) (env : Surroundings) (read : ReadResult) :
    Exec Daemon := do
  let received ← recvFromSecureChannel heap validMessageVersion d.info.receiver read
  let info := { d.info with receiver := received.2 }
  if received.1 = .done then do
    let info ← info.handleReceived fuel env
    pure (d.withInfo info)
  else if received.1 = .badVersion then do
    let info ← info.refuseVersion
    pure (switchEventDisconnected { d with info := info })
  else pure (switchEventDisconnected { d with info := info })

def secureChannelWrite (failed : Bool) : Daemon := if failed then d.switchEventDisconnected else d

def switchEventTimeoutHello : Daemon :=
  if d.info.state = .waitHello then
    switchEventDisconnected { d with info := { d.info with runningTimer := false } }
  else d

def switchEventTimeoutFeaturesReply : Daemon :=
  if d.info.state = .waitFeaturesReply then
    switchEventDisconnected { d with info := { d.info with runningTimer := false } }
  else d

def echoReplyTimeout : Daemon := d.switchEventDisconnected

def echoRequestInterval (clock : UInt64) : Exec Daemon := do
  let info := { d.info.withXid with echoRequestXid := d.info.generatedXid }
  let sent ← info.ofpmsgSendEchorequest info.echoRequestXid (info.echoBody clock)
  if sent.ret < 0 then pure (switchEventDisconnected { d with info := sent.info })
  else pure { d with info := sent.info.switchSetTimeout .echoReplyTimeout }

def onTimer (clock : UInt64) : TimerCallback → Exec Daemon
  | .timeoutHello => pure d.switchEventTimeoutHello
  | .timeoutFeaturesReply => pure d.switchEventTimeoutFeaturesReply
  | .echoReplyTimeout => pure d.echoReplyTimeout
  | .echoRequestInterval => d.echoRequestInterval clock

-- The timers other than the periodic one are gone once they have run.
def withoutTimer (callback : TimerCallback) : Daemon :=
  if callback = .echoRequestInterval then d
  else { d with info := { d.info with timers := d.info.timers.erase callback } }

def notifyStateToControllers : SwitchInfo :=
  let info := d.info.serviceSendState .ready
  { info with timers := info.timers ++ [.echoRequestInterval] }

def confirmSelfDpidIsRegisterd (dpids : List UInt64) : Daemon :=
  if d.info.datapathId ∈ dpids then { d with info := d.notifyStateToControllers, listRequested := false }
  else d

def switchEventDisconnectRequest (datapathId : UInt64) : Daemon :=
  if datapathId ≠ d.info.datapathId then d else d.switchEventDisconnected

def setExternalCallback (callback : ExternalCallback) : Option Daemon :=
  if d.externalCallback.isSome then none else some { d with externalCallback := some callback }

def stopTrema : Daemon := { d with info := { d.info with stopped := true } }

def handleSigterm : Daemon := (d.setExternalCallback .stopSwitchDaemon).getD d.stopTrema

def setDoRestartLogAsExternalCallback : Daemon := (d.setExternalCallback .doRestartLog).getD d

def setDumpStatsAsExternalCallback : Daemon := (d.setExternalCallback .dumpStats).getD d

def runExternalCallback : Daemon :=
  match d.externalCallback with
  | none => d
  | some .doRestartLog => { d with externalCallback := none }
  | some .dumpStats => { d with externalCallback := none }
  | some .stopSwitchDaemon => switchEventDisconnected { d with externalCallback := none }

end Daemon

inductive DaemonEvent where
  | read (result : ReadResult) (env : Surroundings)
  | write (failed : Bool)
  | timer (callback : TimerCallback) (clock : UInt64)
  | openflowMessage (datapathId : UInt64) (serviceName message : Bytes) (now : Int)
  | disconnectRequest (datapathId : UInt64)
  | switchList (dpids : List UInt64)
  | sigterm
  | sighup
  | sigusr1
  | externalCallback
  | flushed
  | selectFailed

namespace Daemon

variable (heap : Nat → UInt8) (fuel : Nat) (d : Daemon)

-- What the event handler does with an event. The secure channel has a handler while it is open, and timers do not
-- run while the messenger is being flushed.
def step : DaemonEvent → Exec Daemon
  | .read result env => if d.info.sending then d.secureChannelRead heap fuel env result else pure d
  | .write failed => pure (if d.info.sending then d.secureChannelWrite failed else d)
  | .timer callback clock =>
    if d.flushing = 0 ∧ callback ∈ d.info.timers then (d.withoutTimer callback).onTimer clock callback
    else pure d
  | .openflowMessage datapathId serviceName message now => do
    let info ← d.info.handleOpenflowMessage fuel datapathId serviceName message now
    pure { d with info := info }
  | .disconnectRequest datapathId => pure (d.switchEventDisconnectRequest datapathId)
  | .switchList dpids => pure (if d.listRequested then d.confirmSelfDpidIsRegisterd dpids else d)
  | .sigterm => pure d.handleSigterm
  | .sighup => pure d.setDoRestartLogAsExternalCallback
  | .sigusr1 => pure d.setDumpStatsAsExternalCallback
  | .externalCallback => pure d.runExternalCallback
  | .flushed => pure (if 0 < d.flushing then Daemon.flushed d else d)
  | .selectFailed => pure (if d.flushing = 0 then { d with failed := true } else d)

def run (d : Daemon) : List DaemonEvent → Exec Daemon
  | [] => pure d
  | event :: events => do
    let d ← d.step heap fuel event
    run d events

-- The event handler has left its loop.
def Ended : Prop := d.flushing = 0 ∧ (d.info.stopped = true ∨ d.failed = true)

end Daemon

end Trema.SwitchManager
