import Trema.SwitchManager.LateReplies
import Trema.SwitchManager.LiveFlows
import Trema.SwitchManager.Shutdown

namespace Trema.SwitchManager

open Library
open OpenFlow

-- The daemon's connection, the requests of the applications, the messages of the switch one after the other, and
-- the daemon's echo requests.
inductive TransactionEvent where
  | connected
  | request (datapathId : UInt64) (serviceName message : Bytes) (now : Int)
  | arrival (message : Bytes) (env : Surroundings)
  | echoInterval (clock : UInt64)
  | disconnected

-- What the applications have of an event. A request is given a transaction id, whether it goes out or not. A reply is
-- heeded unless its handler turns it away, and is the last unless it announces another part.
inductive Happening where
  | given (sentOut : Bool) (xid originalXid : UInt32) (serviceName : Bytes)
  | replied (xid : UInt32) (heeded last : Bool) (forwarded : List Output)
  | other
deriving DecidableEq, Repr

namespace SwitchInfo

instance : DecidablePred Delivers
  | .toService _ tag _ _ => inferInstanceAs (Decidable (tag = .message))
  | .toSwitch _ => inferInstanceAs (Decidable False)

def isReply (message : Bytes) : Bool :=
  match OfpType.ofCode (hostByte message 1) with
  | some t => decide (t ∈ replyTypes)
  | none => false

def isLast (message : Bytes) : Bool :=
  hostByte message 1 != OfpType.statsReply.code || be16 message 10 &&& ofpsfReplyMore == 0

variable (d d' : SwitchInfo)

def delivered : List Output := (d'.outputs.drop d.outputs.length).filter fun o => decide (Delivers o)

def handed : List Bytes := (d'.outputs.drop d.outputs.length).filterMap Output.toSwitch?

variable (fuel : Nat) (env : Surroundings) (message : Bytes)

def heedsType : OfpType → Bool
  | .error => decide (d.state = .completed ∧ ¬ Unnamed message)
  | .featuresReply => decide (d.state = .completed ∨
      d.state = .waitFeaturesReply ∧ env.unique = true ∧ env.switchListRequested = true)
  | t => decide (t ∈ replyTypes)

def heeds : Bool :=
  match validateOpenflowMessage fuel message, OfpType.ofCode (hostByte message 1) with
  | .ok (), some t => d.heedsType env message t
  | _, _ => false

def typeXids : OfpType → Nat
  | .hello => d.helloXids
  | .featuresReply => d.featuresXids env
  | _ => 0

-- The transaction ids that the handler of a message generates.
def arrivalXids : Nat :=
  match validateOpenflowMessage fuel message, OfpType.ofCode (hostByte message 1) with
  | .ok (), some t => d.typeXids env t
  | .error (.rejected _), _ => 1
  | _, _ => 0

def requestXids (datapathId : UInt64) : Nat :=
  match validateOpenflowMessage fuel message with
  | .ok () => if datapathId ≠ d.datapathId then 0 else 1
  | .error _ => 0

end SwitchInfo

namespace Daemon

variable (fuel : Nat) (d : Daemon)

def transact : TransactionEvent → Exec Daemon
  | .connected => do
    let outcome ← d.info.switchEventConnected
    pure (d.withInfo outcome.info)
  | .request datapathId serviceName message now => do
    let info ← d.info.handleOpenflowMessage fuel datapathId serviceName message now
    pure { d with info := info }
  | .arrival message env =>
    if d.info.sending then do
      let outcome ← d.info.ofpmsgRecv fuel env message
      pure (d.withInfo outcome.info)
    else pure d
  | .echoInterval clock => d.echoRequestInterval clock
  | .disconnected => pure d.switchEventDisconnected

-- The transaction ids that generate_xid returns in an event.
def transactXids : TransactionEvent → Nat
  | .connected => 1
  | .request datapathId _ message _ => d.info.requestXids fuel message datapathId
  | .arrival message env => if d.info.sending then d.info.arrivalXids fuel env message else 0
  | .echoInterval _ => 1
  | .disconnected => 0

def happening (d' : Daemon) : TransactionEvent → Happening
  | .request datapathId serviceName message _ =>
    match d.info.handed d'.info with
    | sent :: _ => .given true (be32 sent 4) (be32 message 4) serviceName
    | [] =>
      if d.info.requestXids fuel message datapathId = 0 then .other
      else .given false d'.info.transactionId (be32 message 4) serviceName
  | .arrival message env =>
    if d.info.sending && SwitchInfo.isReply message then
      .replied (be32 message 4) (d.info.heeds fuel env message) (SwitchInfo.isLast message)
        (d.info.delivered d'.info)
    else .other
  | _ => .other

def transactAll (d : Daemon) : List TransactionEvent → Exec Daemon
  | [] => pure d
  | event :: events => do
    let d ← d.transact fuel event
    transactAll d events

-- A run goes on as long as the handlers return.
def transcript (d : Daemon) : List TransactionEvent → List Happening
  | [] => []
  | event :: events =>
    match d.transact fuel event with
    | .ok d' => d.happening fuel d' event :: transcript d' events
    | .error _ => []

def generatedXids (d : Daemon) : List TransactionEvent → Nat
  | [] => 0
  | event :: events =>
    d.transactXids fuel event +
      match d.transact fuel event with
      | .ok d' => generatedXids d' events
      | .error _ => 0

end Daemon

end Trema.SwitchManager
