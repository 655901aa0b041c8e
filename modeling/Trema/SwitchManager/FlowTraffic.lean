import Trema.SwitchManager.OfpmsgRecv

namespace Trema.SwitchManager

open Library
open OpenFlow

-- How a switch compares a flow_mod with the one that installed a flow: whether an ADD takes its place, and whether
-- a MODIFY or a DELETE selects it.
structure FlowMatching where
  replaces : Bytes → Bytes → Bool
  selects : Bytes → Bytes → Bool

-- A flow_mod as the application sent it and as the switch gets it, and the flow that it installs. `known` says that the
-- cookie table had its cookie when it was sent.
structure Flow where
  serviceName : Bytes
  request : Bytes
  message : Bytes
  known : Bool
deriving DecidableEq, Repr

namespace Flow

variable (f : Flow)

def cookie : UInt64 := be64 f.message 48

def command : Option FlowModCommand := FlowModCommand.ofCode (be16 f.message 56)

-- The application asked for the flow_removed.
def Flagged : Prop := be16 f.request 70 &&& ofpffSendFlowRem ≠ 0

instance : Decidable f.Flagged := inferInstanceAs (Decidable (_ ≠ _))

-- The switch sends a flow_removed when the flow is gone.
def reported : Bool := be16 f.message 70 &&& ofpffSendFlowRem != 0

-- The daemon has counted a reference for the flow_mod.
def counted : Bool :=
  match f.command with
  | some .add => true
  | some .modify | some .modifyStrict => !f.known
  | _ => false

end Flow

namespace FlowMatching

variable (m : FlowMatching) (flows : List Flow)

def selected (f : Flow) : List Flow := flows.filter fun g => m.selects f.message g.message

-- The flows that there are once the switch has taken a flow_mod, and those that it reports removed. A MODIFY changes
-- only the actions of the flows that it selects, and installs one where it selects none.
def apply (f : Flow) : List Flow × List Flow :=
  match f.command with
  | some .add => (f :: flows.filter fun g => !m.replaces f.message g.message,[])
  | some .modify | some .modifyStrict =>
    if m.selected flows f = [] then (f :: flows,[]) else (flows,[])
  | some .delete | some .deleteStrict =>
    (flows.filter fun g => !m.selects f.message g.message,(m.selected flows f).filter Flow.reported)
  | none => (flows,[])

end FlowMatching

def Output.toSwitch? : Output → Option Bytes
  | .toSwitch message => some message
  | .toService _ _ _ _ => none

-- The daemon, the flow_mods on their way to the switch, its flows, and the flow_removed messages on their way back.
structure FlowSystem where
  daemon : SwitchInfo
  sent : List Flow
  flows : List Flow
  removed : List Flow

inductive FlowEvent where
  | send (serviceName message : Bytes) (now : Int)
  | apply
  | expire (index : Nat)
  | deliver (message : Bytes) (env : Surroundings)

namespace FlowSystem

variable (matching : FlowMatching) (fuel : Nat) (s : FlowSystem)

def send (serviceName message : Bytes) (now : Int) : Exec FlowSystem := do
  let daemon ← s.daemon.handleOpenflowMessage fuel s.daemon.datapathId serviceName message now
  let known := (s.daemon.cookieTable.lookupCookieEntryByApplication (be64 message 48) serviceName).isSome
  let handed := (daemon.outputs.drop s.daemon.outputs.length).filterMap Output.toSwitch?
  pure { s with daemon := daemon, sent := s.sent ++ handed.map fun m => ⟨serviceName,message,m,known⟩ }

def apply : FlowSystem :=
  match s.sent with
  | [] => s
  | f :: sent =>
    let applied := matching.apply s.flows f
    { s with sent := sent, flows := applied.1, removed := s.removed ++ applied.2 }

-- A flow that has timed out.
def expire (index : Nat) : FlowSystem :=
  { s with
    flows := s.flows.eraseIdx index
    removed := s.removed ++ (s.flows[index]?).toList.filter Flow.reported }

def deliver (message : Bytes) (env : Surroundings) : Exec FlowSystem :=
  match s.removed with
  | [] => pure s
  | f :: removed =>
    if hostByte message 1 = OfpType.flowRemoved.code ∧ be64 message 48 = f.cookie then do
      let outcome ← s.daemon.ofpmsgRecv fuel env message
      pure { s with daemon := outcome.info, removed := removed }
    else pure s

def step : FlowEvent → Exec FlowSystem
  | .send serviceName message now =>
    if hostByte message 1 = OfpType.flowMod.code then s.send fuel serviceName message now else pure s
  | .apply => pure (s.apply matching)
  | .expire index => pure (s.expire index)
  | .deliver message env => s.deliver fuel message env

def run : FlowSystem → List FlowEvent → Exec FlowSystem
  | s, [] => pure s
  | s, event :: events => do
    let s ← s.step matching fuel event
    run s events

end FlowSystem

end Trema.SwitchManager
