import Trema.OpenFlow.Validate

namespace Trema.OpenFlow

open Library Layout

structure OpenflowActions where
  nActions : Nat
  list : List Bytes
deriving DecidableEq, Repr

inductive SwitchEvent where
  | hello (transactionId : UInt32) (version : UInt8)
  | error (transactionId : UInt32) (type code : UInt16) (body : Bytes)
  | echoRequest (transactionId : UInt32) (body : Option Bytes)
  | echoReply (transactionId : UInt32) (body : Option Bytes)
  | vendor (transactionId vendor : UInt32) (body : Option Bytes)
  | featuresRequest (transactionId : UInt32)
  | getConfigRequest (transactionId : UInt32)
  | setConfig (transactionId : UInt32) (flags missSendLen : UInt16)
  | packetOut (transactionId bufferId : UInt32) (inPort : UInt16)
      (actions : Option OpenflowActions) (frame : Option Bytes)
  | flowMod (transactionId : UInt32) (mtch : OfpMatch) (cookie : UInt64)
      (command idleTimeout hardTimeout priority : UInt16) (bufferId : UInt32)
      (outPort flags : UInt16) (actions : Option OpenflowActions)
  | portMod (transactionId : UInt32) (portNo : UInt16) (hwAddr : Mac)
      (config mask advertise : UInt32)
  | statsRequest (transactionId : UInt32) (type flags : UInt16) (body : Option Bytes)
  | barrierRequest (transactionId : UInt32)
  | queueGetConfigRequest (transactionId : UInt32) (port : UInt16)
deriving DecidableEq, Repr

abbrev Handlers := OfpType → Bool

def Handlers.call (handlers : Handlers) (type : OfpType) (event : SwitchEvent) :
    Exec (List SwitchEvent) := .ok (if handlers type then [event] else [])

def removeFrontBuffer (b : Bytes) (length : Nat) : Exec Bytes := do
  abortIf (b.length < length)
  pure (b.drop length)

def bodyAfter (message : Bytes) (headerLength bodyLength : Nat) : Exec (Option Bytes) :=
  if 0 < bodyLength then do
    let body ← removeFrontBuffer message headerLength
    pure (some body)
  else
    pure none

def handleHello (handlers : Handlers) (message : Bytes) : Exec (List SwitchEvent) := do
  let transactionId ← net32 message 4
  let version ← byteAt message 0
  handlers.call .hello (.hello transactionId version)

def handleError (handlers : Handlers) (message : Bytes) : Exec (List SwitchEvent) := do
  let transactionId ← net32 message 4
  let type ← net16 message 8
  let code ← net16 message 10
  let body ← removeFrontBuffer message 12
  handlers.call .error (.error transactionId type code body)

def handleEcho (type : OfpType) (event : UInt32 → Option Bytes → SwitchEvent)
    (handlers : Handlers) (message : Bytes) : Exec (List SwitchEvent) := do
  let transactionId ← net32 message 4
  let length ← net16 message 2
  if handlers type then
    let body ← bodyAfter message 8 (subSize length.toNat 8)
    handlers.call type (event transactionId body)
  else
    pure []

def handleEchoRequest : Handlers → Bytes → Exec (List SwitchEvent) :=
  handleEcho .echoRequest .echoRequest

def handleEchoReply : Handlers → Bytes → Exec (List SwitchEvent) :=
  handleEcho .echoReply .echoReply

def handleVendor (handlers : Handlers) (message : Bytes) : Exec (List SwitchEvent) := do
  let transactionId ← net32 message 4
  let vendor ← net32 message 8
  let length ← net16 message 2
  if handlers .vendor then
    let body ← bodyAfter message 12 (sub16 length.toNat 12)
    handlers.call .vendor (.vendor transactionId vendor body)
  else
    pure []

def handleBare (type : OfpType) (event : UInt32 → SwitchEvent) (handlers : Handlers)
    (message : Bytes) : Exec (List SwitchEvent) := do
  let transactionId ← net32 message 4
  handlers.call type (event transactionId)

def handleFeaturesRequest : Handlers → Bytes → Exec (List SwitchEvent) :=
  handleBare .featuresRequest .featuresRequest

def handleGetConfigRequest : Handlers → Bytes → Exec (List SwitchEvent) :=
  handleBare .getConfigRequest .getConfigRequest

def handleBarrierRequest : Handlers → Bytes → Exec (List SwitchEvent) :=
  handleBare .barrierRequest .barrierRequest

def handleSetConfig (handlers : Handlers) (message : Bytes) : Exec (List SwitchEvent) := do
  let transactionId ← net32 message 4
  let flags ← net16 message 8
  let missSendLen ← net16 message 10
  handlers.call .setConfig (.setConfig transactionId flags missSendLen)

structure ActionDecoding where
  remaining : Nat
  p : Nat
  message : Bytes
  actions : List Bytes
deriving DecidableEq, Repr

def decodeAction (s : ActionDecoding) : Exec ActionDecoding := do
  let cells ← ntohAction s.message s.p
  let message ← store s.message s.p cells
  let len ← Order.host.read16 message (s.p + 2)
  let action ← load message s.p len.toNat
  pure ⟨subSize s.remaining len.toNat,s.p + len.toNat,message,s.actions ++ [action]⟩

def decodeActions (fuel : Nat) (message : Bytes) (p length : Nat) : Exec ActionDecoding :=
  whileLoop (fun s => decide (0 < s.remaining)) decodeAction fuel ⟨length,p,message,[]⟩

def ActionDecoding.result (s : ActionDecoding) (length : Nat) : Option OpenflowActions :=
  if 0 < length then some ⟨s.actions.length,s.actions⟩ else none

def handlePacketOut (fuel : Nat) (handlers : Handlers) (message : Bytes) :
    Exec (List SwitchEvent) := do
  let transactionId ← net32 message 4
  let bufferId ← net32 message 8
  let inPort ← net16 message 12
  let actionsLen ← net16 message 14
  let decoded ← decodeActions fuel message 16 actionsLen.toNat
  let skipped ← net16 decoded.message 14
  let length ← net16 decoded.message 2
  let frameLength := subSize (subSize length.toNat 16) skipped.toNat
  let frame ← if 0 < frameLength then do
      let frame ← load decoded.message (16 + skipped.toNat) frameLength
      pure (some frame)
    else
      pure none
  handlers.call .packetOut
    (.packetOut transactionId bufferId inPort (decoded.result actionsLen.toNat) frame)

def handleFlowMod (fuel : Nat) (handlers : Handlers) (message : Bytes) :
    Exec (List SwitchEvent) := do
  let transactionId ← net32 message 4
  let mtch ← ntohMatch message 8
  let cookie ← net64 message 48
  let command ← net16 message 56
  let idleTimeout ← net16 message 58
  let hardTimeout ← net16 message 60
  let priority ← net16 message 62
  let bufferId ← net32 message 64
  let outPort ← net16 message 68
  let flags ← net16 message 70
  let length ← net16 message 2
  let actionsLength := subSize length.toNat 72
  let decoded ← decodeActions fuel message 72 actionsLength
  handlers.call .flowMod
    (.flowMod transactionId (OfpMatch.ofHost mtch) cookie command idleTimeout hardTimeout priority
      bufferId outPort flags (decoded.result actionsLength))

def handlePortMod (handlers : Handlers) (message : Bytes) : Exec (List SwitchEvent) := do
  let transactionId ← net32 message 4
  let portNo ← net16 message 8
  let hwAddr ← load message 10 6
  let config ← net32 message 16
  let mask ← net32 message 20
  let advertise ← net32 message 24
  handlers.call .portMod
    (.portMod transactionId portNo (Mac.ofBytes hwAddr 0) config mask advertise)

def convertInPlace (fs : List Field) (b : Bytes) (p : Nat) : Exec Bytes := do
  let cells ← convert fs b p
  store b p cells

def ntohStatsRequestBody (type : UInt16) (body : Bytes) : Exec Bytes :=
  match StatsType.ofCode type with
  | some .flow | some .aggregate => do
    let body ← convertInPlace matchFields body 0
    convertInPlace [.swap 2] body 42
  | some .port => convertInPlace [.swap 2] body 0
  | some .vendor => convertInPlace [.swap 4] body 0
  | _ => .ok body

def handleStatsRequest (handlers : Handlers) (message : Bytes) : Exec (List SwitchEvent) := do
  let transactionId ← net32 message 4
  let type ← net16 message 8
  let flags ← net16 message 10
  let length ← net16 message 2
  let bodyLength := subSize length.toNat 12
  let body ← if 0 < bodyLength then do
      let body ← load message 12 bodyLength
      let body ← ntohStatsRequestBody type body
      pure (some body)
    else
      pure none
  handlers.call .statsRequest (.statsRequest transactionId type flags body)

def handleQueueGetConfigRequest (handlers : Handlers) (message : Bytes) :
    Exec (List SwitchEvent) := do
  let transactionId ← net32 message 4
  let port ← net16 message 8
  handlers.call .queueGetConfigRequest (.queueGetConfigRequest transactionId port)

def handleByType (fuel : Nat) (handlers : Handlers) (message : Bytes) :
    OfpType → Option (Exec (List SwitchEvent))
  | .hello => some (handleHello handlers message)
  | .error => some (handleError handlers message)
  | .echoRequest => some (handleEchoRequest handlers message)
  | .echoReply => some (handleEchoReply handlers message)
  | .vendor => some (handleVendor handlers message)
  | .featuresRequest => some (handleFeaturesRequest handlers message)
  | .getConfigRequest => some (handleGetConfigRequest handlers message)
  | .setConfig => some (handleSetConfig handlers message)
  | .packetOut => some (handlePacketOut fuel handlers message)
  | .flowMod => some (handleFlowMod fuel handlers message)
  | .portMod => some (handlePortMod handlers message)
  | .statsRequest => some (handleStatsRequest handlers message)
  | .barrierRequest => some (handleBarrierRequest handlers message)
  | .queueGetConfigRequest => some (handleQueueGetConfigRequest handlers message)
  | _ => none

structure Handled where
  ret : Bool
  events : List SwitchEvent
deriving DecidableEq, Repr

def handleOpenflowMessage (fuel : Nat) (handlers : Handlers) (message : Bytes) : Exec Handled := do
  abortIf (message.length < 8)
  match validateOpenflowMessage fuel message with
  | .error (.rejected _) => pure ⟨false,[]⟩
  | .error stop => .error stop
  | .ok _ =>
    let type ← byteAt message 1
    match (OfpType.ofCode type).bind (handleByType fuel handlers message) with
    | none => pure ⟨false,[]⟩
    | some handle => do
      let events ← handle
      pure ⟨true,events⟩

end Trema.OpenFlow
