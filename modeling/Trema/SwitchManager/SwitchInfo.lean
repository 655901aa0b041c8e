import Trema.OpenFlow.Create
import Trema.SecureChannel.Receiver
import Trema.SwitchManager.CookieTable
import Trema.SwitchManager.XidGenerator

namespace Trema.SwitchManager

open Library
open OpenFlow
open SecureChannel

inductive SwitchState where
  | connected
  | waitHello
  | waitFeaturesReply
  | completed
  | disconnected
deriving DecidableEq, Repr

inductive TimerCallback where
  | timeoutHello
  | timeoutFeaturesReply
  | echoReplyTimeout
  | echoRequestInterval
deriving DecidableEq, Repr

inductive MessageTag where
  | message
  | connected
  | ready
  | disconnected
  | faildToConnect
deriving DecidableEq, Repr

inductive Output where
  | toSwitch (message : Bytes)
  | toService (serviceName : Bytes) (tag : MessageTag) (datapathId : UInt64) (data : Option Bytes)
deriving DecidableEq, Repr

-- The static variables of the daemon's modules are fields here too. `sending` says that there is a send
-- queue, and `outputs` lists what has been handed to it and to the messenger.
structure SwitchInfo where
  vendorServices : List Bytes
  packetinServices : List Bytes
  portstatusServices : List Bytes
  stateServices : List Bytes
  flowCleanup : Bool
  cookieTranslation : Bool
  denyPacketInOnStartup : Bool
  state : SwitchState
  datapathId : UInt64
  configFlags : UInt16
  missSendLen : UInt16
  sending : Bool
  receiver : Receiver
  runningTimer : Bool
  timers : List TimerCallback
  echoRequestXid : UInt32
  transactionId : UInt32
  xidTable : XidTable Bytes
  cookieTable : CookieTable
  stopped : Bool
  outputs : List Output

structure StartOptions where
  vendorServices : List Bytes
  packetinServices : List Bytes
  portstatusServices : List Bytes
  stateServices : List Bytes
  flowCleanup : Bool
  cookieTranslation : Bool
  denyPacketInOnStartup : Bool

def initSwitchInfo (options : StartOptions) : SwitchInfo where
  vendorServices := options.vendorServices
  packetinServices := options.packetinServices
  portstatusServices := options.portstatusServices
  stateServices := options.stateServices
  flowCleanup := options.flowCleanup
  cookieTranslation := options.cookieTranslation
  denyPacketInOnStartup := options.denyPacketInOnStartup
  state := .connected
  datapathId := 0
  configFlags := 0
  missSendLen := 65535
  sending := true
  receiver := ⟨createMessageQueue,none⟩
  runningTimer := false
  timers := []
  echoRequestXid := 0
  transactionId := 0
  xidTable := initXidTable
  cookieTable := initCookieTable
  stopped := false
  outputs := []

structure Outcome where
  ret : Int
  info : SwitchInfo

-- What the handlers learn from outside the daemon: whether a daemon of the same name is out of the way, whether
-- the switch list could be asked for, and the time.
structure Surroundings where
  unique : Bool
  switchListRequested : Bool
  now : Int

namespace SwitchInfo

variable (d : SwitchInfo)

def emit (output : Output) : SwitchInfo := { d with outputs := d.outputs ++ [output] }

def generatedXid : UInt32 := generateXid d.xidTable d.transactionId

def withXid : SwitchInfo := { d with transactionId := d.generatedXid }

def sendToSecureChannel (message : Bytes) : Exec Outcome := do
  abortIf (message.length = 0)
  if d.sending then pure ⟨0,d.emit (.toSwitch message)⟩ else pure ⟨-1,d⟩

def serviceSendToReply (serviceName : Bytes) (tag : MessageTag) (data : Option Bytes) : SwitchInfo :=
  d.emit (.toService serviceName tag d.datapathId data)

def serviceSendToApplication (services : List Bytes) (tag : MessageTag) (data : Option Bytes) :
    SwitchInfo :=
  { d with outputs := d.outputs ++ services.map fun name => .toService name tag d.datapathId data }

def serviceSendState (tag : MessageTag) : SwitchInfo := d.serviceSendToApplication d.stateServices tag none

def switchSetTimeout (callback : TimerCallback) : SwitchInfo :=
  { d with timers := d.timers ++ [callback], runningTimer := true }

def switchUnsetTimeout (callback : TimerCallback) : SwitchInfo :=
  if d.runningTimer then { d with runningTimer := false, timers := d.timers.erase callback } else d

end SwitchInfo

def ofpErrorMsgMaxData : Nat := 64

def ofpetFlowModFailed : UInt16 := 3

def ofpffSendFlowRem : UInt16 := 1

inductive FlowModCommand where
  | add
  | modify
  | modifyStrict
  | delete
  | deleteStrict
deriving DecidableEq, Repr

def FlowModCommand.code : FlowModCommand → UInt16
  | .add => 0
  | .modify => 1
  | .modifyStrict => 2
  | .delete => 3
  | .deleteStrict => 4

def FlowModCommand.ofCode (code : UInt16) : Option FlowModCommand :=
  [.add,.modify,.modifyStrict,.delete,.deleteStrict].find? fun c => c.code == code

namespace SwitchInfo

variable (d : SwitchInfo)

-- A message with a transaction id of the daemon's own.
def sendGenerated (create : UInt32 → Exec Bytes) : Exec Outcome := do
  let message ← create d.generatedXid
  d.withXid.sendToSecureChannel message

def ofpmsgSendHello : Exec Outcome := d.sendGenerated createHello

def ofpmsgSendFeaturesrequest : Exec Outcome := d.sendGenerated createFeaturesRequest

def ofpmsgSendSetconfig : Exec Outcome :=
  d.sendGenerated fun xid => createSetConfig xid d.configFlags d.missSendLen

def ofpmsgSendErrorMsg (type code : UInt16) (data : Bytes) : Exec Outcome :=
  d.sendGenerated fun xid => createError xid type code (some (data.take ofpErrorMsgMaxData))

def ofpmsgSendDeleteAllFlows : Exec Outcome :=
  d.sendGenerated fun xid => createFlowMod xid anyMatch reservedCookie FlowModCommand.delete.code 0 0 0
    OpenFlow.uint32Max ofppNone 0 none

def ofpmsgSendDenyAll : Exec Outcome :=
  d.sendGenerated fun xid => createFlowMod xid anyMatch reservedCookie FlowModCommand.add.code 0 10
    uint16Max OpenFlow.uint32Max ofppNone 0 none

def ofpmsgSendEchorequest (xid : UInt32) (body : Bytes) : Exec Outcome := do
  let message ← createEchoRequest xid (some body)
  d.sendToSecureChannel message

def ofpmsgSendEchoreply (xid : UInt32) (body : Bytes) : Exec Outcome := do
  let message ← createEchoReply xid (some body)
  d.sendToSecureChannel message

end SwitchInfo

section Cookies

-- The cookie and the flags of a flow_mod at an offset.
def writeCookie (message : Bytes) (p : Nat) (cookie : UInt64) : Exec Bytes := store message (p + 48) (toNet64 cookie)

def writeFlags (message : Bytes) (p : Nat) (flags : UInt16) : Exec Bytes := store message (p + 70) (toNet16 flags)

def translateFlowmod (message : Bytes) (cookie : UInt64) (flags : UInt16) : Exec Bytes := do
  let message ← writeCookie message 0 cookie
  writeFlags message 0 (flags ||| ofpffSendFlowRem)

-- An entry that has been freed is read as memory outside the bounds.
def freed {α : Type} : Option α → Exec α
  | some a => pure a
  | none => .error .outOfBounds

namespace SwitchInfo

variable (d : SwitchInfo)

def insertedCookie (cookie : UInt64) (serviceName : Bytes) (flags : UInt16) (now : Int) :
    Exec (UInt64 × CookieTable) := freed (d.cookieTable.insertCookieEntry cookie serviceName flags now)

def foundEntry (id : EntryId) : Exec CookieEntry := freed (d.cookieTable.heap id)

-- The cookie that stands for the application's on the switch, `none` where the command is unknown.
def globalCookie (command : Option FlowModCommand) (cookie : UInt64) (serviceName : Bytes) (flags : UInt16)
    (now : Int) : Exec (Option (UInt64 × CookieTable)) :=
  match command with
  | some .add => do
    let inserted ← d.insertedCookie cookie serviceName flags now
    pure (some inserted)
  | some .modify | some .modifyStrict =>
    match d.cookieTable.lookupCookieEntryByApplication cookie serviceName with
    | some id => do
      let entry ← d.foundEntry id
      pure (some (entry.cookie,d.cookieTable))
    | none => do
      let inserted ← d.insertedCookie cookie serviceName flags now
      pure (some inserted)
  | some .delete | some .deleteStrict =>
    match d.cookieTable.lookupCookieEntryByApplication cookie serviceName with
    | some id => do
      let entry ← d.foundEntry id
      pure (some (entry.cookie,d.cookieTable))
    | none => pure (some (reservedCookie,d.cookieTable))
  | none => pure none

def updateFlowmodCookie (message serviceName : Bytes) (now : Int) : Exec (Option (Bytes × CookieTable)) := do
  let command ← net16 message 56
  let flags ← net16 message 70
  let cookie ← net64 message 48
  let global ← d.globalCookie (FlowModCommand.ofCode command) cookie serviceName flags now
  match global with
  | some global =>
    let message ← translateFlowmod message global.1 flags
    pure (some (message,global.2))
  | none => pure none

-- insert_xid_entry generates the transaction id once it has made room for the entry.
def insertedXid : UInt32 := generateXid d.xidTable.emptyNextSlot d.transactionId

def insertXidEntry (xid : UInt32) (serviceName : Bytes) : SwitchInfo :=
  { d with
    xidTable := d.xidTable.insertXidEntry d.insertedXid xid serviceName
    transactionId := d.insertedXid }

def ofpmsgSend (message serviceName : Bytes) (now : Int) : Exec Outcome := do
  let xid ← net32 message 4
  let message ← store message 4 (toNet32 d.insertedXid)
  let d := d.insertXidEntry xid serviceName
  let type ← byteAt message 1
  if type = OfpType.flowMod.code ∧ d.cookieTranslation = true then
    let updated ← d.updateFlowmodCookie message serviceName now
    match updated with
    | some updated => sendToSecureChannel { d with cookieTable := updated.2 } updated.1
    | none => pure ⟨-1,d⟩
  else d.sendToSecureChannel message

def switchEventRecvFromApplication (datapathId : UInt64) (serviceName message : Bytes) (now : Int) :
    Exec Outcome :=
  if datapathId ≠ d.datapathId then pure ⟨-1,d⟩ else d.ofpmsgSend message serviceName now

def handleOpenflowMessage (fuel : Nat) (datapathId : UInt64) (serviceName message : Bytes) (now : Int) :
    Exec SwitchInfo :=
  match validateOpenflowMessage fuel message with
  | .ok () => do
    let outcome ← d.switchEventRecvFromApplication datapathId serviceName message now
    pure outcome.info
  | .error (.rejected _) => pure d
  | .error stop => .error stop

end SwitchInfo

end Cookies

end Trema.SwitchManager
