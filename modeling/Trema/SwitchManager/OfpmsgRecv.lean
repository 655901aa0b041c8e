import Trema.OpenFlow.ApplicationInterface
import Trema.OpenFlow.ErrorMaps
import Trema.SwitchManager.SwitchInfo

namespace Trema.SwitchManager

open Library
open OpenFlow

namespace SwitchInfo

variable (d : SwitchInfo)

section Events

def denyOnStartup : Exec Outcome :=
  if d.denyPacketInOnStartup then d.ofpmsgSendDenyAll else pure ⟨0,d⟩

def switchEventRecvHello : Exec Outcome :=
  if d.state = .waitHello then do
    let denied ← (d.switchUnsetTimeout .timeoutHello).denyOnStartup
    if denied.ret < 0 then pure denied
    else
      let asked ← denied.info.ofpmsgSendFeaturesrequest
      if asked.ret < 0 then pure asked
      else
        pure ⟨0,switchSetTimeout { asked.info with state := .waitFeaturesReply } .timeoutFeaturesReply⟩
  else pure ⟨0,d⟩

def echoBodyLength : Nat := 16

-- The round-trip time is only reported.
def switchEventRecvEchoreply (message : Bytes) : Exec Outcome :=
  if message.length ≠ 8 + echoBodyLength then pure ⟨0,d⟩
  else do
    let xid ← net32 message 4
    if xid ≠ d.echoRequestXid then pure ⟨0,d⟩
    else
      let datapathId ← net64 message 8
      if datapathId ≠ d.datapathId then pure ⟨0,d⟩
      else pure ⟨0,d.switchUnsetTimeout .echoReplyTimeout⟩

-- "switch_manager"
def switchManagerName : Bytes := [115,119,105,116,99,104,95,109,97,110,97,103,101,114]

def notifyReadyToSwitchManager : SwitchInfo := d.serviceSendToApplication [switchManagerName] .ready none

def resetSwitch : Exec Outcome := do
  let configured ← d.ofpmsgSendSetconfig
  if configured.ret < 0 then pure configured
  else if configured.info.flowCleanup then configured.info.ofpmsgSendDeleteAllFlows
  else pure ⟨0,configured.info⟩

def switchEventRecvFeaturesreply (env : Surroundings) (datapathId : UInt64) : Exec Outcome :=
  match d.state with
  | .waitFeaturesReply => do
    let d := { d with datapathId := datapathId, state := .completed }.switchUnsetTimeout
      .timeoutFeaturesReply
    if env.unique = false then pure ⟨-1,d⟩
    else
      let reset ← d.resetSwitch
      if reset.ret < 0 then pure reset
      else
        let d := reset.info.notifyReadyToSwitchManager
        pure ⟨if env.switchListRequested then 0 else -1,d⟩
  | .completed => pure ⟨0,d⟩
  | _ => pure ⟨-1,d⟩

def switchEventRecvError : Int := if d.state = .completed then 0 else -1

end Events

section Replies

def sendTransactionReply (message : Bytes) : Exec Outcome := do
  let xid ← net32 message 4
  match d.xidTable.lookupXidEntry xid with
  | none => pure ⟨-1,d⟩
  | some entry =>
    let message ← store message 4 (toNet32 entry.originalXid)
    let d := d.serviceSendToReply entry.serviceName .message (some message)
    pure ⟨0,{ d with xidTable := d.xidTable.deleteXidEntry entry }⟩

-- The handlers that do not look at what send_transaction_reply returns.
def answer (message : Bytes) : Exec Outcome := do
  let sent ← d.sendTransactionReply message
  pure ⟨0,sent.info⟩

def ofpmsgRecvHello : Exec Outcome := d.switchEventRecvHello

def deleteCookieEntry (id : EntryId) : Exec SwitchInfo := do
  let cookieTable ← freed (d.cookieTable.deleteCookieEntry id)
  pure { d with cookieTable := cookieTable }

-- The flow_mod in the error stands at offset 12.
def quotedFlowMod : Nat := 12

def restoreXid (message : Bytes) : Exec Bytes := do
  let xid ← net32 message (quotedFlowMod + 4)
  match d.xidTable.lookupXidEntry xid with
  | some entry => store message (quotedFlowMod + 4) (toNet32 entry.originalXid)
  | none => pure message

def restoreCookie (message : Bytes) (length : Nat) (entry : CookieEntry) : Exec Bytes := do
  let message ← writeCookie message quotedFlowMod entry.application.cookie
  if 72 ≤ length then writeFlags message quotedFlowMod entry.application.flags else pure message

def withdrawCookie (message : Bytes) (length : Nat) (found : Option EntryId) : Exec SwitchInfo :=
  if 58 ≤ length then do
    let command ← net16 message (quotedFlowMod + 56)
    if FlowModCommand.ofCode command = some .add then
      match found with
      | some id => d.deleteCookieEntry id
      | none => pure d
    else pure d
  else pure d

def restoreFlowMod (message : Bytes) (length : Nat) (cookie : UInt64) : Exec (Bytes × SwitchInfo) := do
  let found := d.cookieTable.lookupCookieEntryByCookie cookie
  let message ← match found with
    | some id => do
      let entry ← d.foundEntry id
      restoreCookie message length entry
    | none => pure message
  let d ← d.withdrawCookie message length found
  pure (message,d)

-- `none` is an error that goes no further.
def recvFlowModFailed (message : Bytes) (length : Nat) : Exec (Option (Bytes × SwitchInfo)) :=
  if length < 56 then pure (some (message,d))
  else do
    let message ← d.restoreXid message
    let cookie ← net64 message (quotedFlowMod + 48)
    if cookie = reservedCookie then pure none
    else if d.cookieTranslation then
      let restored ← d.restoreFlowMod message length cookie
      pure (some restored)
    else pure (some (message,d))

def ofpmsgRecvError (message : Bytes) : Exec Outcome := do
  let type ← net16 message 8
  if d.switchEventRecvError < 0 then pure ⟨d.switchEventRecvError,d⟩
  else if type = ofpetFlowModFailed then
    let headerLength ← net16 message 2
    let received ← d.recvFlowModFailed message (subSize headerLength.toNat quotedFlowMod)
    match received with
    | some received => received.2.answer received.1
    | none => pure ⟨0,d⟩
  else d.answer message

def ofpmsgRecvEchorequest (message : Bytes) : Exec Outcome := do
  let body ← removeFrontBuffer message 8
  let xid ← net32 message 4
  d.ofpmsgSendEchoreply xid body

def ofpmsgRecvEchoreply (message : Bytes) : Exec Outcome := do
  let received ← d.switchEventRecvEchoreply message
  if received.ret < 0 then pure received else received.info.answer message

def forward (services : List Bytes) (message : Bytes) : Outcome :=
  ⟨0,d.serviceSendToApplication services .message (some message)⟩

def ofpmsgRecvVendor (message : Bytes) : Outcome := d.forward d.vendorServices message

def ofpmsgRecvFeaturesreply (env : Surroundings) (message : Bytes) : Exec Outcome := do
  let datapathId ← net64 message 8
  let received ← d.switchEventRecvFeaturesreply env datapathId
  if received.ret < 0 then pure received else received.info.answer message

def ofpmsgRecvGetconfigreply (message : Bytes) : Exec Outcome := d.answer message

def ofpmsgRecvPacketin (message : Bytes) : Outcome := d.forward d.packetinServices message

def deliverFlowRemoved (message : Bytes) (entry : CookieEntry) : Exec SwitchInfo :=
  if entry.application.flags &&& ofpffSendFlowRem ≠ 0 then do
    let message ← store message 48 (toNet64 entry.application.cookie)
    pure (d.serviceSendToReply entry.application.serviceName .message (some message))
  else pure d

def ofpmsgRecvFlowremoved (message : Bytes) : Exec Outcome := do
  let cookie ← net64 message 48
  if cookie = reservedCookie then pure ⟨0,d⟩
  else if d.cookieTranslation = false then pure (d.forward d.stateServices message)
  else
    match d.cookieTable.lookupCookieEntryByCookie cookie with
    | none => pure ⟨0,d⟩
    | some id =>
      let entry ← d.foundEntry id
      let delivered ← d.deliverFlowRemoved message entry
      let deleted ← delivered.deleteCookieEntry id
      pure ⟨0,deleted⟩

def ofpmsgRecvPortstatus (message : Bytes) : Outcome := d.forward d.portstatusServices message

def applicationCookie (cookie : UInt64) : Option UInt64 :=
  (d.cookieTable.lookupCookieEntryByCookie cookie).bind fun id =>
    (d.cookieTable.heap id).map fun entry => entry.application.cookie

-- Several replies may come for one request.
def ofpmsgRecvStatsreply (fuel : Nat) (message : Bytes) : Exec Outcome := do
  let message ← OpenFlow.ofpmsgRecvStatsreply d.applicationCookie d.cookieTranslation fuel message
  let xid ← net32 message 4
  match d.xidTable.lookupXidEntry xid with
  | none => pure ⟨-1,d⟩
  | some entry =>
    let message ← store message 4 (toNet32 entry.originalXid)
    let d := d.serviceSendToReply entry.serviceName .message (some message)
    let flags ← net16 message 10
    if flags &&& ofpsfReplyMore = 0 then
      pure ⟨0,{ d with xidTable := d.xidTable.deleteXidEntry entry }⟩
    else pure ⟨0,d⟩

def ofpmsgRecvBarrierreply (message : Bytes) : Exec Outcome := d.answer message

def ofpmsgRecvQueueGetconfigreply (message : Bytes) : Exec Outcome := d.answer message

def rejectMessage (message : Bytes) (error : ValidationError) : Exec Outcome := do
  let type ← byteAt message 1
  let code := getErrorTypeAndCode type error badType
  let sent ← d.ofpmsgSendErrorMsg code.type code.code message
  pure ⟨-1,sent.info⟩

def dispatchMessage (fuel : Nat) (env : Surroundings) (message : Bytes) : OfpType → Exec Outcome
  | .hello => d.ofpmsgRecvHello
  | .error => d.ofpmsgRecvError message
  | .echoRequest => d.ofpmsgRecvEchorequest message
  | .echoReply => d.ofpmsgRecvEchoreply message
  | .vendor => pure (d.ofpmsgRecvVendor message)
  | .featuresReply => d.ofpmsgRecvFeaturesreply env message
  | .getConfigReply => d.ofpmsgRecvGetconfigreply message
  | .packetIn => pure (d.ofpmsgRecvPacketin message)
  | .flowRemoved => d.ofpmsgRecvFlowremoved message
  | .portStatus => pure (d.ofpmsgRecvPortstatus message)
  | .statsReply => d.ofpmsgRecvStatsreply fuel message
  | .barrierReply => d.ofpmsgRecvBarrierreply message
  | .queueGetConfigReply => d.ofpmsgRecvQueueGetconfigreply message
  | _ => .error .aborted

def ofpmsgRecv (fuel : Nat) (env : Surroundings) (message : Bytes) : Exec Outcome :=
  match validateOpenflowMessage fuel message with
  | .error (.rejected error) => d.rejectMessage message error
  | .error stop => .error stop
  | .ok () => do
    let type ← byteAt message 1
    match OfpType.ofCode type with
    | some t => d.dispatchMessage fuel env message t
    | none => .error .aborted

end Replies

end SwitchInfo

end Trema.SwitchManager
