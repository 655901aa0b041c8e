import Trema.EventForward.Runs

namespace Trema.EventForward

open Library
open Management (managementRequestFailed)
open OpenFlow (Exec abortIf)
open PacketinFilter (CString)

-- The callback and user data of a transaction are those of the user's call that started it.
structure AllParam where
  call : Nat
  add : Bool
  type : EventType
  serviceName : CString
  callback : Bool
deriving DecidableEq

structure AllSwTx where
  txid : UInt32
  waitingDpid : List UInt64
  txResult : EfiResult
  requestParam : AllParam
deriving DecidableEq

structure TxInfo where
  address : Nat
  dpid : UInt64
  txid : UInt32
deriving DecidableEq

inductive UserData where
  | manager (param : AllParam)
  | switchList (param : AllParam)
  | switch (info : TxInfo)
deriving DecidableEq

inductive Target where
  | switchManager
  | switchDaemon (dpid : UInt64)
deriving DecidableEq

inductive SentRequest where
  | entry (target : Target) (command : EntryCommand) (type : EventType) (serviceName : CString)
  | switchList
deriving DecidableEq

-- The messenger's part: a request has a context, which its first reply or its age takes away.
structure Interface where
  calls : Nat := 0
  txid : UInt32 := 0
  requests : Nat := 0
  sent : List SentRequest := []
  contexts : List (Nat × UserData) := []
  efiTxTable : List AllSwTx := []
  timers : List TxInfo := []
  reports : List (Nat × EfiResult) := []

structure ManagementReply where
  status : UInt8
  result : UInt8
  dpids : List UInt64

namespace ManagementReply

variable (r : ManagementReply)

def operationResult : EfiResult :=
  if r.status = managementRequestFailed then .failed
  else if r.result = EfiResult.succeeded.code then .succeeded
  else .failed

-- The null pointer for a failed request.
def switchList : Option (List UInt64) :=
  if r.status = managementRequestFailed then none else some r.dpids

end ManagementReply

inductive Dispatch where
  | sendFailed
  | timerFailed
  | dispatched
deriving DecidableEq

def AllParam.command (param : AllParam) : EntryCommand := if param.add then .add else .delete

namespace Interface

variable (s : Interface)

def request (u : UserData) (message : SentRequest) : Interface :=
  { s with
    requests := s.requests + 1
    sent := s.sent ++ [message]
    contexts := s.contexts ++ [(s.requests,u)] }

def context (k : Nat) : Option UserData := (s.contexts.find? (·.1 = k)).map Prod.snd

def deleteContext (k : Nat) : Interface := { s with contexts := s.contexts.filter (·.1 ≠ k) }

def lookupTx (txid : UInt32) : Option AllSwTx := s.efiTxTable.find? (·.txid = txid)

def deleteTx (txid : UInt32) : Interface := { s with efiTxTable := s.efiTxTable.filter (·.txid ≠ txid) }

-- The table's entry is changed through its pointer, or is new.
def putTx (tx : AllSwTx) : Interface :=
  { s with efiTxTable := tx :: s.efiTxTable.filter (·.txid ≠ tx.txid) }

def timer (address : Nat) : Option TxInfo := s.timers.find? (·.address = address)

def deleteTimer (address : Nat) : Interface := { s with timers := s.timers.filter (·.address ≠ address) }

def addTimer (info : TxInfo) : Interface := { s with timers := s.timers ++ [info] }

def respond (param : AllParam) (result : EfiResult) : Interface :=
  if param.callback then { s with reports := s.reports ++ [(param.call,result)] } else s

def checkTxResultAndRespond (tx : AllSwTx) : Bool × Interface :=
  if tx.txResult = .failed then (true,(s.respond tx.requestParam tx.txResult).deleteTx tx.txid)
  else (false,s.putTx tx)

def switchResponseTimeout (info : TxInfo) : Interface :=
  match s.lookupTx info.txid with
  | none => s
  | some tx =>
    if info.dpid ∈ tx.waitingDpid then
      (s.checkTxResultAndRespond
        { tx with waitingDpid := tx.waitingDpid.erase info.dpid, txResult := .failed }).2
    else (s.checkTxResultAndRespond tx).2

def answeredTx (tx : AllSwTx) (result : EfiResult) (dpid : UInt64) : AllSwTx :=
  { tx with
    waitingDpid := tx.waitingDpid.erase dpid
    txResult := if result = .failed then .failed else tx.txResult }

def switchResponseHandler (result : EfiResult) (info : TxInfo) : Interface :=
  let s := s.deleteTimer info.address
  match s.lookupTx info.txid with
  | none => s
  | some tx =>
    if info.dpid ∈ tx.waitingDpid then
      let tx := answeredTx tx result info.dpid
      match s.checkTxResultAndRespond tx with
      | (true,s) => s
      | (false,s) =>
        if tx.waitingDpid = [] then (s.respond tx.requestParam tx.txResult).deleteTx tx.txid else s
    else s

def insertTx (param : AllParam) : Exec (AllSwTx × Interface) := do
  let txid := s.txid + 1
  abortIf (s.lookupTx txid ≠ none)
  let tx := ⟨txid,[],.succeeded,param⟩
  pure (tx,{ s with txid := txid }.putTx tx)

def dispatchOne (param : AllParam) (send : Dispatch) (dpid : UInt64) (tx : AllSwTx) : AllSwTx × Interface :=
  if dpid ∈ tx.waitingDpid then (tx,s)
  else
    let info := ⟨s.requests,dpid,tx.txid⟩
    let message := .entry (.switchDaemon dpid) param.command param.type param.serviceName
    match send with
    | .sendFailed => ({ tx with txResult := .failed },s)
    | .timerFailed => ({ tx with txResult := .failed },s.request (.switch info) message)
    | .dispatched =>
      ({ tx with waitingDpid := dpid :: tx.waitingDpid },(s.request (.switch info) message).addTimer info)

def dispatchAll (param : AllParam) (sends : Nat → Dispatch) : Nat → List UInt64 → AllSwTx → Interface →
    AllSwTx × Interface
  | _, [], tx, s => (tx,s)
  | i, dpid :: dpids, tx, s =>
    let next := s.dispatchOne param (sends i) dpid tx
    dispatchAll param sends (i + 1) dpids next.1 next.2

def dispatchToAllSwitch (dpids : List UInt64) (param : AllParam) (sends : Nat → Dispatch) : Exec Interface := do
  let (tx,s) ← s.insertTx param
  let (tx,s) := dispatchAll param sends 0 dpids tx s
  if dpids = [] ∨ tx.txResult = .failed then pure ((s.respond param tx.txResult).deleteTx tx.txid)
  else pure (s.putTx tx)

def getSwitchListAfterSwmSucc (result : EfiResult) (param : AllParam) (sendOk : Bool) : Interface :=
  if result = .succeeded ∧ sendOk = true then s.request (.switchList param) .switchList
  else s.respond param .failed

-- The reply's application id is that of the request, as the daemons echo it.
def handleEfiReply (u : UserData) (r : ManagementReply) (sendOk : Bool) (sends : Nat → Dispatch) : Exec Interface :=
  match u with
  | .manager param => pure (s.getSwitchListAfterSwmSucc r.operationResult param sendOk)
  | .switchList param => s.dispatchToAllSwitch (r.switchList.getD []) param sends
  | .switch info => pure (s.switchResponseHandler r.operationResult info)

end Interface

inductive Event where
  | start (add : Bool) (type : EventType) (serviceName : CString) (callback sendOk : Bool)
  | reply (k : Nat) (r : ManagementReply) (sendOk : Bool) (sends : Nat → Dispatch)
  | timeout (address : Nat)
  | expire (k : Nat)

namespace Interface

-- add_event_forward_entry_to_all_switches, or delete_...
def changeToAllSwitches (s : Interface) (param : AllParam) (sendOk : Bool) : Interface :=
  let s := { s with calls := s.calls + 1 }
  if sendOk then
    s.request (.manager param) (.entry .switchManager param.command param.type param.serviceName)
  else s

def step (s : Interface) : Event → Exec Interface
  | .start add type serviceName callback sendOk =>
    pure (s.changeToAllSwitches ⟨s.calls,add,type,serviceName,callback⟩ sendOk)
  | .reply k r sendOk sends =>
    match s.context k with
    | none => pure s
    | some u => (s.deleteContext k).handleEfiReply u r sendOk sends
  | .timeout address =>
    match s.timer address with
    | none => pure s
    | some info => pure ((s.deleteTimer address).switchResponseTimeout info)
  | .expire k => pure (s.deleteContext k)

end Interface

-- What the replies and timers of a run say, by call and transaction.
inductive Happening where
  | managed (call : Nat) (result : EfiResult)
  | listed (call : Nat) (txid : UInt32) (dpids : Option (List UInt64))
  | answered (txid : UInt32) (dpid : UInt64) (result : EfiResult)
  | timedOut (txid : UInt32) (dpid : UInt64)
deriving DecidableEq

def happenings (s : Interface) : Event → List Happening
  | .reply k r _ _ =>
    match s.context k with
    | some (.manager param) => [.managed param.call r.operationResult]
    | some (.switchList param) => [.listed param.call (s.txid + 1) r.switchList]
    | some (.switch info) => [.answered info.txid info.dpid r.operationResult]
    | none => []
  | .timeout address =>
    match s.timer address with
    | some info => [.timedOut info.txid info.dpid]
    | none => []
  | _ => []

def runEvents : List Event → Interface → List Happening → Exec (Interface × List Happening)
  | [], s, log => pure (s,log)
  | e :: events, s, log => do
    let next ← s.step e
    runEvents events next (log ++ happenings s e)

def Event.isStart : Event → Bool
  | .start .. => true
  | _ => false

end Trema.EventForward
