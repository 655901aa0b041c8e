import Trema.Management.Stat
import Trema.Startup.StandardOptions

namespace Trema.Management

open Library
open Startup (priorityValueFrom)

def messengerManagementRequest : UInt16 := 0x20
def messengerManagementReply : UInt16 := 0x21

def managementRequestSucceeded : UInt8 := 0
def managementRequestFailed : UInt8 := 1

def managementEchoRequest : UInt16 := 0
def managementEchoReply : UInt16 := 1
def managementSetLoggingLevelRequest : UInt16 := 2
def managementSetLoggingLevelReply : UInt16 := 3
def managementShowStatsRequest : UInt16 := 4
def managementShowStatsReply : UInt16 := 5
def managementApplicationRequest : UInt16 := 6
def managementApplicationReply : UInt16 := 7

def loggingLevelStrLength : Nat := 12

def abortIf (c : Bool) : Run Empty Unit := if c then .error .aborted else .ok ()

-- A C string in a message.
def stringAt (data : Bytes) (off : Nat) : Run Empty Bytes :=
  if 0 ∈ data.drop off then .ok (text (data.drop off)) else .error .outOfBounds

structure TimespecN where
  tvSec : UInt32
  tvNsec : UInt32
deriving DecidableEq, Repr

def TimespecN.bytes (t : TimespecN) : Bytes := toNet32 t.tvSec ++ toNet32 t.tvNsec

def timespecAt (data : Bytes) (off : Nat) : Run Empty TimespecN := do
  let tvSec ← net32 data off
  let tvNsec ← net32 data (off + 4)
  pure ⟨tvSec,tvNsec⟩

def requestHeader (type : UInt16) (length : Nat) : Bytes := toNet16 type ++ toNet32 (UInt32.ofNat length)

def replyHeader (type : UInt16) (status : UInt8) (length : Nat) : Bytes :=
  toNet16 type ++ [status,0] ++ toNet32 (UInt32.ofNat length)

section Process

-- What the interface works on; `application` tells whether a callback is set.
structure Process where
  level : Nat
  stats : Stats
  application : Bool

-- What a request brings about.
inductive Outcome where
  | logged
  | reply (data : Bytes)
  | applicationCallback (applicationId : UInt32) (data : Option Bytes)
deriving DecidableEq, Repr

variable (p : Process) (clock : Option TimespecN)

-- What every handler asserts of its request.
def checked (request : Bytes) (type : UInt16) (fits : Nat → Bool) : Run Empty Unit := do
  let requestType ← net16 request 0
  abortIf (requestType ≠ type)
  let length ← net32 request 2
  abortIf (fits length.toNat = false)

def statusOf (ret : Bool) : UInt8 := if ret then managementRequestSucceeded else managementRequestFailed

def handleEchoRequest (request : Bytes) : Run Empty Outcome := do
  checked request managementEchoRequest (· = 14)
  let sentAt ← load request 6 8
  let now := clock.getD ⟨0,0⟩
  pure (.reply (replyHeader managementEchoReply (statusOf clock.isSome) 24 ++ sentAt ++ now.bytes))

def levelText (level : Bytes) : List Char := level.map fun b => Char.ofNat b.toNat

def handleSetLoggingLevelRequest (request : Bytes) : Run Empty (Process × Outcome) := do
  checked request managementSetLoggingLevelRequest (· = 6 + loggingLevelStrLength)
  let request ← store request (6 + (loggingLevelStrLength - 1)) [0]
  let level ← stringAt request 6
  let reply status : Outcome := .reply (replyHeader managementSetLoggingLevelReply status 8)
  match priorityValueFrom (levelText level) with
  | none => pure (p,reply managementRequestFailed)
  | some value => pure ({ p with level := value },reply managementRequestSucceeded)

-- append_stat, and the copy into the reply
def statBytes (entry : StatEntry) : Bytes := entry.key ++ toNet64 entry.value

def nMaxEntries : Nat := (400000 - 256) / 264

def handleShowStatsRequest (request : Bytes) : Run Empty Outcome := do
  checked request managementShowStatsRequest (· = 6)
  let stats := foreachStat p.stats
  -- list_length_of returns an unsigned int.
  let nStats := stats.length % 2 ^ 32
  if nStats ≤ nMaxEntries then
    if nStats < stats.length then .error .outOfBounds
    else
      pure (.reply (replyHeader managementShowStatsReply managementRequestSucceeded (8 + 264 * nStats) ++
        stats.flatMap statBytes))
  else pure (.reply (replyHeader managementShowStatsReply managementRequestFailed 8))

def createManagementApplicationReply (status : UInt8) (applicationId : UInt32) (data : Bytes) : Bytes :=
  replyHeader managementApplicationReply status (12 + data.length) ++ toNet32 applicationId ++ data

def handleApplicationRequest (request : Bytes) : Run Empty Outcome := do
  checked request managementApplicationRequest (10 ≤ ·)
  let applicationId ← net32 request 6
  if p.application then do
    let length ← net32 request 2
    let data ← load request 10 (length.toNat - 10)
    pure (.applicationCallback applicationId (if data = [] then none else some data))
  else pure (.reply (createManagementApplicationReply managementRequestFailed applicationId []))

-- The switch of handle_management_request.
def dispatch (data : Bytes) (type : UInt16) : Run Empty (Process × Outcome) :=
  if type = managementEchoRequest then
    if data.length ≠ 14 then .ok (p,.logged)
    else do
      let outcome ← handleEchoRequest clock data
      pure (p,outcome)
  else if type = managementSetLoggingLevelRequest then
    if data.length ≠ 6 + loggingLevelStrLength then .ok (p,.logged)
    else handleSetLoggingLevelRequest p data
  else if type = managementShowStatsRequest then
    if data.length ≠ 6 then .ok (p,.logged)
    else do
      let outcome ← handleShowStatsRequest p data
      pure (p,outcome)
  else if type = managementApplicationRequest then
    if data.length < 10 then .ok (p,.logged)
    else do
      let outcome ← handleApplicationRequest p data
      pure (p,outcome)
  else .ok (p,.logged)

def handleManagementRequest (data : Bytes) : Run Empty (Process × Outcome) := do
  abortIf (data.length < 6)
  let length ← net32 data 2
  abortIf (data.length ≠ length.toNat)
  let type ← net16 data 0
  dispatch p clock data type

def handleRequest (tag : UInt16) (data : Bytes) : Run Empty (Process × Outcome) :=
  if tag = messengerManagementRequest then
    if data.length < 6 then .ok (p,.logged) else handleManagementRequest p clock data
  else .ok (p,.logged)

end Process

section Tools

-- What a tool prints.
inductive Shown where
  | failed
  | echo (sentAt receivedAt : TimespecN)
  | levelSet
  | stats (lines : List (Bytes × UInt64))
  | application (succeeded : Bool) (applicationId : UInt32) (data : Bytes)
deriving DecidableEq, Repr

def sendEchoRequest (now : TimespecN) : Bytes := requestHeader managementEchoRequest 14 ++ now.bytes

-- parse_arguments lets no other level through.
def sendSetLoggingLevelRequest (level : Bytes) : Bytes :=
  requestHeader managementSetLoggingLevelRequest (6 + loggingLevelStrLength) ++ strncpy level loggingLevelStrLength

def sendShowStatsRequest : Bytes := requestHeader managementShowStatsRequest 6

def sendApplicationRequest (applicationId : UInt32) (data : Bytes) : Bytes :=
  requestHeader managementApplicationRequest (10 + data.length) ++ toNet32 applicationId ++ data

-- The assertions of handle_reply, and the status.
def replyStatus (tag : UInt16) (data : Bytes) (type : UInt16) (fits : Bool) : Run Empty UInt8 := do
  abortIf (tag ≠ messengerManagementReply)
  abortIf (fits = false)
  let replyType ← net16 data 0
  abortIf (replyType ≠ type)
  let length ← net32 data 4
  abortIf (length.toNat ≠ data.length)
  byteAt data 2

def echoReply (tag : UInt16) (data : Bytes) : Run Empty Shown := do
  let status ← replyStatus tag data managementEchoReply (data.length = 24)
  if status ≠ managementRequestSucceeded then pure .failed
  else do
    let sentAt ← timespecAt data 8
    let receivedAt ← timespecAt data 16
    pure (.echo sentAt receivedAt)

def setLoggingLevelReply (tag : UInt16) (data : Bytes) : Run Empty Shown := do
  let status ← replyStatus tag data managementSetLoggingLevelReply (data.length = 8)
  pure (if status = managementRequestSucceeded then .levelSet else .failed)

def statLine (data : Bytes) (i : Nat) : Run Empty (Bytes × UInt64) := do
  let key ← stringAt data (8 + 264 * i)
  let value ← net64 data (8 + 264 * i + statKeyLength)
  pure (key,value)

def showStatsReply (tag : UInt16) (data : Bytes) : Run Empty Shown := do
  let status ← replyStatus tag data managementShowStatsReply (8 ≤ data.length)
  if status = managementRequestFailed then pure .failed
  else do
    let nEntries := (data.length - 8) % 2 ^ 32 / 264
    let lines ← (List.range nEntries).mapM (statLine data)
    pure (.stats lines)

def applicationReply (tag : UInt16) (data : Bytes) : Run Empty Shown := do
  let status ← replyStatus tag data managementApplicationReply (12 ≤ data.length)
  let applicationId ← net32 data 8
  pure (.application (status = managementRequestSucceeded) applicationId (data.drop 12))

end Tools

end Trema.Management
