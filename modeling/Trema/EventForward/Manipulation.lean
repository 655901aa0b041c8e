import Trema.EventForward.Encoding
import Trema.Management.Interface

namespace Trema.EventForward

open Library
open Management (managementRequestSucceeded managementRequestFailed managementApplicationReply)
open OpenFlow (Exec abortIf subSize)
open PacketinFilter (CString)
open Table (appendToTail)

def dumpXidTable : UInt32 := 0
def dumpCookieTable : UInt32 := 1
def toggleCookieAging : UInt32 := 2
def eventForwardEntryAdd : UInt32 := 3
def eventForwardEntryDelete : UInt32 := 4
def eventForwardEntryDump : UInt32 := 5
def eventForwardEntrySet : UInt32 := 6

section Entries

variable (serviceList : List CString) (request : Bytes) (nServices : UInt32)

def requestedName : Exec (Option CString) := do
  if nServices = 0 then pure none
  else
    let serviceNameLen := subSize request.length 8
    if serviceNameLen = 0 then pure none
    else do
      let serviceName ← strncpy request 8 serviceNameLen
      pure (some (cstring serviceName))

def managementEventForwardEntryAdd : Exec (List CString) := do
  match ← requestedName request nServices with
  | none => pure serviceList
  | some serviceName =>
    match ← findListCustom serviceList serviceName with
    | none => pure (appendToTail serviceList serviceName)
    | some _ => pure serviceList

def managementEventForwardEntryDelete : Exec (List CString) := do
  match ← requestedName request nServices with
  | none => pure serviceList
  | some serviceName =>
    match ← findListCustom serviceList serviceName with
    | none => pure serviceList
    | some found => do
      let (success,serviceList) ← deleteElement serviceList found
      abortIf (success = false)
      pure serviceList

-- The array has room for the announced names only; a name is where it begins in the request.
def splitNames (requested : Nat) : Nat → Nat → Nat → List Nat → Exec (List Nat)
  | 0, _, _, names => pure names
  | k + 1, i, nameBegin, names => do
    let c ← byteAt request (8 + i)
    if c = 0 then
      if names.length < requested then
        let names := names ++ [nameBegin]
        if names.length = requested then pure names
        else splitNames requested k (i + 1) (8 + (i + 1)) names
      else .error .outOfBounds
    else splitNames requested k (i + 1) nameBegin names

def appendNamed (list : List CString) (nameBegin : Nat) : Exec (List CString) := do
  let serviceName ← stringAt request nameBegin
  if serviceName.bytes = [] then pure list else pure (appendToTail list serviceName)

def managementEventForwardEntriesSet : Exec (List CString) := do
  let names ← splitNames request nServices.toNat (subSize request.length 8) 0 8 []
  names.foldlM (appendNamed request) []

def manipulate (command : UInt32) : Exec (List CString) :=
  if command = eventForwardEntryAdd then managementEventForwardEntryAdd serviceList request nServices
  else if command = eventForwardEntryDelete then managementEventForwardEntryDelete serviceList request nServices
  else if command = eventForwardEntrySet then managementEventForwardEntriesSet request nServices
  else pure serviceList

end Entries

def createManagementApplicationReply (status : UInt8) (applicationId : UInt32) (data : Bytes) : Bytes :=
  toNet16 managementApplicationReply ++ [status,0] ++ toNet32 (UInt32.ofNat (12 + data.length)) ++
    toNet32 applicationId ++ data

structure Daemon where
  services : ServiceLists := {}
  cookieTranslation : Bool := true
  ageCookieTableEnabled : Bool := true

section Requests

variable (heap : Nat → UInt8) (d : Daemon)

def managementEventForwardEntryOperation (command : UInt32) (request : Bytes) (nServices : UInt32) :
    Exec (Daemon × Bytes) := do
  let type ← byteAt request 0
  match EventType.ofCode type with
  | none =>
    pure (d,createManagementApplicationReply managementRequestFailed command
      (operationImage type EfiResult.failed.code []))
  | some t => do
    let list ← manipulate (d.services.subject t) request nServices command
    let buf ← createEventForwardOperationReply heap type EfiResult.succeeded.code list
    pure ({ d with services := d.services.withSubject list t },
      createManagementApplicationReply managementRequestSucceeded command buf.bytes)

def IsForward (command : UInt32) : Prop :=
  command = eventForwardEntryAdd ∨ command = eventForwardEntryDelete ∨ command = eventForwardEntryDump ∨
    command = eventForwardEntrySet

instance (command : UInt32) : Decidable (IsForward command) := inferInstanceAs (Decidable (_ ∨ _))

-- The request's data, and the state and reply that come of it; an empty request has a null pointer.
def managementRecv (command : UInt32) (data : Bytes) : Exec (Daemon × Bytes) :=
  if command = dumpXidTable ∨ command = dumpCookieTable then
    pure (d,createManagementApplicationReply managementRequestSucceeded command [])
  else if command = toggleCookieAging then
    pure ({ d with
      ageCookieTableEnabled := if d.cookieTranslation then !d.ageCookieTableEnabled else d.ageCookieTableEnabled },
      createManagementApplicationReply managementRequestSucceeded command [])
  else if IsForward command then do
    let nServices ← net32 data 4
    managementEventForwardEntryOperation heap d command data nServices
  else pure (d,createManagementApplicationReply managementRequestFailed command [])

end Requests

end Trema.EventForward
