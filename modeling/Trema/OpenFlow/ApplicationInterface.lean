import Trema.OpenFlow.SwitchInterface

namespace Trema.OpenFlow

open Library Layout

structure StatsReply where
  transactionId : UInt32
  type : UInt16
  flags : UInt16
  body : Option Bytes
deriving DecidableEq, Repr

structure QueueConfig where
  transactionId : UInt32
  port : UInt16
  queues : List Bytes
deriving DecidableEq, Repr

-- What malloc returns is not cleared; `heap` is whatever those bytes happen to hold.
def xmalloc (heap : Nat → UInt8) (length : Nat) : Bytes := (List.range length).map heap

def xcalloc (length : Nat) : Bytes := List.replicate length 0

def ntohFlowEntry (fuel : Nat) (body : Bytes) (s : Conversion) : Exec Conversion := do
  let out ← ntohFlowStats fuel body s.src s.out s.dst
  let length ← Order.host.read16 out s.dst
  pure ⟨sub16 s.remaining length.toNat,s.src + length.toNat,s.dst + length.toNat,out⟩

def ntohFlowEntries (fuel : Nat) (body out : Bytes) (bodyLength : Nat) : Exec Bytes := do
  let last ← whileLoop (fun s => decide (0 < s.remaining)) (ntohFlowEntry fuel body) fuel
    ⟨bodyLength,0,0,out⟩
  pure last.out

def ntohStatsEntry (fs : List Field) (body : Bytes) (s : Conversion) : Exec Conversion := do
  let cells ← convert fs body s.src
  let out ← store s.out s.dst cells
  pure ⟨sub16 s.remaining (size fs),s.src + size fs,s.dst + size fs,out⟩

def ntohStatsEntries (fs : List Field) (fuel : Nat) (body out : Bytes) (bodyLength : Nat) :
    Exec Bytes := do
  let last ← whileLoop (fun s => decide (0 < s.remaining)) (ntohStatsEntry fs body) fuel
    ⟨bodyLength,0,0,out⟩
  pure last.out

def ntohStatsBody (fuel : Nat) (heap : Nat → UInt8) (type : UInt16) (body : Bytes)
    (bodyLength : Nat) : Exec Bytes :=
  match StatsType.ofCode type with
  | some .desc => .ok body
  | some .flow => ntohFlowEntries fuel body (xmalloc heap bodyLength) bodyLength
  | some .aggregate => do
    let cells ← ntohAggregateStats body 0
    store (xmalloc heap bodyLength) 0 cells
  | some .table => ntohStatsEntries tableStatsFields fuel body (xmalloc heap bodyLength) bodyLength
  | some .port => ntohStatsEntries portStatsFields fuel body (xmalloc heap bodyLength) bodyLength
  | some .queue => ntohStatsEntries queueStatsFields fuel body (xmalloc heap bodyLength) bodyLength
  | some .vendor => do
    let copied ← load body 0 bodyLength
    let out ← store (xmalloc heap bodyLength) 0 copied
    let vendorId ← convert [.swap 4] body 0
    store out 0 vendorId
  | none => .error .aborted

def handleStatsReply (fuel : Nat) (heap : Nat → UInt8) (registered : Bool) (message : Bytes) :
    Exec (List StatsReply) := do
  abortIf (message.length = 0)
  let transactionId ← net32 message 4
  let type ← net16 message 8
  let flags ← net16 message 10
  let length ← net16 message 2
  let bodyLength := sub16 length.toNat 12
  if registered then
    if 0 < bodyLength then
      let body ← removeFrontBuffer message 12
      let converted ← ntohStatsBody fuel heap type body bodyLength
      pure [⟨transactionId,type,flags,some converted⟩]
    else
      pure [⟨transactionId,type,flags,none⟩]
  else
    pure []

structure QueueDecoding where
  remaining : Nat
  p : Nat
  queues : List Bytes
deriving DecidableEq, Repr

def decodeQueue (fuel : Nat) (message : Bytes) (s : QueueDecoding) : Exec QueueDecoding := do
  let length ← net16 message (s.p + 4)
  let pq ← ntohPacketQueue fuel message s.p (xcalloc length.toNat) 0
  let len ← Order.host.read16 pq 4
  pure ⟨sub16 s.remaining len.toNat,s.p + len.toNat,s.queues ++ [pq]⟩

def handleQueueGetConfigReply (fuel : Nat) (registered : Bool) (message : Bytes) :
    Exec (List QueueConfig) := do
  abortIf (message.length = 0)
  let transactionId ← net32 message 4
  let port ← net16 message 8
  let length ← net16 message 2
  let queuesLength := sub16 length.toNat 16
  if registered then
    abortIf (queuesLength = 0)
    let decoded ← whileLoop (fun s => decide (0 < s.remaining)) (decodeQueue fuel message) fuel
      ⟨queuesLength,16,[]⟩
    pure [⟨transactionId,port,decoded.queues⟩]
  else
    pure []

structure CookieRewriting where
  bodyLength : Int
  p : Nat
  message : Bytes
deriving DecidableEq, Repr

def rewriteCookie (lookup : UInt64 → Option UInt64) (s : CookieRewriting) :
    Exec CookieRewriting := do
  let cookie ← net64 s.message (s.p + 64)
  let message ← match lookup cookie with
    | some applicationCookie => store s.message (s.p + 64) (toNet64 applicationCookie)
    | none => pure s.message
  let length ← net16 message s.p
  pure ⟨s.bodyLength - length.toNat,s.p + length.toNat,message⟩

def ofpmsgRecvStatsreply (lookup : UInt64 → Option UInt64) (cookieTranslation : Bool)
    (fuel : Nat) (message : Bytes) : Exec Bytes := do
  let type ← net16 message 8
  if type = StatsType.flow.code ∧ cookieTranslation = true then
    let length ← net16 message 2
    let last ← whileLoop (fun s => decide (0 < s.bodyLength)) (rewriteCookie lookup) fuel
      ⟨length.toNat - 12,12,message⟩
    pure last.message
  else
    pure message

end Trema.OpenFlow
