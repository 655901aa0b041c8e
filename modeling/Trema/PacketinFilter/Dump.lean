import Trema.PacketinFilter.Filter
import Trema.OpenFlow.Accept
import Trema.OpenFlow.ApplicationInterface

namespace Trema.PacketinFilter

open Library
open OpenFlow (OfpMatch matchFields netMatch xmalloc)
open Table

structure Pointer where
  block : Nat
  offset : Nat
deriving DecidableEq

structure PrivateBuffer where
  data : Pointer
  length : Nat
  top : Nat
  realLength : Nat

-- A block that was freed keeps its place, so a pointer into it never aliases a later block.
structure Memory where
  blocks : List Bytes
  buf : PrivateBuffer

section Buffer

def Memory.block (d : Memory) (p : Pointer) : Bytes := d.blocks.getD p.block []

def Memory.write (d : Memory) (p : Pointer) (bs : Bytes) : Memory :=
  { d with blocks := d.blocks.modify p.block fun b => overwrite b p.offset bs }

def frontLengthOf (pbuf : PrivateBuffer) : Nat := pbuf.data.offset

def alreadyAllocated (pbuf : PrivateBuffer) (length : Nat) : Bool :=
  frontLengthOf pbuf + pbuf.length + length ≤ pbuf.realLength

variable (heap : Nat → UInt8)

def allocNewData (d : Memory) (length : Nat) : Memory :=
  ⟨d.blocks ++ [xmalloc heap length],⟨⟨d.blocks.length,0⟩,length,d.blocks.length,length⟩⟩

def appendBack (d : Memory) (length : Nat) : Memory :=
  let front := frontLengthOf d.buf
  let newLength := front + d.buf.length + length
  let newData := overwrite (xmalloc heap newLength) front
    (slice (d.block d.buf.data) d.buf.data.offset d.buf.length)
  ⟨d.blocks ++ [newData],⟨⟨d.blocks.length,front⟩,d.buf.length,d.blocks.length,newLength⟩⟩

def allocBufferWithLength (length : Nat) : Memory :=
  ⟨[xmalloc heap length],⟨⟨0,0⟩,0,0,length⟩⟩

def appendBackBuffer (d : Memory) (length : Nat) : Pointer × Memory :=
  if d.buf.realLength = 0 then
    let d := allocNewData heap d length
    (d.buf.data,d)
  else
    let d := if alreadyAllocated d.buf length then d else appendBack heap d length
    (⟨d.buf.data.block,d.buf.data.offset + d.buf.length⟩,
      { d with buf := { d.buf with length := d.buf.length + length } })

end Buffer

section Reply

def nEntries (d : Memory) (reply : Pointer) : UInt32 := host32 (d.block reply) (reply.offset + 1)

def setNEntries (d : Memory) (reply : Pointer) (n : Bytes) : Memory :=
  d.write ⟨reply.block,reply.offset + 1⟩ n

def serviceNameField (serviceName : CString) : Bytes :=
  (strncpy serviceName.bytes 32).set 31 0

def entryBytes (m : OfpMatch) (priority : UInt16) (serviceName : CString) : Bytes :=
  netMatch m ++ toNet16 priority ++ serviceNameField serviceName

variable (heap : Nat → UInt8)

def dumpService (m : OfpMatch) (priority : UInt16) (reply : Pointer) (d : Memory)
    (serviceName : CString) : Memory :=
  let d := setNEntries d reply (toHost32 (nEntries d reply + 1))
  match appendBackBuffer heap d 74 with
  | (entry,d) => d.write entry (entryBytes m priority serviceName)

def dumpFilterWalker (m : OfpMatch) (priority : UInt16) (services : List CString) (d : Memory) :
    Memory := services.foldl (dumpService heap m priority d.buf.data) d

-- The entry repeats the match and the priority of the request, which are in network byte order.
def dumpStrictService (criteria : Criteria) (reply : Pointer) (d : Memory) (serviceName : CString) :
    Memory :=
  if serviceName = criteria.serviceName then
    match appendBackBuffer heap d 74 with
    | (entry,d) =>
      let d := setNEntries d reply (toHost32 (nEntries d reply + 1))
      d.write entry (entryBytes criteria.mtch criteria.priority serviceName)
  else d

def handleDumpFilterRequest (t : FilterTable) (criteria : Criteria) : Bytes :=
  match appendBackBuffer heap (allocBufferWithLength heap 2048) 5 with
  | (reply,d) =>
    let d := setNEntries (d.write reply [0]) reply (toHost32 0)
    let d :=
      if criteria.strict then
        (lookupMatchStrictEntry t criteria.mtch criteria.priority).foldl
          (dumpStrictService heap criteria reply) d
      else mapMatchTable (some criteria.mtch) (fun _ => t) (dumpFilterWalker heap) d
    let d := setNEntries d reply (toNet32 (nEntries d reply))
    slice (d.block d.buf.data) d.buf.data.offset d.buf.length

end Reply

section Client

structure FilterEntry where
  mtch : OfpMatch
  priority : UInt16
  serviceName : Bytes

def ntohPacketinFilterEntry (data : Bytes) (p : Nat) : FilterEntry :=
  ⟨OfpMatch.ofHost (Layout.cells matchFields (slice data p 40)),be16 data (p + 40),
    slice data (p + 42) 32⟩

def toInt (n : UInt32) : Int := if n.toNat < 2147483648 then n.toNat else n.toNat - 4294967296

-- The arguments of the callback; `none` when the reply is rejected.
def handleDumpReply (data : Bytes) : Option (UInt8 × Int × List FilterEntry) :=
  if data.length < 5 then none
  else if data.length ≠ 5 + 74 * (be32 data 1).toNat then none
  else
    let n := toInt (be32 data 1)
    some (hostByte data 0,n,
      if 0 < n then (List.range n.toNat).map fun i => ntohPacketinFilterEntry data (5 + 74 * i)
      else [])

end Client

section Selection

structure Triple where
  mtch : OfpMatch
  priority : UInt16
  serviceName : CString

def tableEntries (t : FilterTable) : List (MatchEntry (List CString)) :=
  (foreachHash t.exactTable).map Prod.snd ++ t.wildcardsTable

def selectedEntries (t : FilterTable) (criteria : Criteria) : List (MatchEntry (List CString)) :=
  (tableEntries t).filter fun e =>
    if criteria.strict then keyed criteria.mtch criteria.priority e
    else compareFilterMatch criteria.mtch e.mtch

def selectedServices (criteria : Criteria) (services : List CString) : List CString :=
  services.filter fun s => !criteria.strict || s == criteria.serviceName

def triples (criteria : Criteria) (e : MatchEntry (List CString)) : List Triple :=
  (selectedServices criteria e.data).map fun s => ⟨e.mtch,e.priority,s⟩

def selectedTriples (t : FilterTable) (criteria : Criteria) : List Triple :=
  (selectedEntries t criteria).flatMap (triples criteria)

-- The pad bytes of a match are not part of it: hton_match clears them.
def SameTriple (e : FilterEntry) (x : Triple) : Prop :=
  e.serviceName.takeWhile (· ≠ 0) = x.serviceName.bytes ∧ e.mtch = x.mtch.unpadded ∧
    e.priority = x.priority

def Reported (heap : Nat → UInt8) (t : FilterTable) (criteria : Criteria) : Prop :=
  ∃ entries stored, handleDumpReply (handleDumpFilterRequest heap t criteria) =
      some (0,((selectedTriples t criteria).length : Int),entries) ∧
    stored.Perm (selectedTriples t criteria) ∧ List.Forall₂ SameTriple entries stored

-- A strict request is answered in the words of the request.
def Echoes (criteria : Criteria) (x : Triple) : Prop :=
  x.mtch.unpadded = criteria.mtch.unpadded ∧ x.priority = criteria.priority

end Selection

end Trema.PacketinFilter
