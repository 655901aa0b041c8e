import Trema.Buffer.Ownership
import Trema.Library.Segments

namespace Trema.Tremashark

open Library Buffer
open Utility (ptrdiffMax sizeMax)

-- What read() gives; zero bytes are the end of the file.
inductive ReadResult where
  | data (bytes : Bytes) (size : bytes.length ≤ 1024)
  | again
  | failed

structure StdinRelay where
  heap : Heap
  stdinReadBuffer : Option PrivateBuffer
  readable : Bool
  -- The strings given to relay_string.
  relayed : List Bytes
deriving DecidableEq, Repr

namespace StdinRelay

def lineFeed : UInt8 := 10

def findCharacter : Bytes → UInt8 → Option Nat
  | [], _ => none
  | b :: string, character =>
    if b = character then some 0 else (findCharacter string character).map (· + 1)

def bytesAt (heap : Heap) (pbuf : PrivateBuffer) (n : Nat) : Buffer.Exec Bytes := do
  let top ← Buffer.dereference pbuf.top
  heap.load ⟨top,pbuf.data⟩ n

-- The string that goes to relay_string; it is freed afterwards.
def copyLine (heap : Heap) (pbuf : PrivateBuffer) (length : Nat) : Buffer.Exec (Heap × Bytes) := do
  let (heap,string) ← allocBufferWithLength heap length
  let (p,heap,string) ← appendBackBuffer heap string length
  let line ← bytesAt heap pbuf length
  let heap ← heap.store p line
  let line ← bytesAt heap string string.length
  let heap ← freeBuffer heap string
  pure (heap,line)

def relayLine (heap : Heap) (pbuf : PrivateBuffer) (relayed : List Bytes) (length : Nat) :
    Buffer.Exec (Heap × PrivateBuffer × List Bytes) := do
  if 0 < length then
    let (heap,line) ← copyLine heap pbuf length
    let pbuf ← removeFrontBuffer pbuf (length + 1)
    pure (heap,pbuf,relayed ++ [line])
  else if 0 < pbuf.length then
    let pbuf ← removeFrontBuffer pbuf 1
    pure (heap,pbuf,relayed)
  else pure (heap,pbuf,relayed)

def relayLines : Nat → Heap → PrivateBuffer → List Bytes →
    Buffer.Exec (Heap × PrivateBuffer × List Bytes)
  | 0, _, _, _ => .error .outOfFuel
  | fuel + 1, heap, pbuf, relayed => do
    let bytes ← bytesAt heap pbuf pbuf.length
    match findCharacter bytes lineFeed with
    | none => pure (heap,pbuf,relayed)
    | some length =>
      let (heap,pbuf,relayed) ← relayLine heap pbuf relayed length
      if pbuf.length = 0 then pure (heap,pbuf,relayed)
      else relayLines fuel heap pbuf relayed

-- Every turn of the loop takes bytes out of the buffer.
def readStdin (s : StdinRelay) (result : ReadResult) : Buffer.Exec StdinRelay :=
  match result with
  | .again => pure s
  | .failed => pure { s with readable := false }
  | .data bytes _ =>
    if bytes.length = 0 then pure s
    else
      match s.stdinReadBuffer with
      | none => pure { s with readable := false }
      | some pbuf => do
        let (p,heap,pbuf) ← appendBackBuffer s.heap pbuf bytes.length
        let heap ← heap.store p bytes
        let (heap,pbuf,relayed) ← relayLines (pbuf.length + 1) heap pbuf s.relayed
        let (heap,truncated) ← duplicateBuffer heap pbuf
        let heap ← freeBuffer heap pbuf
        pure { s with heap := heap, stdinReadBuffer := some truncated, relayed := relayed }

def initStdinRelay : Buffer.Exec StdinRelay := do
  let (heap,pbuf) ← allocBufferWithLength ⟨[]⟩ 1024
  pure ⟨heap,some pbuf,true,[]⟩

def run (reads : List ReadResult) : Buffer.Exec StdinRelay := do
  let s ← initStdinRelay
  reads.foldlM readStdin s

end StdinRelay

end Trema.Tremashark
