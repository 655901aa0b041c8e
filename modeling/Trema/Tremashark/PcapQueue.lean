import Trema.Tremashark.Queue
import Trema.Library.Bytes

namespace Trema.Tremashark

open Library

-- A buffer: the bytes create_pcap_packet put together, where packet->data points to and how much is left.
structure PcapPacket where
  bytes : Bytes
  data : Nat
  length : Nat
deriving DecidableEq, Repr

structure Timeval where
  tvSec : Int
  tvUsec : Int
deriving DecidableEq, Repr

def createPcapPacket (pcapHeader dumpHeader data : Bytes) : PcapPacket :=
  let bytes := pcapHeader ++ dumpHeader ++ data
  ⟨bytes,0,bytes.length⟩

-- The ts field of the header that starts at packet->data; `stray` is what lies behind the packet in memory.
def PcapPacket.ts (p : PcapPacket) (stray : Bytes) : Timeval :=
  let memory := p.bytes ++ stray
  ⟨(host32 memory p.data).toInt32.toInt,(host32 memory (p.data + 4)).toInt32.toInt⟩

def later (x y : Timeval) : Bool :=
  decide (y.tvSec < x.tvSec ∨ (x.tvSec = y.tvSec ∧ y.tvUsec < x.tvUsec))

def timersub (a b : Timeval) : Timeval :=
  let sec := a.tvSec - b.tvSec
  let usec := a.tvUsec - b.tvUsec
  if usec < 0 then ⟨sec - 1,usec + 1000000⟩ else ⟨sec,usec⟩

-- What goes into a message dump: its tag, its time of sending, the names and the message.
structure DumpMessage where
  tag : UInt16
  sec : UInt32
  nsec : UInt32
  appName : Bytes
  serviceName : Bytes
  data : Bytes
  appNameLength : appName.length < 2 ^ 16
  serviceNameLength : serviceName.length < 2 ^ 16
  dataLength : data.length < 2 ^ 32

namespace DumpMessage

variable (m : DumpMessage)

def pcapDumpHeader : Bytes :=
  toNet16 m.tag ++ toNet32 m.sec ++ toNet32 m.nsec ++ toNet16 (UInt16.ofNat m.appName.length) ++
    toNet16 (UInt16.ofNat m.serviceName.length) ++ toNet32 (UInt32.ofNat m.data.length) ++
    m.appName ++ m.serviceName

def pcapHeader (trustRemoteClocks : Bool) (now : Int32 × Int32) : Bytes :=
  let length := UInt32.ofNat (m.pcapDumpHeader.length + m.data.length)
  let ts := if trustRemoteClocks then (m.sec,m.nsec / 1000) else (now.1.toUInt32,now.2.toUInt32)
  toHost32 ts.1 ++ toHost32 ts.2 ++ toHost32 length ++ toHost32 length

def packet (trustRemoteClocks : Bool) (now : Int32 × Int32) : PcapPacket :=
  createPcapPacket (m.pcapHeader trustRemoteClocks now) m.pcapDumpHeader m.data

end DumpMessage

inductive WriteResult where
  | wrote (n : Nat)
  | again
  | failed
deriving DecidableEq, Repr

inductive WriteStatus where
  | success
  | busy
  | error
deriving DecidableEq, Repr

-- The process: the queue of buffers, the buffers, the bytes that went to outfile_fd.
structure Capture where
  packetQueue : Queue Nat
  packets : List (Option PcapPacket)
  output : Bytes
  lost : UInt64
  total : UInt64
deriving DecidableEq, Repr

namespace Capture

def queueLimit : Int32 := 65536

def maxRwCount : Nat := 0x7ffff000

def flushDelay : Timeval := ⟨0,100000⟩

def start : Capture := ⟨Queue.createQueue,[],[],0,0⟩

def packet (s : Capture) (handle : Nat) : Exec PcapPacket := dereference s.packets[handle]?.join

def lengthOf (packets : List (Option PcapPacket)) (handle : Nat) : Nat :=
  (packets[handle]?.join).elim 0 PcapPacket.length

def tsOf (s : Capture) (stray : Nat → Bytes) (handle : Nat) : Timeval :=
  (s.packets[handle]?.join).elim ⟨0,0⟩ fun p => p.ts (stray handle)

def compareTimestamp (s : Capture) (stray : Nat → Bytes) (x y : Nat) : Bool :=
  later (s.tsOf stray x) (s.tsOf stray y)

def enqueuePcapPacket (s : Capture) (p : PcapPacket) : Exec (Bool × Capture) := do
  let handle := s.packets.length
  if queueLimit ≤ s.packetQueue.length then pure (false,{ s with packets := s.packets ++ [none] })
  else
    let packets := s.packets ++ [some p]
    let q ← s.packetQueue.enqueue (lengthOf packets) handle
    pure (true,{ s with packetQueue := q, packets := packets })

-- Without -c: the timer of write_pcap_packet is set only then.
def dumpMessage (trustRemoteClocks : Bool) (s : Capture) (m : DumpMessage) (now : Int32 × Int32) :
    Exec (Bool × Capture) := do
  let (enqueued,s) ← s.enqueuePcapPacket (m.packet trustRemoteClocks now)
  if enqueued then pure (true,{ s with total := s.total + 1 })
  else pure (false,{ s with lost := s.lost + 1, total := s.total + 1 })

def writeToFile (s : Capture) (handle : Nat) (result : WriteResult) : Exec (WriteStatus × Capture) := do
  let packet ← s.packet handle
  if packet.length = 0 then .error .aborted
  else
    match result with
    | .again => pure (.busy,s)
    | .failed => pure (.error,s)
    | .wrote n =>
      let ret := min n (min packet.length maxRwCount)
      let bytes ← load packet.bytes packet.data ret
      let s := { s with output := s.output ++ bytes }
      if ret ≠ packet.length then
        let rest := { packet with data := packet.data + ret, length := packet.length - ret }
        pure (.busy,{ s with packets := s.packets.set handle (some rest) })
      else pure (.success,s)

def flush (threshold : Timeval) (stray : Nat → Bytes) :
    Nat → List WriteResult → Capture → Exec Capture
  | 0, _, _ => .error .outOfFuel
  | fuel + 1, results, s => do
    match ← s.packetQueue.peek with
    | none => pure s
    | some handle =>
      let packet ← s.packet handle
      if later (packet.ts (stray handle)) threshold then pure s
      else
        let (status,s) ← s.writeToFile handle (results.headD .again)
        match status with
        | .busy => pure s
        | .error => pure s
        | .success =>
          let (front,q) ← s.packetQueue.dequeue
          let packets := front.elim s.packets fun handle => s.packets.set handle none
          flush threshold stray fuel results.tail { s with packetQueue := q, packets := packets }

def writePcapPacket (s : Capture) (now : Timeval) (stray : Nat → Bytes) (results : List WriteResult) :
    Exec Capture := do
  let q ← s.packetQueue.sortQueue (s.compareTimestamp stray)
  let threshold := timersub now flushDelay
  -- Every turn but the last takes an element out of the queue.
  flush threshold stray (q.elements.length + 1) results { s with packetQueue := q }

end Capture

end Trema.Tremashark
