import Trema.Messenger.Message

namespace Trema.Messenger

open Library
open OpenFlow (subSize)

inductive Fault where
  | assertionFailed
  | outOfFuel
  | useAfterFree
deriving DecidableEq, Repr

abbrev QueueId := Nat

-- The event handler's entry for the descriptor of the queue is kept with the queue: `handler` says
-- that there is one, `readable` and `writable` are the descriptor's bits in the two sets.
structure SendQueue where
  serverSocket : Option Nat
  refusedCount : Nat
  reconnectInterval : Int
  buffer : MessageBuffer
  runningTimer : Bool
  overflow : UInt32
  overflowTotalLength : UInt64
  socketBufferSize : Nat
  handler : Bool
  readable : Bool
  writable : Bool

-- A queue and the queues whose reconnect timers are armed.
structure Station where
  sq : SendQueue
  timers : List QueueId

section Descriptor

variable (sq : SendQueue)

def fdSetSize : Nat := 1024

def setFdHandler (fd : Nat) : SendQueue :=
  { sq with handler := decide (fd < fdSetSize), readable := false, writable := false }

def setReadable (state : Bool) : SendQueue :=
  { sq with readable := if sq.serverSocket.isSome && sq.handler then state else sq.readable }

def setWritable (state : Bool) : SendQueue :=
  { sq with writable := if sq.serverSocket.isSome && sq.handler then state else sq.writable }

def closeSocket : SendQueue :=
  { sq with serverSocket := none, handler := false, readable := false, writable := false }

end Descriptor

section Connection

-- `failed` is a failure of socket, setsockopt or fcntl.
inductive ConnectOutcome where
  | failed
  | refused
  | connected (fd : Nat) (socketBufferSize : Option Nat)

def sendQueueConnect (sq : SendQueue) : ConnectOutcome → Int × SendQueue
  | .failed => (-1,{ sq with runningTimer := false, serverSocket := none })
  | .refused => (0,{ sq with runningTimer := false, serverSocket := none })
  | .connected fd socketBufferSize =>
    let sq := setFdHandler { sq with runningTimer := false, serverSocket := some fd } fd
    let sq := setReadable sq true
    let sq := if sizeofMessageHeader ≤ sq.buffer.dataLength then setWritable sq true else sq
    (1,{ sq with socketBufferSize := socketBufferSize.getD 0 })

def reconnectDelay (refusedCount : Nat) : Int :=
  1 <<< (if refusedCount > 4 then 4 else refusedCount - 1)

variable (id : QueueId) (s : Station) (outcome : ConnectOutcome)

def sendQueueConnectTimer : Int × Station :=
  if s.sq.serverSocket.isSome then (1,s)
  else
    let s := if s.sq.runningTimer then
        ⟨{ s.sq with runningTimer := false },s.timers.erase id⟩
      else s
    match sendQueueConnect s.sq outcome with
    | (1,sq) => (1,⟨{ sq with refusedCount := 0, reconnectInterval := 0 },s.timers⟩)
    | (0,sq) =>
      let sq := { sq with refusedCount := sq.refusedCount + 1 }
      let sq := { sq with reconnectInterval := reconnectDelay sq.refusedCount, runningTimer := true }
      (0,⟨sq,id :: s.timers⟩)
    | (_,sq) => (-1,⟨{ sq with reconnectInterval := -1 },s.timers⟩)

-- The timer event that fires is a one-shot event: it is gone once its callback has run.
def sendQueueConnectTimeout : Int × Station :=
  sendQueueConnectTimer id ⟨{ s.sq with runningTimer := false },s.timers.erase id⟩ outcome

def sendQueueTryConnect : Int × Station :=
  if s.sq.reconnectInterval ≠ 0 then (0,s) else sendQueueConnectTimer id s outcome

-- The buffer is allocated after the first connection attempt; an attempt with no buffer does the same
-- as one with an empty buffer.
def createSendQueue (heap : Nat → UInt8) (timers : List QueueId) : Option Station :=
  match sendQueueTryConnect id
    ⟨⟨none,0,0,createMessageBuffer heap messengerSendQueueLength,false,0,0,0,false,false,false⟩,timers⟩
    outcome with
  | (-1,_) => none
  | (_,s) => some s

-- The armed timers once that of the queue has been removed.
def disarmed : List QueueId := if s.sq.runningTimer then s.timers.erase id else s.timers

def connectedQueue (sq : SendQueue) (fd : Nat) (socketBufferSize : Option Nat) : SendQueue :=
  { sq with
    serverSocket := some fd, refusedCount := 0, reconnectInterval := 0, runningTimer := false,
    socketBufferSize := socketBufferSize.getD 0, handler := decide (fd < fdSetSize),
    readable := decide (fd < fdSetSize),
    writable := decide (fd < fdSetSize) && decide (sizeofMessageHeader ≤ sq.buffer.dataLength) }

variable {id s}

theorem connectTimer_open (h : s.sq.serverSocket.isSome) : sendQueueConnectTimer id s outcome = (1,s) := by
  rw [sendQueueConnectTimer,if_pos h]

theorem connectTimer_failed (h : s.sq.serverSocket = none) :
    sendQueueConnectTimer id s .failed =
      (-1,⟨{ s.sq with serverSocket := none, runningTimer := false, reconnectInterval := -1 },
        disarmed id s⟩) := by
  rw [sendQueueConnectTimer,disarmed,if_neg (by simp [h])]
  cases s.sq.runningTimer <;> rfl

theorem connectTimer_refused (h : s.sq.serverSocket = none) :
    sendQueueConnectTimer id s .refused =
      (0,⟨{ s.sq with
        serverSocket := none, runningTimer := true, refusedCount := s.sq.refusedCount + 1,
        reconnectInterval := reconnectDelay (s.sq.refusedCount + 1) },id :: disarmed id s⟩) := by
  rw [sendQueueConnectTimer,disarmed,if_neg (by simp [h])]
  cases s.sq.runningTimer <;> rfl

theorem connect_connected (sq : SendQueue) (fd : Nat) (socketBufferSize : Option Nat) :
    sendQueueConnect sq (.connected fd socketBufferSize) =
      (1,{ connectedQueue sq fd socketBufferSize with
        refusedCount := sq.refusedCount, reconnectInterval := sq.reconnectInterval }) := by
  by_cases hfd : fd < fdSetSize
  · by_cases hdata : sizeofMessageHeader ≤ sq.buffer.dataLength
    · simp [sendQueueConnect,connectedQueue,setFdHandler,setReadable,setWritable,hfd,hdata]
    · simp [sendQueueConnect,connectedQueue,setFdHandler,setReadable,hfd,hdata]
  · by_cases hdata : sizeofMessageHeader ≤ sq.buffer.dataLength
    · simp [sendQueueConnect,connectedQueue,setFdHandler,setReadable,setWritable,hfd,hdata]
    · simp [sendQueueConnect,connectedQueue,setFdHandler,setReadable,hfd,hdata]

theorem connectTimer_connected (h : s.sq.serverSocket = none) (fd : Nat) (socketBufferSize : Option Nat) :
    sendQueueConnectTimer id s (.connected fd socketBufferSize) =
      (1,⟨connectedQueue s.sq fd socketBufferSize,disarmed id s⟩) := by
  rw [sendQueueConnectTimer,disarmed,if_neg (by simp [h])]
  simp only [connect_connected]
  cases s.sq.runningTimer <;> rfl

variable (id s)

theorem buffer_connectTimer : (sendQueueConnectTimer id s outcome).2.sq.buffer = s.sq.buffer := by
  cases hopen : s.sq.serverSocket with
  | some fd => rw [connectTimer_open outcome (by simp [hopen])]
  | none =>
    cases outcome with
    | failed => rw [connectTimer_failed hopen]
    | refused => rw [connectTimer_refused hopen]
    | connected fd size =>
      rw [connectTimer_connected hopen]
      rfl

theorem buffer_tryConnect : (sendQueueTryConnect id s outcome).2.sq.buffer = s.sq.buffer := by
  rw [sendQueueTryConnect]
  split
  · rfl
  · exact buffer_connectTimer id s outcome

end Connection

section Sending

inductive SendResult where
  | sent
  | again
  | tooBig
  | failed
deriving DecidableEq, Repr

-- What the system answers in one round of the send loop: SIOCOUTQ (none if the call fails), then send.
structure SendOutcome where
  used : Option Nat
  result : SendResult

inductive Output where
  | packet (bytes : Bytes) (result : SendResult)
  | dropped (bytes : Bytes)
  | cleared (bytes : Bytes)

def bucketSize (socketBufferSize : Nat) (used : Option Nat) : Nat :=
  if socketBufferSize ≠ 0 then
    match used with
    | none => messengerBucketSize
    | some used =>
      if used < socketBufferSize then
        min (2 * (socketBufferSize - used) % 4294967296) messengerBucketSize
      else 1
  else messengerBucketSize

def getSendDataLoop (buf : MessageBuffer) (bucket : Nat) : Nat → Nat → Nat → Except Fault Nat
  | 0, _, _ => .error .outOfFuel
  | fuel + 1, offset, length =>
    if sizeofMessageHeader ≤ subSize buf.dataLength offset then
      let messageLength := (be32 buf.buffer (buf.headOffset + offset + 4)).toNat
      if messageLength = 0 then .error .assertionFailed
      else if ¬ messageLength < messengerRecvQueueLength then .error .assertionFailed
      else if length + messageLength > bucket then
        .ok (if length = 0 then messageLength else length)
      else getSendDataLoop buf bucket fuel (offset + messageLength) (length + messageLength)
    else .ok length

def getSendData (sq : SendQueue) (used : Option Nat) (offset : Nat) : Except Fault Nat :=
  getSendDataLoop sq.buffer (bucketSize sq.socketBufferSize used) (sq.buffer.dataLength + 1) offset 0

-- The packets of one call with their results, the bytes that were sent, and the error that ended it.
structure Sent where
  outputs : List Output
  total : Nat
  stopped : Option SendResult

def sendLoop (sq : SendQueue) : Nat → (Nat → SendOutcome) → Nat → Except Fault Sent
  | 0, _, _ => .error .outOfFuel
  | fuel + 1, outcome, total =>
    match getSendData sq (outcome 0).used total with
    | .error e => .error e
    | .ok 0 => .ok ⟨[],total,none⟩
    | .ok sendLen =>
      let sendData := slice sq.buffer.buffer (sq.buffer.headOffset + total) sendLen
      match (outcome 0).result with
      | .sent =>
        match sendLoop sq fuel (fun n => outcome (n + 1)) (total + sendLen) with
        | .error e => .error e
        | .ok r => .ok ⟨.packet sendData .sent :: r.outputs,r.total,r.stopped⟩
      | result => .ok ⟨[.packet sendData result],total,some result⟩

variable (id : QueueId) (s : Station) (sends : Nat → SendOutcome) (outcome : ConnectOutcome)

def onSendWrite : Except Fault (List Output × Station) :=
  if s.sq.buffer.dataLength < sizeofMessageHeader then .ok ([],⟨setWritable s.sq false,s.timers⟩)
  else
    match sendLoop s.sq (s.sq.buffer.dataLength + 1) sends 0 with
    | .error e => .error e
    | .ok r =>
      match r.stopped with
      | none =>
        let sq := { s.sq with buffer := truncateMessageBuffer s.sq.buffer r.total }
        .ok (r.outputs,⟨if sq.buffer.dataLength = 0 then setWritable sq false else sq,s.timers⟩)
      | some result =>
        let s := if result ≠ .again then
            (sendQueueTryConnect id ⟨{ closeSocket s.sq with refusedCount := 0 },s.timers⟩ outcome).2
          else s
        let buf := truncateMessageBuffer s.sq.buffer r.total
        if result = .tooBig then
          .ok (r.outputs ++ [.dropped buf.contents],
            ⟨{ s.sq with buffer := truncateMessageBuffer buf buf.dataLength },s.timers⟩)
        else .ok (r.outputs,⟨{ s.sq with buffer := buf },s.timers⟩)

-- `none`: the connection was closed while nothing was queued, and the queue is deleted.
def onSendRead (received : Bool) : Option Station :=
  if received then some s
  else
    let sq := closeSocket s.sq
    if sq.buffer.dataLength > 0 then some (sendQueueTryConnect id ⟨sq,s.timers⟩ outcome).2
    else none

def pushMessage (m : Message) : Except Fault (Bool × List Output × Station) :=
  let sq := s.sq
  if messageBufferRemainBytes sq.buffer < m.length.toNat then
    let total := sq.overflowTotalLength + m.length.toUInt64
    .ok (false,[],⟨{ sq with overflow := sq.overflow + 1, overflowTotalLength := total },s.timers⟩)
  else
    let buf := (writeMessageBuffer sq.buffer m.header).2
    let buf := (writeMessageBuffer buf m.data).2
    let sq := { sq with overflow := 0, overflowTotalLength := 0, buffer := buf }
    if sq.serverSocket.isNone then .ok (true,[],(sendQueueTryConnect id ⟨sq,s.timers⟩ outcome).2)
    else
      let sq := setWritable sq true
      if sq.buffer.dataLength > messengerSendLengthForFlush then
        match onSendWrite id ⟨sq,s.timers⟩ sends outcome with
        | .error e => .error e
        | .ok (outputs,s) => .ok (true,outputs,s)
      else .ok (true,[],⟨sq,s.timers⟩)

def clearSendQueue : List Output × Station :=
  let sq := if s.sq.buffer.dataLength > 0 then setWritable s.sq false else s.sq
  ([.cleared s.sq.buffer.contents],⟨{ sq with buffer := s.sq.buffer.cleared },s.timers⟩)

end Sending

end Trema.Messenger
