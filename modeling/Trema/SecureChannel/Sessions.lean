import Trema.SecureChannel.Framing

namespace Trema.SecureChannel

open Library
open OpenFlow (Exec validMessageVersion)

section Sessions

inductive Side where
  | daemon
  | switch
deriving DecidableEq, Repr

def Side.accepts : Side → UInt8 → UInt8 → Bool
  | .daemon => validMessageVersion
  | .switch => fun _ _ => true

structure Session where
  receiver : Receiver
  enqueued : List Bytes
  ended : Bool
deriving DecidableEq, Repr

def Receiver.init : Receiver := ⟨createMessageQueue,none⟩

def Session.init : Session := ⟨Receiver.init,[],false⟩

def record (message : Buffer) (messages : List Bytes) : Exec (List Bytes) :=
  pure (messages ++ [message.bytes])

def Receiver.kept (r : Receiver) : Bytes :=
  match r.fragmentBuf with
  | some fragment => fragment.bytes
  | none => []

def ReadResult.chunk : ReadResult → Bytes
  | .data bytes => bytes
  | _ => []

def stream (reads : List ReadResult) : Bytes := reads.flatMap ReadResult.chunk

variable (heap : Nat → UInt8) (side : Side)

def readEvent (s : Session) (read : ReadResult) : Exec Session :=
  if s.ended then pure s
  else do
    let received ← recvFromSecureChannel heap side.accepts s.receiver read
    let queue := received.2.recvQueue
    let drained ← drainQueue record queue.elements.length queue s.enqueued
    pure ⟨{ received.2 with recvQueue := drained.1 },drained.2,received.1 != .done⟩

def readEvents : Session → List ReadResult → Exec Session
  | s, [] => pure s
  | s, read :: reads => do
    let s ← readEvent heap side s read
    readEvents s reads

-- What read() may answer to a request: some bytes, not more than asked for, or EAGAIN.
def Answers (r : Receiver) : ReadResult → Prop
  | .data bytes => bytes ≠ [] ∧ ∀ n, requestedSize heap r = .ok n → bytes.length ≤ n
  | .again => True
  | .failed => False
  | .closed => False

def Answered : Session → List ReadResult → Prop
  | _, [] => True
  | s, read :: reads => Answers heap s.receiver read ∧
      ∀ t, readEvent heap side s read = .ok t → Answered t reads

variable {heap side}

theorem handleAll_record (messages acc : List Bytes) :
    handleAll record (messages.map Buffer.ofBytes) acc = .ok (acc ++ messages) := by
  induction messages generalizing acc with
  | nil => simp [handleAll,pure_eq_ok]
  | cons m messages ih =>
    simp only [List.map_cons,handleAll,record,bytes_ofBytes,pure_eq_ok,ok_bind,ih]
    simp

theorem Receiver.Keeps.kept_eq {r : Receiver} {rest : Bytes} (h : r.Keeps rest) : r.kept = rest := by
  rw [Receiver.kept]
  cases hb : r.fragmentBuf with
  | some b => exact (h.some_kept b hb).2.2.2
  | none => exact (h.none_kept hb).symm

def Accepted (side : Side) (m : Bytes) : Prop := supported side.accepts m = true

def Supported (m : Bytes) : Prop := supported validMessageVersion m = true

instance (m : Bytes) : Decidable (Supported m) := inferInstanceAs (Decidable (_ = _))

theorem Supported.accepted {m : Bytes} (h : Supported m) (side : Side) : Accepted side m := by
  cases side with
  | daemon => exact h
  | switch => rfl

theorem accepted_stable (side : Side) (s t : Bytes) (h : 8 ≤ s.length) :
    Accepted side (s ++ t) ↔ Accepted side s := by
  rw [Accepted,Accepted,supported_append _ t h]

theorem checked_frames_eq {s : Bytes} (h : ofpFramer.Headed (Accepted side) s) :
    (checkedFramer side.accepts).frames s = ofpFramer.frames s := by
  induction s using ofpFramer.frames_induction with
  | stop s hc =>
    rw [Framer.frames_of_not_complete hc]
    refine Framer.frames_of_not_complete fun hchecked => hc ?_
    obtain ⟨hhead,_,hpos,hle⟩ := checkedFramer_complete.mp hchecked
    exact ⟨hhead,hpos,hle⟩
  | next s hc ih =>
    have hfirst := (h.first (accepted_stable side) hc.1).2
    have hchecked : (checkedFramer side.accepts).Complete s :=
      checkedFramer_complete.mpr ⟨hc.1,hfirst,hc.2⟩
    have hsize : (checkedFramer side.accepts).size s = ofpFramer.size s :=
      checkedFramer_size hfirst
    rw [Framer.frames_of_complete hc,Framer.frames_of_complete hchecked,hsize,ih (h.drop hc)]

theorem rest_lt {P : Bytes → Prop} {s : Bytes} (h : ofpFramer.Headed P s) :
    (ofpFramer.frames s).2.length < 65535 := by
  by_contra hlong
  have hhead : 8 ≤ (ofpFramer.frames s).2.length := by omega
  have hsize := (h.2 hhead).1
  have hlt := messageLength_lt (ofpFramer.frames s).2
  have hc : ofpFramer.Complete (ofpFramer.frames s).2 := by
    refine ⟨hhead,Nat.lt_of_lt_of_le (by decide) hsize,?_⟩
    exact Nat.le_trans (Nat.le_of_lt_succ hlt) (by omega)
  exact Framer.rest_not_complete s hc

theorem headed_not_stuck {s : Bytes} (h : ofpFramer.Headed (Accepted side) s) :
    ¬ Stuck side.accepts (ofpFramer.frames s).2 ∧ ¬ Refused side.accepts (ofpFramer.frames s).2 := by
  refine ⟨fun hstuck => ?_,fun hrefused => ?_⟩
  · have hsize : 8 ≤ messageLength (ofpFramer.frames s).2 := (h.2 hstuck.1).1
    have := hstuck.2.2
    omega
  · have hsup : supported side.accepts (ofpFramer.frames s).2 = true := (h.2 hrefused.1).2
    exact absurd (hsup.symm.trans hrefused.2) (by simp)

-- A receiver that has read the given bytes and handed on their complete messages.
structure Receiver.Read (r : Receiver) (read : Bytes) : Prop where
  drained : Holds r.recvQueue []
  keeps : r.Keeps (ofpFramer.frames read).2

theorem Receiver.Read.requested {r : Receiver} {P : Bytes → Prop} {read : Bytes}
    (heap : Nat → UInt8) (h : r.Read read) (hheaded : ofpFramer.Headed P read) :
    ∃ n, requestedSize heap r = .ok n ∧ 0 < n ∧
      (ofpFramer.frames read).2.length + n = receiveBufferSize := by
  have hlt := rest_lt hheaded
  have hsize : receiveBufferSize = 65553 := rfl
  refine ⟨_,requestedSize_eq h.keeps (by omega),?_,?_⟩
  · omega
  · omega

theorem Receiver.Read.data {r : Receiver} {read bytes : Bytes} (h : r.Read read)
    (hheaded : ofpFramer.Headed (Accepted side) (read ++ bytes))
    (hanswer : Answers heap r (.data bytes)) :
    ∃ r', recvFromSecureChannel heap side.accepts r (.data bytes) = .ok (.done,r') ∧
      Holds r'.recvQueue
        ((ofpFramer.frames ((ofpFramer.frames read).2 ++ bytes)).1.map Buffer.ofBytes) ∧
      r'.Keeps (ofpFramer.frames (read ++ bytes)).2 := by
  obtain ⟨n,hn,_,hroom⟩ := h.requested heap (hheaded.of_append (accepted_stable side))
  have hfits := hanswer.2 n hn
  have heq := checked_frames_eq hheaded.rest
  obtain ⟨hstuck,hrefused⟩ := headed_not_stuck hheaded.rest
  have hspec := (receive_spec heap side.accepts bytes h.keeps h.drained (by omega)).2
  rw [heq] at hspec
  obtain ⟨result,r',hrecv,hqueue,_,hdone⟩ := hspec hstuck
  obtain ⟨rfl,hkeeps⟩ := hdone hrefused
  rw [ofpFramer.frames_append read bytes]
  exact ⟨r',hrecv,hqueue,hkeeps⟩

theorem Receiver.Read.other (heap : Nat → UInt8) {r : Receiver} {read : Bytes} (h : r.Read read) :
    ∃ b, (∀ valid,
      recvFromSecureChannel heap valid r .again = .ok (.done,⟨r.recvQueue,some b⟩) ∧
      recvFromSecureChannel heap valid r .failed = .ok (.failed,⟨r.recvQueue,some b⟩) ∧
      recvFromSecureChannel heap valid r .closed = .ok (.closed,⟨r.recvQueue,some b⟩)) ∧
      Receiver.Read ⟨r.recvQueue,some b⟩ read := by
  obtain ⟨b,hrecv,hkept⟩ := recv_other heap h.keeps h.drained
  exact ⟨b,hrecv,h.drained,hkept⟩

theorem Receiver.Read.of_drained {r : Receiver} {queue : MessageQueue Buffer} {read : Bytes}
    (hqueue : Holds queue []) (h : r.Keeps (ofpFramer.frames read).2) :
    Receiver.Read { r with recvQueue := queue } read :=
  ⟨hqueue,h.none_kept,h.some_kept⟩

theorem read_init : Receiver.init.Read [] :=
  ⟨Holds.create,fun _ => rfl,fun b hb => by simp [Receiver.init] at hb⟩

structure Framed (s : Session) (read : Bytes) : Prop where
  running : s.ended = false
  receiver : s.receiver.Read read
  enqueued : s.enqueued = (ofpFramer.frames read).1

theorem framed_init : Framed Session.init [] := ⟨rfl,read_init,rfl⟩

theorem Framed.data {s : Session} {read bytes : Bytes} (h : Framed s read)
    (hheaded : ofpFramer.Headed (Accepted side) (read ++ bytes))
    (hanswer : Answers heap s.receiver (.data bytes)) :
    ∃ t, readEvent heap side s (.data bytes) = .ok t ∧ Framed t (read ++ bytes) := by
  obtain ⟨r',hrecv,hqueue,hkeeps⟩ := h.receiver.data hheaded hanswer
  obtain ⟨drained,hdrained,hrun⟩ := drainQueue_eq hqueue hqueue.length_lt
  have happend := ofpFramer.frames_append read bytes
  refine ⟨⟨{ r' with recvQueue := drained },s.enqueued ++
    (ofpFramer.frames ((ofpFramer.frames read).2 ++ bytes)).1,false⟩,?_,rfl,
    .of_drained hdrained hkeeps,?_⟩
  · rw [readEvent,h.running]
    simp only [Bool.false_eq_true,if_false,hrecv,ok_bind,hrun,handleAll_record,pure_eq_ok]
    rfl
  · rw [happend,h.enqueued]

theorem Framed.again {s : Session} {read : Bytes} (h : Framed s read) :
    ∃ t, readEvent heap side s .again = .ok t ∧ Framed t read := by
  obtain ⟨b,hrecv,hread⟩ := h.receiver.other heap
  obtain ⟨drained,hdrained,hrun⟩ := drainQueue_eq hread.drained hread.drained.length_lt
  refine ⟨⟨⟨drained,some b⟩,s.enqueued,false⟩,?_,rfl,.of_drained hdrained hread.keeps,h.enqueued⟩
  rw [readEvent,h.running]
  simp only [Bool.false_eq_true,if_false,(hrecv side.accepts).1,ok_bind,hrun,handleAll,pure_eq_ok]
  rfl

theorem Framed.step {s : Session} {read : Bytes} {first : ReadResult} (h : Framed s read)
    (hheaded : ofpFramer.Headed (Accepted side) (read ++ first.chunk))
    (hanswers : Answers heap s.receiver first) :
    ∃ t, readEvent heap side s first = .ok t ∧ Framed t (read ++ first.chunk) := by
  cases first with
  | data bytes => exact h.data hheaded hanswers
  | again => simpa [ReadResult.chunk] using h.again
  | failed => exact hanswers.elim
  | closed => exact hanswers.elim

theorem stream_cons (read : Bytes) (first : ReadResult) (reads : List ReadResult) :
    read ++ stream (first :: reads) = (read ++ first.chunk) ++ stream reads := by
  simp [stream]

theorem Framed.run {s : Session} {read : Bytes} (h : Framed s read) (reads : List ReadResult)
    (hheaded : ofpFramer.Headed (Accepted side) (read ++ stream reads))
    (hanswered : Answered heap side s reads) :
    ∃ t, readEvents heap side s reads = .ok t ∧ Framed t (read ++ stream reads) := by
  induction reads generalizing s read with
  | nil => exact ⟨s,rfl,by simpa [stream] using h⟩
  | cons first reads ih =>
    rw [stream_cons] at hheaded ⊢
    obtain ⟨t,hstep,ht⟩ := h.step (hheaded.of_append (accepted_stable side)) hanswered.1
    obtain ⟨u,hrun,hu⟩ := ih ht hheaded (hanswered.2 t hstep)
    exact ⟨u,by rw [readEvents,hstep,ok_bind,hrun],hu⟩

variable (heap side) in
theorem frames_independent_of_reads (reads : List ReadResult)
    (hheaded : ofpFramer.Headed Supported (stream reads))
    (hanswered : Answered heap side Session.init reads) :
    ∃ s, readEvents heap side Session.init reads = .ok s ∧ s.ended = false ∧
      s.enqueued = (ofpFramer.frames (stream reads)).1 ∧
      s.receiver.kept = (ofpFramer.frames (stream reads)).2 ∧
      s.enqueued.flatten ++ s.receiver.kept = stream reads ∧
      (∀ m ∈ s.enqueued, m.length = (be16 m 2).toNat) ∧
      (s.receiver.kept.length < 8 ∨ s.receiver.kept.length < (be16 s.receiver.kept 2).toNat) ∧
      ∃ n, requestedSize heap s.receiver = .ok n ∧ 0 < n := by
  have haccepted := hheaded.mono fun _ hm => hm.accepted side
  obtain ⟨s,hrun,hs⟩ := framed_init.run reads (by simpa using haccepted) hanswered
  rw [List.nil_append] at hs
  have hkept := hs.receiver.keeps.kept_eq
  obtain ⟨n,hn,hpos,_⟩ := hs.receiver.requested heap hheaded
  refine ⟨s,hrun,hs.running,hs.enqueued,hkept,?_,?_,?_,n,hn,hpos⟩
  · rw [hs.enqueued,hkept]
    exact ofpFramer.frames_flatten (stream reads)
  · intro m hm
    rw [hs.enqueued] at hm
    exact (Framer.size_of_mem hm (hheaded.1 m hm).1).symm
  · rw [hkept]
    by_contra hboth
    obtain ⟨hhead,hlong⟩ := not_or.mp hboth
    have hsize := (hheaded.2 (not_lt.mp hhead)).1
    exact Framer.rest_not_complete (stream reads)
      ⟨not_lt.mp hhead,Nat.lt_of_lt_of_le (by decide) hsize,not_lt.mp hlong⟩

def Small : ReadResult → Prop
  | .data bytes => bytes ≠ [] ∧ bytes.length ≤ 18
  | .again => True
  | .failed => False
  | .closed => False

theorem Receiver.Read.answers (heap : Nat → UInt8) {P : Bytes → Prop} {r : Receiver}
    {read bytes : Bytes} (h : r.Read read) (hheaded : ofpFramer.Headed P read)
    (hsmall : Small (.data bytes)) : Answers heap r (.data bytes) := by
  obtain ⟨n,hn,_,hroom⟩ := h.requested heap hheaded
  have hlt := rest_lt hheaded
  have hsize : receiveBufferSize = 65553 := rfl
  refine ⟨hsmall.1,fun k hk => ?_⟩
  rw [hn] at hk
  injection hk with hk
  have := hsmall.2
  omega

theorem Framed.answers (heap : Nat → UInt8) {P : Bytes → Prop} {s : Session} {read : Bytes}
    (h : Framed s read) (hheaded : ofpFramer.Headed P read) {first : ReadResult}
    (hsmall : Small first) : Answers heap s.receiver first := by
  cases first with
  | data bytes => exact h.receiver.answers heap hheaded hsmall
  | again => trivial
  | failed => exact hsmall
  | closed => exact hsmall

theorem Framed.answered (heap : Nat → UInt8) (side : Side) {s : Session} {read : Bytes} (h : Framed s read) (reads : List ReadResult)
    (hheaded : ofpFramer.Headed (Accepted side) (read ++ stream reads))
    (hsmall : ∀ first ∈ reads, Small first) : Answered heap side s reads := by
  induction reads generalizing s read with
  | nil => trivial
  | cons first reads ih =>
    rw [stream_cons] at hheaded
    have hnext := hheaded.of_append (accepted_stable side)
    have hanswers := h.answers heap (hnext.of_append (accepted_stable side))
      (hsmall first List.mem_cons_self)
    refine ⟨hanswers,fun t hstep => ?_⟩
    obtain ⟨u,hu,hframed⟩ := h.step hnext hanswers
    rw [hstep] at hu
    injection hu with hu
    subst hu
    exact ih hframed hheaded fun other hother => hsmall other (List.mem_cons_of_mem _ hother)

end Sessions

def splitHello : List ReadResult :=
  [.data [1,0,0],.again,.data [8,0,0,0],.data [7,1,2]]

theorem frames_splitHello :
    ofpFramer.frames (stream splitHello) = ([[1,0,0,8,0,0,0,7]],[1,2]) := by decide

theorem headed_splitHello : ofpFramer.Headed Supported (stream splitHello) := by
  rw [Framer.Headed,frames_splitHello]
  refine ⟨fun m hm => ?_,fun h => absurd h (by decide)⟩
  rw [List.mem_singleton.mp hm]
  exact ⟨by decide,by decide⟩

theorem frames_independent_of_reads_hello :
    ∃ s, readEvents (fun _ => 0) .daemon Session.init splitHello = .ok s ∧
      s.enqueued = [[1,0,0,8,0,0,0,7]] ∧ s.receiver.kept = [1,2] := by
  have hsmall : ∀ first ∈ splitHello, Small first := by
    intro first hfirst
    simp only [splitHello,List.mem_cons,List.not_mem_nil,or_false] at hfirst
    rcases hfirst with rfl | rfl | rfl | rfl
    · exact ⟨by simp,by decide⟩
    · trivial
    · exact ⟨by simp,by decide⟩
    · exact ⟨by simp,by decide⟩
  have hanswered := framed_init.answered (fun _ => 0) .daemon splitHello headed_splitHello
    hsmall
  obtain ⟨s,hrun,_,henqueued,hkept,_⟩ :=
    frames_independent_of_reads (fun _ => 0) .daemon splitHello headed_splitHello hanswered
  rw [frames_splitHello] at henqueued hkept
  exact ⟨s,hrun,henqueued,hkept⟩

end Trema.SecureChannel
