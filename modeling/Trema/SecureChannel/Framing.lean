import Trema.SecureChannel.Receiver

namespace Trema.SecureChannel

open Library
open OpenFlow (Exec xmalloc)

section Framer

def messageLength (s : Bytes) : Nat := (be16 s 2).toNat

def supported (valid : UInt8 → UInt8 → Bool) (s : Bytes) : Bool :=
  valid (hostByte s 1) (hostByte s 0)

theorem messageLength_lt (s : Bytes) : messageLength s < 65536 := (be16 s 2).toNat_lt

theorem messageLength_append {s : Bytes} (t : Bytes) (h : 8 ≤ s.length) :
    messageLength (s ++ t) = messageLength s := by
  rw [messageLength,messageLength,be16,be16,slice_append_left (by omega)]

theorem supported_append (valid : UInt8 → UInt8 → Bool) {s : Bytes} (t : Bytes)
    (h : 8 ≤ s.length) : supported valid (s ++ t) = supported valid s := by
  rw [supported,supported,hostByte,hostByte,hostByte,hostByte,slice_append_left (by omega),
    slice_append_left (by omega)]

def ofpFramer : Framer UInt8 where
  head := 8
  size := messageLength
  size_append _ t h := messageLength_append t h

-- A header with a version that is refused ends the framing.
def checkedFramer (valid : UInt8 → UInt8 → Bool) : Framer UInt8 where
  head := 8
  size s := if supported valid s then messageLength s else 0
  size_append s t h := by rw [supported_append valid t h,messageLength_append t h]

end Framer

section Cutting

variable (heap : Nat → UInt8) (valid : UInt8 → UInt8 → Bool)

theorem copyMessage_ok {fragment : Buffer} {n : Nat} (h : fragment.Inside) (hpos : 0 < n)
    (hle : n ≤ fragment.length) :
    copyMessage heap fragment n = .ok (Buffer.ofBytes (fragment.bytes.take n)) := by
  have hfits := h.fits
  have hslice : slice fragment.top fragment.data n = fragment.bytes.take n := by
    rw [Buffer.bytes,slice,slice,List.take_take,Nat.min_eq_left hle]
  have hlen : (fragment.bytes.take n).length = n := by
    rw [List.length_take,h.length_bytes]
    omega
  have hblock := length_xmalloc heap n
  rw [copyMessage,allocBufferWithLength_ok heap hpos,ok_bind,
    appendBackBuffer_ok heap hpos (by simp only [hblock]; omega),ok_bind,load_ok (by omega),ok_bind,
    hslice,store_ok (by simp only [hlen,hblock]; omega),ok_bind,pure_eq_ok]
  simp only [Buffer.ofBytes,hlen,List.take_zero,List.nil_append,Nat.zero_add]
  rw [List.drop_eq_nil_of_le hblock.le,List.append_nil]

theorem copyMessage_zero (fragment : Buffer) : copyMessage heap fragment 0 = .error .aborted := rfl

def Refused (s : Bytes) : Prop := 8 ≤ s.length ∧ supported valid s = false

def Stuck (s : Bytes) : Prop := 8 ≤ s.length ∧ supported valid s = true ∧ messageLength s = 0

instance (s : Bytes) : Decidable (Refused valid s) := inferInstanceAs (Decidable (_ ∧ _))

instance (s : Bytes) : Decidable (Stuck valid s) := inferInstanceAs (Decidable (_ ∧ _))

variable {heap valid}

theorem slice_bytes {b : Buffer} {off n : Nat} (h : off + n ≤ b.length) :
    slice b.top (b.data + off) n = slice b.bytes off n := (slice_slice h).symm

theorem byteAt_bytes {b : Buffer} (hin : b.Inside) {off : Nat} (h : off + 1 ≤ b.length) :
    (byteAt b.top (b.data + off) : Exec UInt8) = .ok (hostByte b.bytes off) := by
  have := hin.fits
  rw [byteAt_inside (by omega),hostByte,hostByte,slice_bytes h]

theorem net16_bytes {b : Buffer} (hin : b.Inside) {off : Nat} (h : off + 2 ≤ b.length) :
    (net16 b.top (b.data + off) : Exec UInt16) = .ok (be16 b.bytes off) := by
  have := hin.fits
  rw [net16_inside (by omega),be16,be16,slice_bytes h]

def Reading.next (s : Reading) (n : Nat) : Reading :=
  ⟨{ s.fragment with data := s.fragment.data + n, length := s.fragment.length - n },
    enqueueMessage s.recvQueue (Buffer.ofBytes (s.fragment.bytes.take n)),s.readTotal + n⟩

theorem cutMessages_short (fuel : Nat) {s : Reading} (h : s.fragment.length < 8) :
    cutMessages heap valid (fuel + 1) s = .ok (true,s) := by
  rw [cutMessages,if_pos h]
  rfl

theorem cutMessages_header (fuel : Nat) {s : Reading} (hin : s.fragment.Inside)
    (h : 8 ≤ s.fragment.length) : cutMessages heap valid (fuel + 1) s =
      if supported valid s.fragment.bytes = false then .ok (false,s)
      else if s.fragment.length < messageLength s.fragment.bytes then .ok (true,s)
      else if messageLength s.fragment.bytes = 0 then .error .aborted
      else cutMessages heap valid fuel (s.next (messageLength s.fragment.bytes)) := by
  have hversion := byteAt_bytes hin (show 0 + 1 ≤ s.fragment.length by omega)
  rw [Nat.add_zero] at hversion
  rw [cutMessages,if_neg (by omega),hversion,ok_bind,byteAt_bytes hin (by omega),ok_bind]
  simp only [pure_eq_ok]
  refine if_congr Iff.rfl rfl ?_
  rw [net16_bytes hin (by omega),ok_bind]
  by_cases hlong : s.fragment.length < messageLength s.fragment.bytes
  · exact (if_pos hlong).trans (if_pos hlong).symm
  · refine (if_neg hlong).trans (Eq.trans ?_ (if_neg hlong).symm)
    split
    · rename_i hzero
      rw [messageLength] at hzero
      rw [hzero,copyMessage_zero]
      rfl
    · rename_i hzero
      rw [messageLength] at hzero hlong
      have hpos : 0 < (be16 s.fragment.bytes 2).toNat := by omega
      rw [copyMessage_ok heap hin hpos (by omega),ok_bind,removeFrontBuffer_ok hpos (by omega),
        ok_bind]
      rfl

structure Cut (s s' : Reading) (messages : List Bytes) (rest : Bytes) : Prop where
  top : s'.fragment.top = s.fragment.top
  data : s'.fragment.data = s.fragment.data + messages.flatten.length
  length : s'.fragment.length = rest.length
  bytes : s'.fragment.bytes = rest
  readTotal : s'.readTotal = s.readTotal + messages.flatten.length
  queue : ∀ held, Holds s.recvQueue held →
    Holds s'.recvQueue (held ++ messages.map Buffer.ofBytes)

theorem Cut.nothing {s : Reading} (hin : s.fragment.Inside) : Cut s s [] s.fragment.bytes :=
  ⟨rfl,rfl,hin.length_bytes.symm,rfl,rfl,fun held h => by simpa using h⟩

theorem Cut.next {s s' : Reading} {n : Nat} {messages : List Bytes} {rest : Bytes}
    (hlen : (s.fragment.bytes.take n).length = n) (h : Cut (s.next n) s' messages rest) :
    Cut s s' (s.fragment.bytes.take n :: messages) rest := by
  refine ⟨h.top,?_,h.length,h.bytes,?_,fun held hold => ?_⟩
  · rw [h.data,List.flatten_cons,List.length_append,hlen,Reading.next]
    simp only
    omega
  · rw [h.readTotal,List.flatten_cons,List.length_append,hlen,Reading.next]
    simp only
    omega
  · have hqueue := h.queue _ (hold.enqueue (Buffer.ofBytes (s.fragment.bytes.take n)))
    simpa using hqueue

theorem checkedFramer_complete {s : Bytes} :
    (checkedFramer valid).Complete s ↔ 8 ≤ s.length ∧ supported valid s = true ∧
      0 < messageLength s ∧ messageLength s ≤ s.length := by
  simp only [Framer.Complete,checkedFramer]
  cases supported valid s with
  | false => simp
  | true => simp

theorem checkedFramer_size {s : Bytes} (h : supported valid s = true) :
    (checkedFramer valid).size s = messageLength s := if_pos h

theorem cutMessages_stop (fuel : Nat) {s : Reading} (hin : s.fragment.Inside)
    (hc : ¬ (checkedFramer valid).Complete s.fragment.bytes) :
    (Stuck valid s.fragment.bytes → cutMessages heap valid (fuel + 1) s = .error .aborted) ∧
    (¬ Stuck valid s.fragment.bytes → cutMessages heap valid (fuel + 1) s =
      .ok (decide (¬ Refused valid s.fragment.bytes),s)) := by
  have hlen := hin.length_bytes
  rw [checkedFramer_complete] at hc
  by_cases hshort : s.fragment.length < 8
  · have hrefused : ¬ Refused valid s.fragment.bytes := fun h => absurd h.1 (by omega)
    rw [cutMessages_short fuel hshort,decide_eq_true hrefused]
    exact ⟨fun h => absurd h.1 (by omega),fun _ => rfl⟩
  · rw [cutMessages_header fuel hin (by omega)]
    cases hsup : supported valid s.fragment.bytes with
    | false =>
      have hrefused : Refused valid s.fragment.bytes := ⟨by omega,hsup⟩
      rw [if_pos rfl,decide_eq_false (not_not_intro hrefused)]
      exact ⟨fun h => absurd (hsup.symm.trans h.2.1) (by simp),fun _ => rfl⟩
    | true =>
      have hrefused : ¬ Refused valid s.fragment.bytes :=
        fun h => absurd (hsup.symm.trans h.2) (by simp)
      rw [if_neg (by simp),decide_eq_true hrefused]
      by_cases hlong : s.fragment.length < messageLength s.fragment.bytes
      · rw [if_pos hlong]
        exact ⟨fun h => absurd h.2.2 (by omega),fun _ => rfl⟩
      · have hzero : messageLength s.fragment.bytes = 0 := by
          by_contra hne
          exact hc ⟨by omega,hsup,by omega,by omega⟩
        have hstuck : Stuck valid s.fragment.bytes := ⟨by omega,hsup,hzero⟩
        rw [if_neg hlong,if_pos hzero]
        exact ⟨fun _ => rfl,fun h => absurd hstuck h⟩

variable (heap valid) in
theorem cutMessages_spec (fuel : Nat) (s : Reading) (hin : s.fragment.Inside)
    (hfuel : s.fragment.length < fuel) :
    (Stuck valid ((checkedFramer valid).frames s.fragment.bytes).2 →
      cutMessages heap valid fuel s = .error .aborted) ∧
    (¬ Stuck valid ((checkedFramer valid).frames s.fragment.bytes).2 →
      ∃ s', cutMessages heap valid fuel s =
          .ok (decide (¬ Refused valid ((checkedFramer valid).frames s.fragment.bytes).2),s') ∧
        Cut s s' ((checkedFramer valid).frames s.fragment.bytes).1
          ((checkedFramer valid).frames s.fragment.bytes).2) := by
  induction fuel generalizing s with
  | zero => omega
  | succ fuel ih =>
    have hlen := hin.length_bytes
    by_cases hc : (checkedFramer valid).Complete s.fragment.bytes
    · rw [Framer.frames_of_complete hc]
      obtain ⟨hhead,hsup,hpos,hle⟩ := checkedFramer_complete.mp hc
      rw [checkedFramer_size hsup]
      have hnext : cutMessages heap valid (fuel + 1) s =
          cutMessages heap valid fuel (s.next (messageLength s.fragment.bytes)) := by
        rw [cutMessages_header fuel hin (by omega),if_neg (by simp [hsup]),if_neg (by omega),
          if_neg (by omega)]
      have hbytes : (s.next (messageLength s.fragment.bytes)).fragment.bytes =
          s.fragment.bytes.drop (messageLength s.fragment.bytes) := bytes_removeFront _ _
      have hinside : (s.next (messageLength s.fragment.bytes)).fragment.Inside :=
        hin.removeFront (by omega)
      have hshorter : (s.next (messageLength s.fragment.bytes)).fragment.length < fuel := by
        simp only [Reading.next]
        omega
      have hrest := ih _ hinside hshorter
      rw [hbytes] at hrest
      rw [hnext]
      refine ⟨hrest.1,fun hstuck => ?_⟩
      obtain ⟨s',hrun,hcut⟩ := hrest.2 hstuck
      exact ⟨s',hrun,hcut.next (by rw [List.length_take]; omega)⟩
    · rw [Framer.frames_of_not_complete hc]
      obtain ⟨hstuck,hstop⟩ := cutMessages_stop fuel hin hc
      exact ⟨hstuck,fun h => ⟨s,hstop h,Cut.nothing hin⟩⟩

end Cutting

section Receiving

structure Receiver.Keeps (r : Receiver) (rest : Bytes) : Prop where
  none_kept : r.fragmentBuf = none → rest = []
  some_kept : ∀ b, r.fragmentBuf = some b → b.top.length = receiveBufferSize ∧ b.data = 0 ∧
    b.length = rest.length ∧ b.bytes = rest

variable {heap : Nat → UInt8} {valid : UInt8 → UInt8 → Bool} {r : Receiver} {rest : Bytes}

theorem allocated_empty (heap : Nat → UInt8) {size : Nat} (hpos : 0 < size) :
    ∃ b, allocBufferWithLength heap size = .ok b ∧ b.top.length = size ∧ b.data = 0 ∧
      b.length = 0 ∧ b.bytes = [] :=
  ⟨_,allocBufferWithLength_ok heap hpos,length_xmalloc heap size,rfl,rfl,by simp [Buffer.bytes,slice]⟩

theorem Receiver.Keeps.fragment (heap : Nat → UInt8) (h : r.Keeps rest) :
    ∃ b, r.fragment heap = .ok b ∧ b.top.length = receiveBufferSize ∧ b.data = 0 ∧
      b.length = rest.length ∧ b.bytes = rest := by
  rw [Receiver.fragment]
  cases hb : r.fragmentBuf with
  | some b => exact ⟨b,rfl,h.some_kept b hb⟩
  | none =>
    rw [h.none_kept hb]
    have hpos : 0 < receiveBufferSize := by decide
    exact allocated_empty heap hpos

theorem requestedSize_eq (h : r.Keeps rest) (hle : rest.length ≤ receiveBufferSize) :
    requestedSize heap r = .ok (receiveBufferSize - rest.length) := by
  obtain ⟨b,hb,_,_,hlen,_⟩ := h.fragment heap
  rw [requestedSize,hb,ok_bind,remainingLength,hlen,OpenFlow.subSize_of_le hle]
  rfl

theorem removeHeadroom_spec {fragment : Buffer} {readTotal : Nat} (hin : fragment.Inside)
    (hdata : fragment.data = readTotal) : ∃ b, removeHeadroom fragment readTotal = .ok b ∧
      b.top.length = fragment.top.length ∧ b.data = 0 ∧ b.length = fragment.length ∧
      b.bytes = fragment.bytes := by
  have hfits := hin.fits
  rw [removeHeadroom]
  split
  · have hlen := hin.length_bytes
    rw [load_ok hfits,ok_bind,if_neg (by omega),hdata,Nat.sub_self]
    rw [Buffer.bytes,hdata] at hlen
    rw [store_ok (by omega),ok_bind]
    refine ⟨_,rfl,?_,rfl,rfl,?_⟩
    · simp only [List.take_zero,List.nil_append,List.length_append,List.length_drop]
      omega
    · simp only [Buffer.bytes,List.take_zero,List.nil_append,hdata]
      rw [slice_append_left (by omega)]
      exact slice_whole hlen
  · exact ⟨fragment,rfl,rfl,by omega,rfl,rfl⟩

theorem store_behind {b : Buffer} (bytes : Bytes) (hin : b.Inside)
    (hfits : b.data + b.length + bytes.length ≤ b.top.length) :
    ∃ top, (store b.top (b.data + b.length) bytes : Exec Bytes) = .ok top ∧
      top.length = b.top.length ∧
      slice top b.data (b.length + bytes.length) = b.bytes ++ bytes := by
  refine ⟨_,store_ok hfits,?_,?_⟩
  · simp only [List.length_append,List.length_take,List.length_drop]
    omega
  · have hbytes := hin.length_bytes
    have hfront : (b.top.take (b.data + b.length)).length = b.data + b.length := by
      rw [List.length_take]
      omega
    apply slice_join
    · rw [List.append_assoc,slice_append_left (by omega),Buffer.bytes,slice,slice,List.drop_take,
        List.take_take]
      congr 1
      omega
    · rw [List.append_assoc,slice_append_right _ (by omega),hfront,Nat.sub_self,
        slice_append_left (by omega)]
      exact slice_whole rfl

variable (heap valid) in
theorem receive_spec (bytes : Bytes) (hkeeps : r.Keeps rest) (hqueue : Holds r.recvQueue [])
    (hfits : rest.length + bytes.length ≤ receiveBufferSize) :
    (Stuck valid ((checkedFramer valid).frames (rest ++ bytes)).2 →
      recvFromSecureChannel heap valid r (.data bytes) = .error .aborted) ∧
    (¬ Stuck valid ((checkedFramer valid).frames (rest ++ bytes)).2 → ∃ result r',
      recvFromSecureChannel heap valid r (.data bytes) = .ok (result,r') ∧
      Holds r'.recvQueue (((checkedFramer valid).frames (rest ++ bytes)).1.map Buffer.ofBytes) ∧
      (Refused valid ((checkedFramer valid).frames (rest ++ bytes)).2 → result = .badVersion) ∧
      (¬ Refused valid ((checkedFramer valid).frames (rest ++ bytes)).2 → result = .done ∧
        r'.Keeps ((checkedFramer valid).frames (rest ++ bytes)).2)) := by
  obtain ⟨b,hb,hsize,hdata,hlen,hrest⟩ := hkeeps.fragment heap
  have hin : b.Inside := ⟨by omega⟩
  obtain ⟨top,hstore,htop,hslice⟩ := store_behind bytes hin (by omega)
  have hlength : r.recvQueue.length = 0 := by simpa using hqueue.counted
  have hbytes : Buffer.bytes ⟨top,b.data,b.length + bytes.length⟩ = rest ++ bytes := by
    rw [Buffer.bytes,hslice,hrest]
  have hinside : Buffer.Inside ⟨top,b.data,b.length + bytes.length⟩ := ⟨by simp only; omega⟩
  have hrun : recvFromSecureChannel heap valid r (.data bytes) = (do
      let cut ← cutMessages heap valid (b.length + bytes.length + 1)
        ⟨⟨top,b.data,b.length + bytes.length⟩,r.recvQueue,0⟩
      if cut.1 then
        let fragment ← removeHeadroom cut.2.fragment cut.2.readTotal
        pure (.done,⟨cut.2.recvQueue,some fragment⟩)
      else
        pure (.badVersion,⟨cut.2.recvQueue,some cut.2.fragment⟩)) := by
    rw [recvFromSecureChannel,if_neg (by simp [hlength]),hb,ok_bind]
    simp only [receive,hstore,ok_bind]
  have hspec := cutMessages_spec heap valid (b.length + bytes.length + 1)
    ⟨⟨top,b.data,b.length + bytes.length⟩,r.recvQueue,0⟩ hinside (Nat.lt_succ_self _)
  rw [hbytes] at hspec
  rw [hrun]
  refine ⟨fun hstuck => by rw [hspec.1 hstuck]; rfl,fun hstuck => ?_⟩
  obtain ⟨s',hcut,hs⟩ := hspec.2 hstuck
  have hheld := hs.queue [] hqueue
  rw [hcut,ok_bind]
  by_cases hrefused : Refused valid ((checkedFramer valid).frames (rest ++ bytes)).2
  · rw [if_neg (by simp [hrefused])]
    exact ⟨_,_,rfl,hheld,fun _ => rfl,fun h => absurd hrefused h⟩
  · have hflat := (checkedFramer valid).frames_flatten (rest ++ bytes)
    have hparts := congrArg List.length hflat
    rw [List.length_append,List.length_append] at hparts
    have htop' := hs.top
    have hdata' := hs.data
    have hlen' := hs.length
    simp only [hdata,Nat.zero_add] at htop' hdata'
    have hkept : s'.fragment.Inside := ⟨by rw [htop']; omega⟩
    have htotal : s'.fragment.data = s'.readTotal := by rw [hdata',hs.readTotal,Nat.zero_add]
    obtain ⟨b',hremove,hsize',hzero,hlength',hbytes'⟩ := removeHeadroom_spec hkept htotal
    rw [if_pos (by simp [hrefused]),hremove,ok_bind]
    refine ⟨_,_,rfl,hheld,fun h => absurd h hrefused,fun _ => ⟨rfl,?_,?_⟩⟩
    · intro h
      simp at h
    · intro b₁ hb₁
      injection hb₁ with hb₁
      subst hb₁
      exact ⟨by rw [hsize',htop',htop,hsize],hzero,by rw [hlength',hlen'],by rw [hbytes',hs.bytes]⟩

variable (heap) in
-- A read without bytes keeps what there is of a message.
theorem recv_other (hkeeps : r.Keeps rest) (hqueue : Holds r.recvQueue []) : ∃ b, (∀ valid,
    recvFromSecureChannel heap valid r .again = .ok (.done,⟨r.recvQueue,some b⟩) ∧
    recvFromSecureChannel heap valid r .failed = .ok (.failed,⟨r.recvQueue,some b⟩) ∧
    recvFromSecureChannel heap valid r .closed = .ok (.closed,⟨r.recvQueue,some b⟩)) ∧
    Receiver.Keeps ⟨r.recvQueue,some b⟩ rest := by
  obtain ⟨b,hb,hsize,hdata,hlen,hbytes⟩ := hkeeps.fragment heap
  have hlength : r.recvQueue.length = 0 := by simpa using hqueue.counted
  refine ⟨b,fun valid => ?_,?_,?_⟩
  · simp only [recvFromSecureChannel,hlength,UInt32.lt_irrefl,if_false,hb,ok_bind,pure_eq_ok,and_self]
  · intro hnone
    simp at hnone
  · intro b' hb'
    injection hb' with hb'
    subst hb'
    exact ⟨hsize,hdata,hlen,hbytes⟩

end Receiving

end Trema.SecureChannel
