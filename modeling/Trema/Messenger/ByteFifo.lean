import Trema.Messenger.MessageBuffer
import Trema.Utility.Wrapper

namespace Trema.Messenger

open Library
open Utility (xmalloc xmalloc_ok ptrdiffMax)

-- The fields of message_buffer as the code has them, with size_t arithmetic.
structure SizedBuffer where
  buffer : Bytes
  dataLength : UInt64
  headOffset : UInt64
  size : UInt64

namespace SizedBuffer

def createMessageBuffer (size : UInt64) : Run Empty SizedBuffer := do
  let buffer ← xmalloc size.toNat
  pure ⟨buffer,0,0,size⟩

def messageBufferRemainBytes (buf : SizedBuffer) : UInt64 := buf.size - buf.dataLength

def writeMessageBuffer (buf : SizedBuffer) (data : Bytes) (len : UInt64) :
    Run Empty (Bool × SizedBuffer) := do
  if buf.messageBufferRemainBytes < len then
    pure (false,buf)
  else
    let data ← load data 0 len.toNat
    if buf.headOffset + buf.dataLength + len ≤ buf.size then
      let buffer ← store buf.buffer (buf.headOffset.toNat + buf.dataLength.toNat) data
      pure (true,{ buf with buffer := buffer, dataLength := buf.dataLength + len })
    else
      let old ← load buf.buffer buf.headOffset.toNat buf.dataLength.toNat
      let moved ← store buf.buffer 0 old
      let buffer ← store moved buf.dataLength.toNat data
      pure (true,{ buf with buffer := buffer, dataLength := buf.dataLength + len, headOffset := 0 })

def truncateMessageBuffer (buf : SizedBuffer) (len : UInt64) : Run Empty SizedBuffer := do
  if len = 0 ∨ buf.dataLength = 0 then
    pure buf
  else
    let len := if buf.dataLength < len then buf.dataLength else len
    if buf.headOffset + len ≤ buf.size then
      pure { buf with headOffset := buf.headOffset + len, dataLength := buf.dataLength - len }
    else
      let rest ← load buf.buffer (buf.headOffset.toNat + len.toNat) (buf.dataLength - len).toNat
      let buffer ← store buf.buffer 0 rest
      pure { buf with buffer := buffer, headOffset := 0, dataLength := buf.dataLength - len }

def contents (buf : SizedBuffer) : Bytes :=
  slice buf.buffer buf.headOffset.toNat buf.dataLength.toNat

end SizedBuffer

inductive BufferCall where
  | write (data : Bytes) (len : UInt64) (object : data.length = len.toNat)
  | truncate (len : UInt64)

def SizedBuffer.call (buf : SizedBuffer) : BufferCall → Run Empty (Bool × SizedBuffer)
  | .write data len _ => buf.writeMessageBuffer data len
  | .truncate len => do
    let buf ← buf.truncateMessageBuffer len
    pure (true,buf)

def SizedBuffer.run (buf : SizedBuffer) (calls : List BufferCall) : Run Empty SizedBuffer :=
  calls.foldlM (fun buf call => do
    let (_,buf) ← buf.call call
    pure buf) buf

-- What the buffer is for: a sequence of at most `capacity` bytes.
def fifoCall (capacity : Nat) (bytes : Bytes) : BufferCall → Bytes
  | .write data _ _ => if bytes.length + data.length ≤ capacity then bytes ++ data else bytes
  | .truncate len => bytes.drop len.toNat

def fifoRun (capacity : Nat) (calls : List BufferCall) : Bytes :=
  calls.foldl (fifoCall capacity) []

structure Mirrors (buf : SizedBuffer) (b : MessageBuffer) : Prop where
  buffer : buf.buffer = b.buffer
  dataLength : buf.dataLength.toNat = b.dataLength
  headOffset : buf.headOffset.toNat = b.headOffset
  size : buf.size.toNat = b.size
  limit : b.size ≤ ptrdiffMax

section Tracking

variable {buf : SizedBuffer} {b : MessageBuffer}

theorem Mirrors.contents (h : Mirrors buf b) : buf.contents = b.contents := by
  rw [SizedBuffer.contents,MessageBuffer.contents,h.buffer,h.dataLength,h.headOffset]

theorem Mirrors.remain (h : Mirrors buf b) :
    buf.messageBufferRemainBytes.toNat = Messenger.messageBufferRemainBytes b := by
  have hle : buf.dataLength ≤ buf.size := by
    rw [UInt64.le_iff_toNat_le,h.dataLength,h.size]
    exact b.dataLength_le
  rw [SizedBuffer.messageBufferRemainBytes,UInt64.toNat_sub_of_le _ _ hle,h.dataLength,h.size]
  rfl

-- No sum of the code wraps, because no object has more than PTRDIFF_MAX bytes.
theorem Mirrors.toNat_add (h : Mirrors buf b) (len : UInt64) (hlen : len.toNat ≤ b.size) :
    (buf.headOffset + buf.dataLength + len).toNat = b.headOffset + b.dataLength + len.toNat := by
  have hin : b.headOffset + b.dataLength ≤ b.size := b.fits
  have hlimit := h.limit
  rw [ptrdiffMax] at hlimit
  rw [UInt64.toNat_add,UInt64.toNat_add,h.headOffset,h.dataLength]
  omega

theorem mirrors_create {size : UInt64} {created : SizedBuffer}
    (h : SizedBuffer.createMessageBuffer size = .ok created) :
    Mirrors created (Messenger.createMessageBuffer (fun _ => 0xa5) size.toNat) := by
  rw [SizedBuffer.createMessageBuffer,bind_eq_ok] at h
  obtain ⟨bytes,hbytes,h⟩ := h
  rw [xmalloc] at hbytes
  split at hbytes
  · simp at hbytes
  · rename_i hlimit
    injection hbytes with hbytes
    injection h with h
    subst h hbytes
    have hsize := size_create (fun _ => 0xa5) size.toNat
    refine ⟨?_,rfl,rfl,hsize.symm,by rw [hsize]; exact Nat.not_lt.mp hlimit⟩
    change List.replicate _ _ = (List.range _).map _
    rw [List.map_const',List.length_range]

theorem store_overwrite (m bs : Bytes) {off : Nat} (h : off + bs.length ≤ m.length) :
    (store m off bs : Run Empty Bytes) = .ok (overwrite m off bs) := store_ok h

theorem Mirrors.write (h : Mirrors buf b) {data : Bytes} {len : UInt64}
    (hobject : data.length = len.toNat) : ∃ after : SizedBuffer,
      buf.writeMessageBuffer data len = .ok ((Messenger.writeMessageBuffer b data).1,after) ∧
        Mirrors after (Messenger.writeMessageBuffer b data).2 := by
  have hin : b.headOffset + b.dataLength ≤ b.size := b.fits
  have hroom : buf.messageBufferRemainBytes < len ↔
      Messenger.messageBufferRemainBytes b < data.length := by
    rw [UInt64.lt_iff_toNat_lt,h.remain,hobject]
  by_cases hfull : Messenger.messageBufferRemainBytes b < data.length
  · refine ⟨buf,?_,?_⟩
    · rw [SizedBuffer.writeMessageBuffer,if_pos (hroom.mpr hfull),Messenger.writeMessageBuffer,
        dif_pos hfull]
      rfl
    · rwa [Messenger.writeMessageBuffer,dif_pos hfull]
  · have hlen : b.dataLength + data.length ≤ b.size := by
      rw [Messenger.messageBufferRemainBytes] at hfull
      omega
    have hsum := h.toNat_add len (by omega)
    have hlimit := h.limit
    rw [ptrdiffMax] at hlimit
    have hdata : (load data 0 len.toNat : Run Empty Bytes) = .ok data := by
      rw [load_ok (by omega),slice_whole hobject]
    have htotal : (buf.dataLength + len).toNat = b.dataLength + data.length := by
      rw [UInt64.toNat_add,h.dataLength,hobject]
      omega
    by_cases hend : b.headOffset + b.dataLength + data.length ≤ b.size
    · have htail : buf.headOffset + buf.dataLength + len ≤ buf.size := by
        rw [UInt64.le_iff_toNat_le,hsum,h.size,← hobject]
        exact hend
      have hstore := store_overwrite b.buffer data hend
      refine ⟨{ buf with
        buffer := overwrite b.buffer (b.headOffset + b.dataLength) data
        dataLength := buf.dataLength + len },?_,?_⟩
      · rw [SizedBuffer.writeMessageBuffer,if_neg (hroom.not.mpr hfull),hdata,ok_bind,if_pos htail,
          h.buffer,h.headOffset,h.dataLength,hstore,Messenger.writeMessageBuffer,dif_neg hfull,
          dif_pos hend]
        rfl
      · have hkept := size_write b data
        rw [Messenger.writeMessageBuffer,dif_neg hfull,dif_pos hend] at hkept ⊢
        exact ⟨rfl,htotal,h.headOffset,h.size.trans hkept.symm,hkept.trans_le h.limit⟩
    · have htail : ¬ buf.headOffset + buf.dataLength + len ≤ buf.size := by
        rw [UInt64.le_iff_toNat_le,hsum,h.size,← hobject]
        exact hend
      have hold : (load b.buffer b.headOffset b.dataLength : Run Empty Bytes) = .ok b.contents :=
        load_ok b.fits
      have hsize : b.size = b.buffer.length := rfl
      have hmoved : (overwrite b.buffer 0 b.contents).length = b.buffer.length :=
        length_overwrite (by rw [b.length_contents]; omega)
      refine ⟨⟨overwrite (overwrite b.buffer 0 b.contents) b.dataLength data,
        buf.dataLength + len,0,buf.size⟩,?_,?_⟩
      · rw [SizedBuffer.writeMessageBuffer,if_neg (hroom.not.mpr hfull),hdata,ok_bind,if_neg htail,
          h.buffer,h.headOffset,h.dataLength,hold,ok_bind,
          store_overwrite _ _ (by rw [b.length_contents]; omega),ok_bind,
          store_overwrite _ _ (by rw [hmoved]; omega),Messenger.writeMessageBuffer,dif_neg hfull,
          dif_neg hend]
        rfl
      · have hkept := size_write b data
        rw [Messenger.writeMessageBuffer,dif_neg hfull,dif_neg hend] at hkept ⊢
        exact ⟨rfl,htotal,rfl,h.size.trans hkept.symm,hkept.trans_le h.limit⟩

theorem Mirrors.truncate (h : Mirrors buf b) (len : UInt64) : ∃ after : SizedBuffer,
    buf.truncateMessageBuffer len = .ok after ∧
      Mirrors after (Messenger.truncateMessageBuffer b len.toNat) := by
  have hin : b.headOffset + b.dataLength ≤ b.size := b.fits
  have hzero : (len = 0 ∨ buf.dataLength = 0) ↔ (len.toNat = 0 ∨ b.dataLength = 0) := by
    rw [← UInt64.toNat_inj,← UInt64.toNat_inj,h.dataLength]
    rfl
  by_cases hnone : len.toNat = 0 ∨ b.dataLength = 0
  · refine ⟨buf,?_,?_⟩
    · rw [SizedBuffer.truncateMessageBuffer,if_pos (hzero.mpr hnone)]
      rfl
    · rwa [Messenger.truncateMessageBuffer,if_pos hnone]
  · have hmin : (if buf.dataLength < len then buf.dataLength else len).toNat =
        min len.toNat b.dataLength := by
      split
      · rename_i hlt
        rw [UInt64.lt_iff_toNat_lt,h.dataLength] at hlt
        rw [h.dataLength,Nat.min_eq_right hlt.le]
      · rename_i hle
        rw [UInt64.lt_iff_toNat_lt,h.dataLength] at hle
        rw [Nat.min_eq_left (Nat.not_lt.mp hle)]
    generalize hcut : (if buf.dataLength < len then buf.dataLength else len) = cut at hmin
    have hle : min len.toNat b.dataLength ≤ b.dataLength := Nat.min_le_right _ _
    have hlimit := h.limit
    rw [ptrdiffMax] at hlimit
    have hhead : (buf.headOffset + cut).toNat = b.headOffset + min len.toNat b.dataLength := by
      rw [UInt64.toNat_add,h.headOffset,hmin]
      omega
    have hleft : (buf.dataLength - cut).toNat = b.dataLength - min len.toNat b.dataLength := by
      rw [UInt64.toNat_sub_of_le _ _ (by rw [UInt64.le_iff_toNat_le,hmin,h.dataLength]; exact hle),
        h.dataLength,hmin]
    have hmoves : buf.headOffset + cut ≤ buf.size := by
      rw [UInt64.le_iff_toNat_le,hhead,h.size]
      omega
    refine ⟨{ buf with headOffset := buf.headOffset + cut, dataLength := buf.dataLength - cut },?_,?_⟩
    · simp only [SizedBuffer.truncateMessageBuffer,if_neg (hzero.not.mpr hnone),hcut,if_pos hmoves]
      rfl
    · rw [truncate_eq b hnone]
      exact ⟨h.buffer,hleft,hhead,h.size,h.limit⟩

end Tracking

section Fifo

variable {buf : SizedBuffer} {b : MessageBuffer}

def messageBufferCall (b : MessageBuffer) : BufferCall → MessageBuffer
  | .write data _ _ => (Messenger.writeMessageBuffer b data).2
  | .truncate len => Messenger.truncateMessageBuffer b len.toNat

theorem Mirrors.call (h : Mirrors buf b) (call : BufferCall) : ∃ done after,
    buf.call call = .ok (done,after) ∧ Mirrors after (messageBufferCall b call) := by
  cases call with
  | write data len object =>
    obtain ⟨after,hwrite,hmirrors⟩ := h.write object
    exact ⟨_,after,hwrite,hmirrors⟩
  | truncate len =>
    obtain ⟨after,htruncate,hmirrors⟩ := h.truncate len
    refine ⟨true,after,?_,hmirrors⟩
    rw [SizedBuffer.call,htruncate]
    rfl

theorem write_rejected {data : Bytes} (h : ¬ b.dataLength + data.length ≤ b.size) :
    Messenger.writeMessageBuffer b data = (false,b) := by
  refine dif_pos ?_
  rw [Messenger.messageBufferRemainBytes]
  have := b.dataLength_le
  omega

theorem write_accepted {data : Bytes} (h : b.dataLength + data.length ≤ b.size) :
    (Messenger.writeMessageBuffer b data).1 = true ∧
      (Messenger.writeMessageBuffer b data).2.contents = b.contents ++ data := by
  have hroom : data.length ≤ Messenger.messageBufferRemainBytes b := by
    rw [Messenger.messageBufferRemainBytes]
    omega
  refine ⟨?_,contents_write b hroom⟩
  rw [Messenger.writeMessageBuffer,dif_neg (Nat.not_lt.mpr hroom)]
  split <;> rfl

theorem messageBufferCall_refines (b : MessageBuffer) (call : BufferCall) :
    (messageBufferCall b call).contents = fifoCall b.size b.contents call ∧
      (messageBufferCall b call).size = b.size := by
  cases call with
  | write data len object =>
    refine ⟨?_,size_write b data⟩
    rw [fifoCall,b.length_contents]
    split
    · rename_i h
      exact (write_accepted h).2
    · rename_i h
      rw [messageBufferCall,write_rejected h]
  | truncate len => exact ⟨contents_truncate b len.toNat,size_truncate b len.toNat⟩

theorem Mirrors.run (h : Mirrors buf b) (calls : List BufferCall) : ∃ last b',
    buf.run calls = .ok last ∧ Mirrors last b' ∧ b'.size = b.size ∧
      b'.contents = calls.foldl (fifoCall b.size) b.contents := by
  induction calls generalizing buf b with
  | nil => exact ⟨buf,b,rfl,h,rfl,rfl⟩
  | cons call calls ih =>
    obtain ⟨done,after,hcall,hmirrors⟩ := h.call call
    obtain ⟨hcontents,hsize⟩ := messageBufferCall_refines b call
    obtain ⟨last,b',hrun,hlast,hsame,hbytes⟩ := ih hmirrors
    refine ⟨last,b',?_,hlast,hsame.trans hsize,?_⟩
    · rw [SizedBuffer.run,List.foldlM_cons,hcall]
      exact hrun
    · rw [hbytes,hsize,hcontents]
      rfl

theorem message_buffer_fifo (size : UInt64) (created : SizedBuffer)
    (h : SizedBuffer.createMessageBuffer size = .ok created) (calls : List BufferCall) :
    ∃ buf, created.run calls = .ok buf ∧
      buf.headOffset.toNat + buf.dataLength.toNat ≤ size.toNat ∧
      buf.contents = fifoRun size.toNat calls ∧ buf.contents.length = buf.dataLength.toNat ∧
      (∀ data len, data.length = len.toNat → ∃ done after,
        buf.writeMessageBuffer data len = .ok (done,after) ∧
        (done = true ↔ buf.dataLength.toNat + len.toNat ≤ size.toNat) ∧
        (done = true → after.contents = buf.contents ++ data) ∧ (done = false → after = buf)) ∧
      ∀ len, ∃ after, buf.truncateMessageBuffer len = .ok after ∧
        after.contents = buf.contents.drop (min len.toNat buf.dataLength.toNat) := by
  have hcreated := mirrors_create h
  obtain ⟨buf,b,hrun,hmirrors,hsize,hbytes⟩ := hcreated.run calls
  rw [size_create] at hsize hbytes
  have hlength : buf.contents.length = buf.dataLength.toNat := by
    rw [hmirrors.contents,b.length_contents,hmirrors.dataLength]
  refine ⟨buf,hrun,?_,?_,hlength,?_,?_⟩
  · rw [hmirrors.headOffset,hmirrors.dataLength,← hsize]
    exact b.fits
  · rw [hmirrors.contents,hbytes]
    rfl
  · intro data len hobject
    obtain ⟨after,hwrite,hafter⟩ := hmirrors.write hobject
    refine ⟨_,after,hwrite,?_⟩
    rw [hmirrors.contents,hafter.contents,hmirrors.dataLength,← hobject,← hsize]
    by_cases hroom : b.dataLength + data.length ≤ b.size
    · obtain ⟨hdone,happended⟩ := write_accepted hroom
      rw [hdone,happended]
      simp [hroom]
    · rw [write_rejected hroom] at hwrite ⊢
      have hsame : buf.writeMessageBuffer data len = .ok (false,buf) := by
        have hfull : buf.messageBufferRemainBytes < len := by
          rw [UInt64.lt_iff_toNat_lt,hmirrors.remain,← hobject,Messenger.messageBufferRemainBytes]
          have := b.dataLength_le
          omega
        rw [SizedBuffer.writeMessageBuffer,if_pos hfull]
        rfl
      rw [hsame] at hwrite
      injection hwrite with hwrite
      injection hwrite with _ hwrite
      simp [hroom,hwrite]
  · intro len
    obtain ⟨after,htruncate,hafter⟩ := hmirrors.truncate len
    refine ⟨after,htruncate,?_⟩
    rw [hafter.contents,contents_truncate,hmirrors.contents,hmirrors.dataLength]
    rcases Nat.le_total len.toNat b.dataLength with hle | hle
    · rw [Nat.min_eq_left hle]
    · rw [Nat.min_eq_right hle,List.drop_eq_nil_of_le (by rw [b.length_contents]; exact hle),
        List.drop_eq_nil_of_le (by rw [b.length_contents])]

theorem message_buffer_fifo_four : ∃ created buf : SizedBuffer,
    SizedBuffer.createMessageBuffer 4 = .ok created ∧
      created.run [.write [1,2,3] 3 rfl,.truncate 2,.write [4,5] 2 rfl,.write [6,7] 2 rfl] = .ok buf ∧
      buf.contents = [3,4,5] := by
  obtain ⟨buf,hrun,_,hcontents,_⟩ := message_buffer_fifo 4 ⟨List.replicate 4 0xa5,0,0,4⟩ rfl
    [.write [1,2,3] 3 rfl,.truncate 2,.write [4,5] 2 rfl,.write [6,7] 2 rfl]
  exact ⟨_,buf,rfl,hrun,hcontents⟩

end Fifo

end Trema.Messenger
