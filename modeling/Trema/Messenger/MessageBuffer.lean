import Trema.OpenFlow.ByteOrder

namespace Trema.Messenger

open Library

structure MessageBuffer where
  buffer : Bytes
  dataLength : Nat
  headOffset : Nat
  fits : headOffset + dataLength ≤ buffer.length

namespace MessageBuffer

def size (buf : MessageBuffer) : Nat := buf.buffer.length

def contents (buf : MessageBuffer) : Bytes := slice buf.buffer buf.headOffset buf.dataLength

def cleared (buf : MessageBuffer) : MessageBuffer := ⟨buf.buffer,0,0,Nat.zero_le _⟩

@[simp] theorem length_contents (buf : MessageBuffer) : buf.contents.length = buf.dataLength :=
  length_slice buf.fits

theorem dataLength_le (buf : MessageBuffer) : buf.dataLength ≤ buf.size :=
  (Nat.le_add_left _ _).trans buf.fits

theorem slice_contents (buf : MessageBuffer) {i n : Nat} (h : i + n ≤ buf.dataLength) :
    slice buf.buffer (buf.headOffset + i) n = slice buf.contents i n := by
  rw [contents,slice_slice h]

@[simp] theorem size_cleared (buf : MessageBuffer) : buf.cleared.size = buf.size := rfl

end MessageBuffer

section Operations

def createMessageBuffer (heap : Nat → UInt8) (size : Nat) : MessageBuffer :=
  ⟨(List.range size).map heap,0,0,Nat.zero_le _⟩

def messageBufferRemainBytes (buf : MessageBuffer) : Nat := buf.size - buf.dataLength

theorem appended_fits {b data : Bytes} {off n : Nat} (h : off + n + data.length ≤ b.length) :
    off + (n + data.length) ≤ (overwrite b (off + n) data).length := by
  rw [length_overwrite h,← Nat.add_assoc]
  exact h

theorem moved_fits {b old data : Bytes} {n : Nat} (hold : old.length ≤ n)
    (h : n + data.length ≤ b.length) :
    0 + (n + data.length) ≤ (overwrite (overwrite b 0 old) n data).length := by
  have hfirst : (overwrite b 0 old).length = b.length := length_overwrite (by omega)
  rw [length_overwrite (by omega),hfirst]
  omega

theorem truncated_fits (buf : MessageBuffer) {len : Nat} (h : len ≤ buf.dataLength) :
    buf.headOffset + len + (buf.dataLength - len) ≤ buf.buffer.length := by
  have := buf.fits
  omega

theorem shifted_fits (buf : MessageBuffer) (len : Nat) :
    0 + (buf.dataLength - len) ≤ (overwrite buf.buffer 0
      (slice buf.buffer (buf.headOffset + len) (buf.dataLength - len))).length := by
  have := buf.fits
  have hlen : (slice buf.buffer (buf.headOffset + len) (buf.dataLength - len)).length ≤
      buf.dataLength - len := List.length_take_le _ _
  rw [length_overwrite (by omega)]
  omega

def writeMessageBuffer (buf : MessageBuffer) (data : Bytes) : Bool × MessageBuffer :=
  if hfull : messageBufferRemainBytes buf < data.length then (false,buf)
  else if hend : buf.headOffset + buf.dataLength + data.length ≤ buf.size then
    (true,⟨overwrite buf.buffer (buf.headOffset + buf.dataLength) data,
      buf.dataLength + data.length,buf.headOffset,appended_fits hend⟩)
  else
    (true,⟨overwrite (overwrite buf.buffer 0 buf.contents) buf.dataLength data,
      buf.dataLength + data.length,0,
      moved_fits buf.length_contents.le (by
        have := buf.dataLength_le
        rw [messageBufferRemainBytes] at hfull
        rw [← MessageBuffer.size]
        omega)⟩)

def truncateMessageBuffer (buf : MessageBuffer) (len : Nat) : MessageBuffer :=
  if len = 0 ∨ buf.dataLength = 0 then buf
  else
    let n := if len > buf.dataLength then buf.dataLength else len
    have hn : n ≤ buf.dataLength := by
      dsimp only [n]
      split <;> omega
    if buf.headOffset + n ≤ buf.size then
      ⟨buf.buffer,buf.dataLength - n,buf.headOffset + n,truncated_fits buf hn⟩
    else
      ⟨_,buf.dataLength - n,0,shifted_fits buf n⟩

end Operations

section Contents

variable (buf : MessageBuffer)

theorem contents_create (heap : Nat → UInt8) (size : Nat) : (createMessageBuffer heap size).contents = [] :=
  rfl

theorem size_create (heap : Nat → UInt8) (size : Nat) : (createMessageBuffer heap size).size = size := by
  rw [MessageBuffer.size,createMessageBuffer,List.length_map,List.length_range]

theorem contents_write {data : Bytes} (h : data.length ≤ messageBufferRemainBytes buf) :
    (writeMessageBuffer buf data).2.contents = buf.contents ++ data := by
  have hsize := buf.dataLength_le
  have hfits := buf.fits
  rw [messageBufferRemainBytes] at h
  have hlen := buf.length_contents
  rw [writeMessageBuffer,dif_neg (by rw [messageBufferRemainBytes]; omega)]
  split
  · rename_i hend
    rw [MessageBuffer.size] at hend
    change slice (overwrite buf.buffer (buf.headOffset + buf.dataLength) data) buf.headOffset
      (buf.dataLength + data.length) = _
    exact slice_join (slice_overwrite_before le_rfl hend) (slice_overwrite_self hend)
  · rw [MessageBuffer.size] at h hsize
    have hfirst : (overwrite buf.buffer 0 buf.contents).length = buf.buffer.length :=
      length_overwrite (by omega)
    have hend : buf.dataLength + data.length ≤ (overwrite buf.buffer 0 buf.contents).length := by
      rw [hfirst]
      omega
    change slice (overwrite (overwrite buf.buffer 0 buf.contents) buf.dataLength data) 0
      (buf.dataLength + data.length) = _
    refine slice_join ((slice_overwrite_before (by omega) hend).trans ?_)
      (by rw [Nat.zero_add]; exact slice_overwrite_self hend)
    rw [← hlen]
    exact slice_overwrite_self (by omega)

theorem size_write (data : Bytes) : (writeMessageBuffer buf data).2.size = buf.size := by
  have hsize := buf.dataLength_le
  have hlen := buf.length_contents
  rw [writeMessageBuffer]
  split
  · rfl
  · rename_i hroom
    rw [messageBufferRemainBytes] at hroom
    split
    · rename_i hend
      exact length_overwrite hend
    · rw [MessageBuffer.size] at hroom hsize
      have hfirst : (overwrite buf.buffer 0 buf.contents).length = buf.buffer.length :=
        length_overwrite (by omega)
      exact (length_overwrite (by omega)).trans hfirst

theorem truncate_eq {len : Nat} (h : ¬ (len = 0 ∨ buf.dataLength = 0)) :
    truncateMessageBuffer buf len = ⟨buf.buffer,buf.dataLength - min len buf.dataLength,
      buf.headOffset + min len buf.dataLength,truncated_fits buf (Nat.min_le_right _ _)⟩ := by
  have hfits := buf.fits
  have hmin : (if len > buf.dataLength then buf.dataLength else len) = min len buf.dataLength := by
    split <;> omega
  simp only [truncateMessageBuffer,if_neg h,hmin]
  -- The head can always move: it is followed by the data that is dropped.
  rw [if_pos (by rw [MessageBuffer.size]; omega)]

theorem contents_truncate (len : Nat) :
    (truncateMessageBuffer buf len).contents = buf.contents.drop len := by
  by_cases h : len = 0 ∨ buf.dataLength = 0
  · rw [truncateMessageBuffer,if_pos h]
    rcases h with rfl | h
    · rfl
    · rw [MessageBuffer.contents,h,slice,List.take_zero,List.drop_nil]
  · rw [truncate_eq buf h]
    change slice buf.buffer (buf.headOffset + min len buf.dataLength)
      (buf.dataLength - min len buf.dataLength) = _
    rw [MessageBuffer.contents,slice,slice,List.drop_take,List.drop_drop]
    by_cases hlen : len ≤ buf.dataLength
    · rw [Nat.min_eq_left hlen]
    · rw [Nat.min_eq_right (by omega),Nat.sub_self,Nat.sub_eq_zero_of_le (by omega)]
      rfl

theorem size_truncate (len : Nat) : (truncateMessageBuffer buf len).size = buf.size := by
  by_cases h : len = 0 ∨ buf.dataLength = 0
  · rw [truncateMessageBuffer,if_pos h]
  · rw [truncate_eq buf h]
    rfl

end Contents

end Trema.Messenger
