import Trema.OpenFlow.ApplicationInterface

namespace Trema.SecureChannel

open Library
open OpenFlow (Exec abortIf xmalloc)

structure Buffer where
  top : Bytes
  data : Nat
  length : Nat
deriving DecidableEq, Repr

def Buffer.realLength (b : Buffer) : Nat := b.top.length

def Buffer.bytes (b : Buffer) : Bytes := slice b.top b.data b.length

section Operations

variable (heap : Nat → UInt8)

def alreadyAllocated (b : Buffer) (length : Nat) : Bool :=
  b.data + b.length + length ≤ b.realLength

def allocNewData (length : Nat) : Buffer := ⟨xmalloc heap length,0,length⟩

def appendBack (b : Buffer) (length : Nat) : Buffer :=
  { b with top := overwrite (xmalloc heap (b.data + b.length + length)) b.data b.bytes }

def allocBufferWithLength (length : Nat) : Exec Buffer := do
  abortIf (length = 0)
  pure ⟨xmalloc heap length,0,0⟩

-- The new buffer, and the place of the appended bytes in it.
def appendBackBuffer (b : Buffer) (length : Nat) : Exec (Nat × Buffer) := do
  abortIf (length = 0)
  if b.realLength = 0 then
    pure (0,allocNewData heap length)
  else
    let b := if alreadyAllocated b length then b else appendBack heap b length
    pure (b.data + b.length,{ b with length := b.length + length })

def removeFrontBuffer (b : Buffer) (length : Nat) : Exec Buffer := do
  abortIf (length = 0)
  abortIf (b.length < length)
  pure { b with data := b.data + length, length := b.length - length }

def Buffer.ofBytes (bytes : Bytes) : Buffer := ⟨bytes,0,bytes.length⟩

end Operations

structure Buffer.Inside (b : Buffer) : Prop where
  fits : b.data + b.length ≤ b.top.length

theorem Buffer.Inside.length_bytes {b : Buffer} (h : b.Inside) : b.bytes.length = b.length :=
  length_slice h.fits

theorem inside_ofBytes (bytes : Bytes) : (Buffer.ofBytes bytes).Inside :=
  ⟨by simp [Buffer.ofBytes]⟩

@[simp] theorem bytes_ofBytes (bytes : Bytes) : (Buffer.ofBytes bytes).bytes = bytes :=
  slice_whole rfl

theorem abortIf_false {bad : Prop} [Decidable bad] (h : ¬ bad) :
    (abortIf bad : Exec Unit) = .ok () := if_neg h

theorem length_xmalloc (heap : Nat → UInt8) (n : Nat) : (xmalloc heap n).length = n := by
  simp [xmalloc]

theorem allocBufferWithLength_ok (heap : Nat → UInt8) {length : Nat} (hpos : 0 < length) :
    allocBufferWithLength heap length = .ok ⟨xmalloc heap length,0,0⟩ := by
  rw [allocBufferWithLength,abortIf_false (by omega)]
  rfl

theorem appendBackBuffer_ok (heap : Nat → UInt8) {b : Buffer} {length : Nat} (hpos : 0 < length)
    (hfits : b.data + b.length + length ≤ b.top.length) : appendBackBuffer heap b length =
      .ok (b.data + b.length,{ b with length := b.length + length }) := by
  have hreal : ¬ b.realLength = 0 := by
    rw [Buffer.realLength]
    omega
  have hallocated : alreadyAllocated b length = true := decide_eq_true hfits
  rw [appendBackBuffer,abortIf_false (by omega),ok_bind,if_neg hreal]
  simp only [hallocated,if_true,pure_eq_ok]

theorem removeFrontBuffer_ok {b : Buffer} {length : Nat} (hpos : 0 < length)
    (hle : length ≤ b.length) : removeFrontBuffer b length =
      .ok { b with data := b.data + length, length := b.length - length } := by
  rw [removeFrontBuffer,abortIf_false (by omega),abortIf_false (by omega)]
  rfl

theorem Buffer.Inside.removeFront {b : Buffer} {length : Nat} (h : b.Inside)
    (hle : length ≤ b.length) :
    Buffer.Inside { b with data := b.data + length, length := b.length - length } :=
  ⟨by have := h.fits; simp only; omega⟩

theorem bytes_removeFront (b : Buffer) (length : Nat) :
    Buffer.bytes { b with data := b.data + length, length := b.length - length } =
      b.bytes.drop length := by
  simp only [Buffer.bytes,slice,List.drop_take,List.drop_drop]

end Trema.SecureChannel
