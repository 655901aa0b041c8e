import Trema.Library.Heap
import Trema.Utility.Wrapper

namespace Trema.Buffer

open Library
open Utility (xmalloc xmalloc_ok xmalloc_aborted ptrdiffMax sizeMax)

abbrev Exec (α : Type) := Run Empty α

-- `data` is public.data, as its distance from `top`.
structure PrivateBuffer where
  data : Nat
  length : Nat
  top : Option Nat
  realLength : Nat
deriving DecidableEq, Repr

section Operations

variable (heap : Heap) (pbuf : PrivateBuffer) (length : Nat)

-- A value of type size_t.
def sizeT (n : Nat) : Nat := n % (sizeMax + 1)

def abortIf (bad : Prop) [Decidable bad] : Exec Unit := if bad then .error .aborted else .ok ()

def dereference : Option Nat → Exec Nat
  | none => .error .outOfBounds
  | some top => .ok top

def frontLengthOf : Nat := pbuf.data

def alreadyAllocated : Bool :=
  sizeT (frontLengthOf pbuf + pbuf.length + length) ≤ pbuf.realLength

def allocNewData : Exec (Heap × PrivateBuffer) := do
  let bytes ← xmalloc length
  let (top,heap) := heap.alloc bytes
  pure (heap,⟨0,length,some top,length⟩)

def allocPrivateBuffer : PrivateBuffer := ⟨0,0,none,0⟩

-- The common part of append_front and append_back: the old contents go `shift` bytes further on.
def reallocate (shift : Nat) : Exec (Heap × PrivateBuffer) := do
  let newLength := sizeT (frontLengthOf pbuf + pbuf.length + length)
  let bytes ← xmalloc newLength
  let (newData,heap) := heap.alloc bytes
  let top ← dereference pbuf.top
  let old ← heap.load ⟨top,pbuf.data⟩ pbuf.length
  let heap ← heap.store ⟨newData,frontLengthOf pbuf + shift⟩ old
  let heap ← heap.free top
  pure (heap,{ pbuf with realLength := newLength, top := some newData })

def appendFront : Exec (Heap × PrivateBuffer) := reallocate heap pbuf length length

def appendBack : Exec (Heap × PrivateBuffer) := reallocate heap pbuf length 0

def allocBuffer : PrivateBuffer := allocPrivateBuffer

def allocBufferWithLength : Exec (Heap × PrivateBuffer) := do
  abortIf (length = 0)
  let bytes ← xmalloc length
  let (top,heap) := heap.alloc bytes
  pure (heap,⟨0,0,some top,length⟩)

def freeBuffer : Exec Heap :=
  match pbuf.top with
  | none => .ok heap
  | some top => heap.free top

def appendFrontBuffer : Exec (Pointer × Heap × PrivateBuffer) := do
  abortIf (length = 0)
  if pbuf.top = none then
    let (heap,pbuf) ← allocNewData heap length
    let top ← dereference pbuf.top
    pure (⟨top,pbuf.data⟩,heap,pbuf)
  else
    let (heap,pbuf) ←
      if alreadyAllocated pbuf length then do
        let top ← dereference pbuf.top
        let old ← heap.load ⟨top,pbuf.data⟩ pbuf.length
        let heap ← heap.store ⟨top,pbuf.data + length⟩ old
        let heap ← heap.store ⟨top,pbuf.data⟩ (List.replicate length 0)
        pure (heap,pbuf)
      else appendFront heap pbuf length
    let top ← dereference pbuf.top
    pure (⟨top,pbuf.data⟩,heap,{ pbuf with length := sizeT (pbuf.length + length) })

def removeFrontBuffer : Exec PrivateBuffer := do
  abortIf (length = 0)
  abortIf (pbuf.length < length)
  pure { pbuf with data := pbuf.data + length, length := pbuf.length - length }

def appendBackBuffer : Exec (Pointer × Heap × PrivateBuffer) := do
  abortIf (length = 0)
  if pbuf.realLength = 0 then
    let (heap,pbuf) ← allocNewData heap length
    let top ← dereference pbuf.top
    pure (⟨top,pbuf.data⟩,heap,pbuf)
  else
    let (heap,pbuf) ← if alreadyAllocated pbuf length then pure (heap,pbuf) else appendBack heap pbuf length
    let top ← dereference pbuf.top
    pure (⟨top,pbuf.data + pbuf.length⟩,heap,{ pbuf with length := sizeT (pbuf.length + length) })

def duplicateBuffer : Exec (Heap × PrivateBuffer) := do
  if pbuf.realLength = 0 then
    pure (heap,allocPrivateBuffer)
  else
    let bytes ← xmalloc pbuf.realLength
    let (newTop,heap) := heap.alloc bytes
    let top ← dereference pbuf.top
    let old ← heap.load ⟨top,0⟩ pbuf.realLength
    let heap ← heap.store ⟨newTop,0⟩ old
    pure (heap,⟨frontLengthOf pbuf,pbuf.length,some newTop,pbuf.realLength⟩)

end Operations

end Trema.Buffer
