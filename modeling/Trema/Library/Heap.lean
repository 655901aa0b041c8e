import Trema.Library.Region

namespace Trema.Library

structure Pointer where
  block : Nat
  offset : Nat
deriving DecidableEq, Repr

-- The objects of the heap in the order of their allocation; a freed one keeps its number.
structure Heap where
  blocks : List (Option Bytes)
deriving DecidableEq, Repr

namespace Heap

variable {ε : Type}

def block (h : Heap) (b : Nat) : Option Bytes := h.blocks[b]?.join

def alloc (h : Heap) (bytes : Bytes) : Nat × Heap := (h.blocks.length,⟨h.blocks ++ [some bytes]⟩)

def put (h : Heap) (b : Nat) (bytes : Option Bytes) : Heap := ⟨h.blocks.set b bytes⟩

def load (h : Heap) (p : Pointer) (n : Nat) : Run ε Bytes :=
  match h.block p.block with
  | none => .error .outOfBounds
  | some bytes => Library.load bytes p.offset n

def store (h : Heap) (p : Pointer) (bs : Bytes) : Run ε Heap :=
  match h.block p.block with
  | none => .error .outOfBounds
  | some bytes => do
    let bytes ← Library.store bytes p.offset bs
    pure (h.put p.block (some bytes))

def free (h : Heap) (b : Nat) : Run ε Heap :=
  match h.block b with
  | none => .error .outOfBounds
  | some _ => .ok (h.put b none)

section Blocks

variable {h h' : Heap} {b c : Nat} {bytes bs : Bytes} {off : Nat}

theorem lt_of_block (hb : h.block b = some bytes) : b < h.blocks.length := by
  by_contra hge
  rw [block,List.getElem?_eq_none (Nat.not_lt.mp hge)] at hb
  simp at hb

theorem block_alloc_new (h : Heap) (bytes : Bytes) :
    (h.alloc bytes).2.block (h.alloc bytes).1 = some bytes := by
  simp [block,alloc]

theorem block_alloc_old (hb : h.block b = some bytes) (bs : Bytes) :
    (h.alloc bs).2.block b = some bytes := by
  have hlt := lt_of_block hb
  rw [block] at hb ⊢
  rwa [alloc,List.getElem?_append_left hlt]

theorem alloc_ne (hb : h.block b = some bytes) (bs : Bytes) : (h.alloc bs).1 ≠ b :=
  (lt_of_block hb).ne'

theorem block_put_self (hb : b < h.blocks.length) (new : Option Bytes) :
    (h.put b new).block b = new := by
  simp [block,put,hb]

theorem block_put_ne (hne : c ≠ b) (new : Option Bytes) : (h.put b new).block c = h.block c := by
  rw [block,put,List.getElem?_set_ne hne.symm,block]

theorem load_block (hb : h.block b = some bytes) (n : Nat) :
    (h.load ⟨b,off⟩ n : Run ε Bytes) = Library.load bytes off n := by
  simp only [load,hb]

theorem store_block (hb : h.block b = some bytes) (hroom : off + bs.length ≤ bytes.length) :
    (h.store ⟨b,off⟩ bs : Run ε Heap) = .ok (h.put b (some (overwrite bytes off bs))) := by
  simp only [store,hb,store_ok hroom,ok_bind]
  rfl

theorem free_block (hb : h.block b = some bytes) : (h.free b : Run ε Heap) = .ok (h.put b none) := by
  simp only [free,hb]

end Blocks

end Heap

end Trema.Library
