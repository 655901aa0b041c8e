import Trema.Library.LinkedCells

namespace Trema.Tremashark

open Library

abbrev Exec := Run Empty

variable {α : Type}

abbrev QueueElement (α : Type) := Cell (Option α)

structure Queue (α : Type) where
  -- The elements xmalloc has given out; a freed one keeps its number.
  elements : List (Option (QueueElement α))
  head : Nat
  divider : Nat
  tail : Nat
  length : Int32
deriving DecidableEq, Repr

def dereference (p : Option α) : Exec α :=
  match p with
  | none => .error .outOfBounds
  | some x => .ok x

namespace Queue

def element (q : Queue α) (e : Nat) : Exec (QueueElement α) := dereference q.elements[e]?.join

def createQueue : Queue α := ⟨[some ⟨none,none⟩],0,0,0,0⟩

def collectFrom : Nat → Queue α → Exec (Queue α)
  | 0, _ => .error .outOfFuel
  | fuel + 1, q => do
    if q.head ≠ q.divider then
      let e ← q.element q.head
      let next ← dereference e.next
      collectFrom fuel { q with head := next, elements := q.elements.set q.head none }
    else pure q

-- Every turn frees an element.
def collectGarbage (q : Queue α) : Exec (Queue α) := collectFrom (q.elements.length + 1) q

def enqueue (lengthOf : α → Nat) (q : Queue α) (data : α) : Exec (Queue α) := do
  if lengthOf data = 0 then .error .aborted
  else
    let newTail := q.elements.length
    let elements := q.elements ++ [some ⟨some data,none⟩]
    let tail ← dereference elements[q.tail]?.join
    let elements := elements.set q.tail (some { tail with next := some newTail })
    collectGarbage { q with elements := elements, tail := newTail, length := q.length + 1 }

def dequeue (q : Queue α) : Exec (Option α × Queue α) := do
  if q.divider ≠ q.tail then
    let divider ← q.element q.divider
    let next ← dereference divider.next
    let e ← q.element next
    let elements := q.elements.set next (some { e with data := none })
    pure (e.data,{ q with elements := elements, divider := next, length := q.length - 1 })
  else pure (none,q)

def peek (q : Queue α) : Exec (Option α) := do
  if q.divider ≠ q.tail then
    let divider ← q.element q.divider
    let next ← dereference divider.next
    let e ← q.element next
    pure e.data
  else pure none

-- The array `elements` of sort_queue has `length` slots; `room` of them are still to be filled.
def gather (q : Queue α) : Nat → Nat → List Nat → Exec (List Nat)
  | 0, element, elements => do
    let e ← q.element element
    match e.next with
    | none => pure elements
    | some _ => .error .outOfBounds
  | room + 1, element, elements => do
    let e ← q.element element
    match e.next with
    | none => pure elements
    | some next => q.gather room next (elements ++ [next])

def slot (elements : List Nat) (j : Nat) : Exec Nat := dereference elements[j]?

def dataAt (q : Queue α) (elements : List Nat) (j : Nat) : Exec α := do
  let e ← slot elements j
  let cell ← q.element e
  dereference cell.data

def setDataAt (q : Queue α) (elements : List Nat) (j : Nat) (data : α) : Exec (Queue α) := do
  let e ← slot elements j
  let cell ← q.element e
  pure { q with elements := q.elements.set e (some { cell with data := some data }) }

-- The do-while loop; it is entered with j > 0.
def shift (compare : α → α → Bool) (elements : List Nat) (data : α) :
    Nat → Queue α → Exec (Nat × Queue α)
  | 0, _ => .error .outOfBounds
  | j + 1, q => do
    let previous ← q.dataAt elements j
    let q ← q.setDataAt elements (j + 1) previous
    match j with
    | 0 => pure (0,q)
    | k + 1 => do
      let before ← q.dataAt elements k
      if compare before data then shift compare elements data (k + 1) q else pure (k + 1,q)

def insertElement (compare : α → α → Bool) (elements : List Nat) (q : Queue α) (i : Nat) :
    Exec (Queue α) := do
  let data ← q.dataAt elements i
  let previous ← q.dataAt elements (i - 1)
  if compare previous data then
    let (j,q) ← shift compare elements data i q
    q.setDataAt elements j data
  else pure q

def insertFrom (compare : α → α → Bool) (elements : List Nat) : Nat → Nat → Queue α → Exec (Queue α)
  | 0, _, q => pure q
  | count + 1, i, q => do
    let q ← insertElement compare elements q i
    insertFrom compare elements count (i + 1) q

def sortQueue (compare : α → α → Bool) (q : Queue α) : Exec (Queue α) := do
  let q ← q.collectGarbage
  let length := q.length.toInt
  if length < 0 then .error .outOfBounds
  else
    let elements ← q.gather length.toNat q.head []
    insertFrom compare elements (length.toNat - 1) 1 q

end Queue

end Trema.Tremashark
