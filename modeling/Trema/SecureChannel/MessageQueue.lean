import Trema.OpenFlow.ByteOrder

namespace Trema.SecureChannel

open Library
open OpenFlow (Exec abortIf)

-- The elements from head to tail; NULL data is none, the pointers are positions.
structure MessageQueue (α : Type) where
  elements : List (Option α)
  divider : Nat
  tail : Nat
  length : UInt32
deriving DecidableEq, Repr

section Operations

variable {α σ : Type}

def createMessageQueue : MessageQueue α := ⟨[none],0,0,0⟩

def collectGarbage (queue : MessageQueue α) : MessageQueue α :=
  { queue with
    elements := queue.elements.drop queue.divider
    divider := 0
    tail := queue.tail - queue.divider }

def enqueueMessage (queue : MessageQueue α) (message : α) : MessageQueue α :=
  collectGarbage
    { queue with
      elements := queue.elements.take (queue.tail + 1) ++ [some message]
      tail := queue.tail + 1
      length := queue.length + 1 }

def MessageQueue.nextData (queue : MessageQueue α) : Option α :=
  (queue.elements[queue.divider + 1]?).join

def dequeueMessage (queue : MessageQueue α) : Option α × MessageQueue α :=
  if queue.divider = queue.tail then (none,queue)
  else (queue.nextData,
    { queue with
      elements := queue.elements.set (queue.divider + 1) none
      divider := queue.divider + 1
      length := queue.length - 1 })

def peekMessage (queue : MessageQueue α) : Option α :=
  if queue.divider = queue.tail then none else queue.nextData

def MessageQueue.update (queue : MessageQueue α) (message : α) : MessageQueue α :=
  { queue with elements := queue.elements.set (queue.divider + 1) (some message) }

def foreachElement (function : α → σ → Exec (Bool × σ)) : List (Option α) → σ → Exec σ
  | [], userData => pure userData
  | none :: _, _ => .error .aborted
  | some message :: elements, userData => do
    let called ← function message userData
    if called.1 then foreachElement function elements called.2 else pure called.2

def foreachMessageQueue (queue : MessageQueue α) (function : α → σ → Exec (Bool × σ))
    (userData : σ) : Exec σ :=
  if queue.divider = queue.tail then pure userData
  else foreachElement function (queue.elements.drop (queue.divider + 1)) userData

end Operations

section Contents

variable {α : Type} {queue : MessageQueue α} {messages : List α} {message : α}

structure Holds (queue : MessageQueue α) (messages : List α) : Prop where
  tail_last : queue.tail + 1 = queue.elements.length
  divider_le : queue.divider ≤ queue.tail
  waiting : queue.elements.drop (queue.divider + 1) = messages.map some
  counted : queue.length = UInt32.ofNat messages.length

def MessageQueue.waiting (queue : MessageQueue α) : List α :=
  (queue.elements.drop (queue.divider + 1)).filterMap id

theorem Holds.waiting_eq (h : Holds queue messages) : queue.waiting = messages := by
  rw [MessageQueue.waiting,h.waiting,List.filterMap_map]
  exact List.filterMap_some

theorem Holds.create : Holds (createMessageQueue : MessageQueue α) [] :=
  ⟨rfl,Nat.le_refl _,rfl,rfl⟩

theorem Holds.tail_eq (h : Holds queue messages) :
    queue.tail = queue.divider + messages.length := by
  have hlen := congrArg List.length h.waiting
  have hlast := h.tail_last
  have hle := h.divider_le
  rw [List.length_drop,List.length_map] at hlen
  omega

theorem Holds.length_lt (h : Holds queue messages) : messages.length < queue.elements.length := by
  have htail := h.tail_eq
  have hlast := h.tail_last
  omega

theorem Holds.empty_iff (h : Holds queue messages) :
    queue.divider = queue.tail ↔ messages = [] := by
  rw [h.tail_eq,← List.length_eq_zero_iff]
  omega

theorem Holds.enqueue (h : Holds queue messages) (message : α) :
    Holds (enqueueMessage queue message) (messages ++ [message]) := by
  have htail := h.tail_eq
  have hall : queue.elements.take (queue.tail + 1) = queue.elements := by
    rw [h.tail_last,List.take_length]
  refine ⟨?_,Nat.zero_le _,?_,?_⟩
  · simp only [enqueueMessage,collectGarbage,hall,List.length_drop,List.length_append,
      List.length_cons,List.length_nil,← h.tail_last]
    omega
  · simp only [enqueueMessage,collectGarbage,hall,List.drop_drop]
    rw [Nat.zero_add,List.drop_append_of_le_length (by have := h.tail_last; omega),h.waiting]
    simp
  · simp [enqueueMessage,collectGarbage,h.counted]

theorem Holds.nextData (h : Holds queue (message :: messages)) :
    queue.nextData = some message := by
  have hget := congrArg (fun l => l[0]?) h.waiting
  simp only [List.getElem?_drop,Nat.add_zero,List.map_cons,List.getElem?_cons_zero] at hget
  simp [MessageQueue.nextData,hget]

theorem Holds.drop_next (h : Holds queue (message :: messages)) :
    queue.elements.drop (queue.divider + 1 + 1) = messages.map some := by
  rw [← List.drop_drop,h.waiting]
  rfl

theorem Holds.peek_nil (h : Holds queue []) : peekMessage queue = none :=
  if_pos (h.empty_iff.mpr rfl)

theorem Holds.peek (h : Holds queue (message :: messages)) :
    peekMessage queue = some message := by
  rw [peekMessage,if_neg (by simp [h.empty_iff]),h.nextData]

theorem Holds.dequeue_nil (h : Holds queue []) : dequeueMessage queue = (none,queue) :=
  if_pos (h.empty_iff.mpr rfl)

theorem Holds.dequeue (h : Holds queue (message :: messages)) :
    (dequeueMessage queue).1 = some message ∧ Holds (dequeueMessage queue).2 messages := by
  have htail := h.tail_eq
  rw [List.length_cons] at htail
  rw [dequeueMessage,if_neg (by simp [h.empty_iff])]
  refine ⟨h.nextData,?_,?_,?_,?_⟩
  · simpa using h.tail_last
  · simp only
    omega
  · simp only
    rw [List.drop_set_of_lt (by omega),h.drop_next]
  · simp [h.counted]

theorem Holds.update (h : Holds queue (message :: messages)) (other : α) :
    Holds (queue.update other) (other :: messages) := by
  refine ⟨by simpa [MessageQueue.update] using h.tail_last,h.divider_le,?_,h.counted⟩
  simp only [MessageQueue.update]
  rw [List.drop_set,if_neg (Nat.lt_irrefl _),h.waiting]
  simp

theorem Holds.foreach {σ : Type} (h : Holds queue messages) (function : α → σ → Exec (Bool × σ))
    (userData : σ) : foreachMessageQueue queue function userData =
      foreachElement function (messages.map some) userData := by
  rw [foreachMessageQueue]
  split
  · rename_i hempty
    rw [h.empty_iff.mp hempty]
    rfl
  · rw [h.waiting]

end Contents

end Trema.SecureChannel
