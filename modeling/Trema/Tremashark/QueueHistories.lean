import Trema.Tremashark.QueueSort

namespace Trema.Tremashark

open Library Queue

variable {α : Type}

inductive Call (α : Type) where
  | enqueue (data : α)
  | dequeue
  | peek
  | sort (compare : α → α → Bool)

inductive Answer (α : Type) where
  | done
  | buffer (data : Option α)
deriving DecidableEq, Repr

namespace Queue

def call (lengthOf : α → Nat) (q : Queue α) : Call α → Exec (Answer α × Queue α)
  | .enqueue data => do
    let q ← q.enqueue lengthOf data
    pure (.done,q)
  | .dequeue => do
    let (data,q) ← q.dequeue
    pure (.buffer data,q)
  | .peek => do
    let data ← q.peek
    pure (.buffer data,q)
  | .sort compare => do
    let q ← q.sortQueue compare
    pure (.done,q)

def run (lengthOf : α → Nat) : Queue α → List (Call α) → Exec (List (Answer α) × Queue α)
  | q, [] => pure ([],q)
  | q, call :: calls => do
    let (answer,q) ← q.call lengthOf call
    let (answers,q) ← run lengthOf q calls
    pure (answer :: answers,q)

end Queue

-- What the calls are for: the live elements, the oldest or the foremost first.
def listCall (live : List α) : Call α → Answer α × List α
  | .enqueue data => (.done,live ++ [data])
  | .dequeue => (.buffer live.head?,live.tail)
  | .peek => (.buffer live.head?,live)
  | .sort compare => (.done,insertAll compare live)

def listRun : List α → List (Call α) → List (Answer α) × List α
  | live, [] => ([],live)
  | live, call :: calls =>
    let (answer,live) := listCall live call
    let (answers,live) := listRun live calls
    (answer :: answers,live)

def Allowed (lengthOf : α → Nat) (live : List α) : Call α → Prop
  | .enqueue data => 0 < lengthOf data
  | .dequeue => True
  | .peek => True
  | .sort _ => live.length < 2 ^ 31

def Permitted (lengthOf : α → Nat) : List α → List (Call α) → Prop
  | _, [] => True
  | live, call :: calls =>
    Allowed lengthOf live call ∧ Permitted lengthOf (listCall live call).2 calls

def SortsStably (lengthOf : α → Nat) (compare : α → α → Bool) (q : Queue α) (live : List α) : Prop :=
  ∃ q' sorted, q.sortQueue compare = .ok q' ∧ StableSort compare live sorted ∧
    q'.length = q.length ∧ ∀ calls, Permitted lengthOf sorted calls →
      ∃ q'', q'.run lengthOf calls = .ok ((listRun sorted calls).1,q'')

section Histories

variable {lengthOf : α → Nat} {q : Queue α} {live : List α}

theorem Represents.call {call : Call α} (h : Represents q live) (hcall : Allowed lengthOf live call) :
    ∃ q', q.call lengthOf call = .ok ((listCall live call).1,q') ∧
      Represents q' (listCall live call).2 := by
  cases call with
  | enqueue data =>
    obtain ⟨q',hrun,hafter⟩ := h.enqueue lengthOf hcall
    refine ⟨q',?_,hafter⟩
    rw [Queue.call,hrun]
    rfl
  | dequeue =>
    obtain ⟨q',hrun,hafter⟩ := h.dequeue
    refine ⟨q',?_,hafter⟩
    rw [Queue.call,hrun]
    rfl
  | peek =>
    refine ⟨q,?_,h⟩
    rw [Queue.call,h.peek]
    rfl
  | sort compare =>
    obtain ⟨q',hrun,hafter,_⟩ := h.sort hcall compare
    refine ⟨q',?_,hafter⟩
    rw [Queue.call,hrun]
    rfl

theorem Represents.run {calls : List (Call α)} (h : Represents q live)
    (hcalls : Permitted lengthOf live calls) :
    ∃ q', q.run lengthOf calls = .ok ((listRun live calls).1,q') ∧
      Represents q' (listRun live calls).2 := by
  induction calls generalizing q live with
  | nil => exact ⟨q,rfl,h⟩
  | cons call calls ih =>
    obtain ⟨q₁,hcall,h₁⟩ := h.call hcalls.1
    obtain ⟨q₂,hrun,h₂⟩ := ih h₁ hcalls.2
    refine ⟨q₂,?_,h₂⟩
    rw [Queue.run,hcall,ok_bind]
    simp only [hrun,ok_bind]
    rfl

theorem Represents.sortsStably_iff (h : Represents q live) (lengthOf : α → Nat)
    (compare : α → α → Bool) [IsStrictWeakOrder α fun x y => compare x y = true] :
    SortsStably lengthOf compare q live ↔ live.length < 2 ^ 31 := by
  constructor
  · rintro ⟨q',_,hsort,_⟩
    by_contra hlong
    rw [h.sort_wrapped (Nat.not_lt.mp hlong)] at hsort
    simp at hsort
  · intro hlive
    obtain ⟨q',hsort,hafter,hlength⟩ := h.sort hlive compare
    refine ⟨q',_,hsort,insertAll_stableSort compare live,hlength,fun calls hcalls => ?_⟩
    obtain ⟨q'',hrun,_⟩ := hafter.run hcalls
    exact ⟨q'',hrun⟩

theorem listRun_enqueues (n : Nat) (d : α) :
    listRun live (List.replicate n (.enqueue d)) = (List.replicate n .done,live ++ List.replicate n d) := by
  induction n generalizing live with
  | zero => simp [listRun]
  | succ n ih => simp [List.replicate_succ,listRun,listCall,ih]

theorem permitted_enqueues (lengthOf : α → Nat) (live : List α) {d : α} (hd : 0 < lengthOf d) (n : Nat) :
    Permitted lengthOf live (List.replicate n (.enqueue d)) := by
  induction n generalizing live with
  | zero => trivial
  | succ n ih => exact ⟨hd,ih _⟩

end Histories

theorem sort_queue_stable_iff (lengthOf : α → Nat) (history : List (Call α))
    (hhistory : Permitted lengthOf [] history) (compare : α → α → Bool)
    [IsStrictWeakOrder α fun x y => compare x y = true] :
    ∃ q, createQueue.run lengthOf history = .ok ((listRun [] history).1,q) ∧
      (SortsStably lengthOf compare q (listRun [] history).2 ↔ (listRun [] history).2.length < 2 ^ 31) := by
  obtain ⟨q,hrun,hq⟩ := represents_createQueue.run hhistory
  exact ⟨q,hrun,hq.sortsStably_iff lengthOf compare⟩

-- The int counter has no value for 2^31 elements.
theorem sort_queue_counter_wraps : ∃ q : Queue Nat,
    createQueue.run (fun _ => 1) (List.replicate 2147483648 (.enqueue 7)) =
      .ok (List.replicate 2147483648 .done,q) ∧
    q.sortQueue (fun x y => decide (y < x)) = .error .outOfBounds ∧
    ¬ SortsStably (fun _ => 1) (fun x y => decide (y < x)) q (List.replicate 2147483648 7) := by
  have hpermitted := permitted_enqueues (fun _ : Nat => 1) [] (d := 7)
    Nat.one_pos 2147483648
  obtain ⟨q,hrun,hq⟩ := represents_createQueue.run hpermitted
  rw [listRun_enqueues,List.nil_append] at hrun hq
  have hlong : 2 ^ 31 ≤ (List.replicate 2147483648 7).length := by
    rw [List.length_replicate]
    decide
  have hwrapped := hq.sort_wrapped hlong fun x y => decide (y < x)
  refine ⟨q,hrun,hwrapped,?_⟩
  rintro ⟨_,_,hsort,_⟩
  rw [hwrapped] at hsort
  simp at hsort

def clockHistory : List (Call (Nat × Nat)) :=
  [.enqueue (5,0),.enqueue (3,1),.dequeue,.enqueue (4,2),.enqueue (3,3),.enqueue (1,4)]

def laterFirst (x y : Nat × Nat) : Bool := decide (y.1 < x.1)

instance : IsStrictWeakOrder (Nat × Nat) fun x y => laterFirst x y = true where
  irrefl x := by simp [laterFirst]
  trans x y z := by
    simp only [laterFirst,decide_eq_true_eq]
    omega
  incomp_trans x y z := by
    simp only [laterFirst,decide_eq_true_eq]
    omega

theorem sort_queue_stable_clock : ∃ q,
    createQueue.run (fun _ => 1) clockHistory = .ok ((listRun [] clockHistory).1,q) ∧
    SortsStably (fun _ => 1) laterFirst q [(3,1),(4,2),(3,3),(1,4)] := by
  obtain ⟨q,hrun,hiff⟩ := sort_queue_stable_iff (fun _ => 1) clockHistory
    (by simp [clockHistory,Permitted,Allowed]) laterFirst
  exact ⟨q,hrun,hiff.mpr (by decide)⟩

end Trema.Tremashark
