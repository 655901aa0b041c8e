import Trema.Messenger.ReceiveQueue
import Mathlib.Logic.Function.Basic

namespace Trema.Messenger

variable {σ : Type} [DecidableEq σ]

-- The queues by service name; every name fits a queue's field, as create_receive_queue asserts.
abbrev ReceiveQueues (σ : Type) := σ → Option ReceiveQueue

inductive CreateOutcome where
  | socketFailed
  | bindFailed
  | listenFailed
  | fcntlFailed
  | created
deriving DecidableEq

namespace ReceiveQueues

variable (heap : Nat → UInt8)

def create (queues : ReceiveQueues σ) (serviceName : σ) (outcome : CreateOutcome) :
    Option ReceiveQueue × ReceiveQueues σ :=
  match queues serviceName with
  | some rq => (some rq,queues)
  | none =>
    if outcome = .created then
      let rq := createReceiveQueue heap
      (some rq,Function.update queues serviceName (some rq))
    else (none,queues)

def addMessageCallback (queues : ReceiveQueues σ) (serviceName : σ) (messageType : MessageType)
    (callback : Nat) (outcome : CreateOutcome) : Bool × ReceiveQueues σ :=
  let r := match queues serviceName with
    | some rq => (some rq,queues)
    | none => create heap queues serviceName outcome
  match r.1 with
  | none => (false,r.2)
  | some rq =>
    (true,Function.update r.2 serviceName (some (Messenger.addMessageCallback rq messageType callback)))

def deleteReceiveQueue (queues : ReceiveQueues σ) (serviceName : σ) : ReceiveQueues σ :=
  Function.update queues serviceName none

-- `outcomes i` is what an attempt to create the queue makes while the i-th callback is added.
def copyCallbacks (serviceName : σ) (outcomes : Nat → CreateOutcome) :
    Nat → List ReceiveQueueCallback → ReceiveQueues σ → ReceiveQueues σ
  | _, [], queues => queues
  | i, cb :: callbacks, queues =>
    copyCallbacks serviceName outcomes (i + 1) callbacks
      (addMessageCallback heap queues serviceName cb.messageType cb.function (outcomes i)).2

def renameMessageCallback (queues : ReceiveQueues σ) (oldServiceName newServiceName : σ)
    (outcomes : Nat → CreateOutcome) : Bool × ReceiveQueues σ :=
  match queues oldServiceName with
  | none => (false,queues)
  | some oldRq =>
    match queues newServiceName with
    | some _ => (false,queues)
    | none =>
      (true,deleteReceiveQueue
        (copyCallbacks heap newServiceName outcomes 0 oldRq.messageCallbacks queues) oldServiceName)

-- In the order of their invocation.
def callbacksOf (queues : ReceiveQueues σ) (serviceName : σ) : List ReceiveQueueCallback :=
  ((queues serviceName).map ReceiveQueue.messageCallbacks).getD []

def Renamed (queues : ReceiveQueues σ) (oldServiceName newServiceName : σ)
    (r : Bool × ReceiveQueues σ) : Prop :=
  (r.1 = true ∧ callbacksOf r.2 newServiceName = callbacksOf queues oldServiceName ∧
    callbacksOf r.2 oldServiceName = []) ∨ (r.1 = false ∧ r.2 = queues)

section Copies

variable {queues : ReceiveQueues σ} {serviceName : σ} {outcomes : Nat → CreateOutcome}

theorem add_existing {rq : ReceiveQueue} (h : queues serviceName = some rq) (messageType : MessageType)
    (callback : Nat) (outcome : CreateOutcome) :
    addMessageCallback heap queues serviceName messageType callback outcome =
      (true,Function.update queues serviceName
        (some (Messenger.addMessageCallback rq messageType callback))) := by
  rw [addMessageCallback,h]

theorem add_created (h : queues serviceName = none) (messageType : MessageType) (callback : Nat)
    {outcome : CreateOutcome} (hcreated : outcome = .created) :
    (addMessageCallback heap queues serviceName messageType callback outcome).2 serviceName =
      some (Messenger.addMessageCallback (createReceiveQueue heap) messageType callback) := by
  rw [addMessageCallback,h]
  simp only [create,h,if_pos hcreated,Function.update_self]

theorem add_failed (h : queues serviceName = none) (messageType : MessageType) (callback : Nat)
    {outcome : CreateOutcome} (hfailed : outcome ≠ .created) :
    addMessageCallback heap queues serviceName messageType callback outcome = (false,queues) := by
  rw [addMessageCallback,h]
  simp only [create,h,if_neg hfailed]

-- Each callback goes in front of those copied before it.
theorem copy_existing {rq : ReceiveQueue} (h : queues serviceName = some rq) (i : Nat)
    (callbacks : List ReceiveQueueCallback) :
    callbacksOf (copyCallbacks heap serviceName outcomes i callbacks queues) serviceName =
      callbacks.reverse ++ rq.messageCallbacks := by
  induction callbacks generalizing i queues rq with
  | nil => simp [copyCallbacks,callbacksOf,h]
  | cons cb callbacks ih =>
    rw [copyCallbacks,add_existing heap h,ih (Function.update_self _ _ _),List.reverse_cons,
      List.append_assoc]
    rfl

variable (outcomes) in
theorem copy_missing (h : queues serviceName = none) (i : Nat) (callbacks : List ReceiveQueueCallback) :
    ∃ copied, callbacksOf (copyCallbacks heap serviceName outcomes i callbacks queues) serviceName =
        copied.reverse ∧ copied <:+ callbacks ∧ (copied = callbacks ↔
          callbacks = [] ∨ outcomes i = .created) := by
  induction callbacks generalizing i with
  | nil => exact ⟨[],by simp [copyCallbacks,callbacksOf,h],List.suffix_refl _,by simp⟩
  | cons cb callbacks ih =>
    by_cases hcreated : outcomes i = .created
    · refine ⟨cb :: callbacks,?_,List.suffix_refl _,by simp [hcreated]⟩
      rw [copyCallbacks,copy_existing heap (add_created heap h cb.messageType cb.function hcreated),
        List.reverse_cons]
      rfl
    · obtain ⟨copied,hcopied,hsuffix,-⟩ := ih (i + 1)
      refine ⟨copied,?_,hsuffix.trans (List.suffix_cons _ _),?_⟩
      · rw [copyCallbacks,add_failed heap h cb.messageType cb.function hcreated]
        exact hcopied
      · refine iff_of_false (fun heq => ?_) (by simp [hcreated])
        have hle := hsuffix.length_le
        rw [heq,List.length_cons] at hle
        omega

end Copies

theorem rename_iff (queues : ReceiveQueues σ) (oldServiceName newServiceName : σ)
    (outcomes : Nat → CreateOutcome) :
    Renamed queues oldServiceName newServiceName
        (renameMessageCallback heap queues oldServiceName newServiceName outcomes) ↔
      queues oldServiceName = none ∨ (queues newServiceName).isSome = true ∨
        callbacksOf queues oldServiceName = [] ∨
        (outcomes 0 = .created ∧
          (callbacksOf queues oldServiceName).reverse = callbacksOf queues oldServiceName) := by
  rw [renameMessageCallback]
  cases hold : queues oldServiceName with
  | none => exact iff_of_true (.inr ⟨rfl,rfl⟩) (.inl rfl)
  | some oldRq =>
    cases hnew : queues newServiceName with
    | some newRq => exact iff_of_true (.inr ⟨rfl,rfl⟩) (.inr (.inl rfl))
    | none =>
      have hne : newServiceName ≠ oldServiceName := by
        rintro rfl
        exact absurd (hnew.symm.trans hold) (by simp)
      have hcallbacks : callbacksOf queues oldServiceName = oldRq.messageCallbacks := by
        rw [callbacksOf,hold]
        rfl
      obtain ⟨copied,hcopied,hsuffix,hall⟩ :=
        copy_missing heap outcomes hnew 0 oldRq.messageCallbacks
      have hnow : callbacksOf (deleteReceiveQueue (copyCallbacks heap newServiceName outcomes 0
          oldRq.messageCallbacks queues) oldServiceName) newServiceName = copied.reverse := by
        rw [callbacksOf,deleteReceiveQueue,Function.update_of_ne hne]
        exact hcopied
      have hgone : callbacksOf (deleteReceiveQueue (copyCallbacks heap newServiceName outcomes 0
          oldRq.messageCallbacks queues) oldServiceName) oldServiceName = [] := by
        rw [callbacksOf,deleteReceiveQueue,Function.update_self]
        rfl
      simp only [Renamed,hnow,hgone,hcallbacks]
      constructor
      · rintro (⟨-,hsame,-⟩ | ⟨hfalse,-⟩)
        · have hcopies : copied = oldRq.messageCallbacks :=
            hsuffix.eq_of_length (by rw [← hsame,List.length_reverse])
          rw [hcopies] at hsame
          rcases hall.mp hcopies with hnil | hcreated
          · exact .inr (.inr (.inl hnil))
          · exact .inr (.inr (.inr ⟨hcreated,hsame⟩))
        · exact absurd hfalse (by simp)
      · rintro (hnone | hsome | hnil | ⟨hcreated,hsame⟩)
        · exact absurd hnone (by simp)
        · exact absurd hsome (by simp)
        · rw [hall.mpr (.inl hnil),hnil]
          exact .inl ⟨trivial,rfl,trivial⟩
        · rw [hall.mpr (.inr hcreated)]
          exact .inl ⟨trivial,hsame,trivial⟩

section Instances

def twoCallbacks (heap : Nat → UInt8) : ReceiveQueues Nat :=
  let queues := (addMessageCallback heap (fun _ => none) 0 .notify 10 .created).2
  (addMessageCallback heap queues 0 .notify 11 .created).2

theorem order_reversed :
    ¬ Renamed (twoCallbacks fun _ => 0) 0 1
      (renameMessageCallback (fun _ => 0) (twoCallbacks fun _ => 0) 0 1 fun _ => .created) := by
  have hcallbacks : callbacksOf (twoCallbacks fun _ => 0) 0 =
      [⟨11,.notify⟩,⟨10,.notify⟩] := rfl
  have hnew : callbacksOf (renameMessageCallback (fun _ => 0) (twoCallbacks fun _ => 0) 0 1
      fun _ => .created).2 1 = [⟨10,.notify⟩,⟨11,.notify⟩] := rfl
  rintro (⟨-,hsame,-⟩ | ⟨hfalse,-⟩)
  · rw [hnew,hcallbacks] at hsame
    exact absurd hsame (by decide)
  · exact absurd hfalse (by decide)

end Instances

end ReceiveQueues

end Trema.Messenger
