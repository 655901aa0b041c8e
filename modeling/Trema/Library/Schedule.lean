import Mathlib.Data.List.Basic
import Mathlib.Data.List.Induction
import Mathlib.Order.Lattice
import Mathlib.Tactic.Common

namespace Trema.Library.Schedule

variable {κ : Type} [DecidableEq κ]

structure Entry (κ : Type) where
  id : Nat
  key : κ
  expiry : Int
  interval : Int
deriving DecidableEq

inductive Happening (κ : Type) where
  | added (e : Entry κ)
  | deleted (key : κ)
  | called (id : Nat) (now : Int)
  | returned (id : Nat) (now : Int)
deriving DecidableEq

-- One period on, and no earlier than now.
def Entry.again (e : Entry κ) (now : Int) : Entry κ := { e with expiry := max (e.expiry + e.interval) now }

def Entry.after (e : Entry κ) (now : Int) : Option (Entry κ) :=
  if 0 < e.interval then some (e.again now) else none

def happen (live : List (Entry κ)) : Happening κ → List (Entry κ)
  | .added e => live ++ [e]
  | .deleted key => live.filter (·.key ≠ key)
  | .called _ _ => live
  | .returned id now => live.filterMap fun e => if e.id = id then e.after now else some e

-- What is to fire after what has happened.
def scheduled (history : List (Happening κ)) : List (Entry κ) := history.foldl happen []

def calls (id : Nat) (history : List (Happening κ)) : Nat :=
  (history.filter fun h => match h with
    | .called i _ => i = id
    | _ => false).length

-- The histories of a timer service: new names for what is added, one call at a time, of something that is due.
inductive Lawful : List (Happening κ) → Option Nat → Prop
  | nil : Lawful [] none
  | added {history : List (Happening κ)} {running : Option Nat} {e : Entry κ} (h : Lawful history running)
      (hfresh : ∀ e', .added e' ∈ history → e'.id ≠ e.id) : Lawful (history ++ [.added e]) running
  | deleted {history : List (Happening κ)} {running : Option Nat} (key : κ) (h : Lawful history running) :
      Lawful (history ++ [.deleted key]) running
  | called {history : List (Happening κ)} {e : Entry κ} {now : Int} (h : Lawful history none)
      (hscheduled : e ∈ scheduled history) (hdue : e.expiry ≤ now) :
      Lawful (history ++ [.called e.id now]) (some e.id)
  | returned {history : List (Happening κ)} {id : Nat} (now : Int) (h : Lawful history (some id)) :
      Lawful (history ++ [.returned id now]) none

section Histories

variable {history front back : List (Happening κ)} {h last : Happening κ}

omit [DecidableEq κ] in
theorem calls_append (id : Nat) (front back : List (Happening κ)) :
    calls id (front ++ back) = calls id front + calls id back := by
  rw [calls,List.filter_append,List.length_append]
  rfl

omit [DecidableEq κ] in
-- What stands in a history is its last part or stands in the history before that.
theorem split_concat (hsplit : front ++ h :: back = history ++ [last]) :
    h = last ∧ front = history ∨ ∃ more, front ++ h :: more = history := by
  rcases List.eq_nil_or_concat back with rfl | ⟨more,x,rfl⟩
  · obtain ⟨hfront,hlast⟩ := List.append_inj' hsplit rfl
    exact .inl ⟨(List.cons.inj hlast).1,hfront⟩
  · rw [List.concat_eq_append,← List.cons_append,← List.append_assoc] at hsplit
    exact .inr ⟨more,(List.append_inj' hsplit rfl).1⟩

theorem scheduled_concat (history : List (Happening κ)) (h : Happening κ) :
    scheduled (history ++ [h]) = happen (scheduled history) h := by
  rw [scheduled,List.foldl_append]
  rfl

end Histories

section Laws

variable {history front back : List (Happening κ)} {running : Option Nat} {e e' : Entry κ} {key : κ} {id : Nat}
  {now : Int}

-- Nothing is called before it is due, and nothing that is not scheduled.
theorem Lawful.called_due (h : Lawful (front ++ .called id now :: back) running) :
    ∃ e ∈ scheduled front, e.id = id ∧ e.expiry ≤ now := by
  generalize hhistory : front ++ .called id now :: back = history at h
  induction h generalizing back with
  | nil => simp at hhistory
  | added h hfresh ih =>
    rcases split_concat hhistory with ⟨hlast,_⟩ | ⟨more,hmore⟩
    · cases hlast
    · exact ih hmore
  | deleted key h ih =>
    rcases split_concat hhistory with ⟨hlast,_⟩ | ⟨more,hmore⟩
    · cases hlast
    · exact ih hmore
  | returned now h ih =>
    rcases split_concat hhistory with ⟨hlast,_⟩ | ⟨more,hmore⟩
    · cases hlast
    · exact ih hmore
  | @called history e now' h hscheduled hdue ih =>
    rcases split_concat hhistory with ⟨hlast,rfl⟩ | ⟨more,hmore⟩
    · obtain ⟨rfl,rfl⟩ := Happening.called.inj hlast
      exact ⟨e,hscheduled,rfl,hdue⟩
    · exact ih hmore

theorem happen_origin {live : List (Entry κ)} {h : Happening κ} (he : e ∈ happen live h) :
    h = .added e ∨ ∃ e' ∈ live, e'.id = e.id ∧ e'.key = e.key ∧ e'.interval = e.interval := by
  cases h with
  | added new =>
    rcases List.mem_append.mp he with he | he
    · exact .inr ⟨e,he,rfl,rfl,rfl⟩
    · exact .inl (by rw [List.mem_singleton.mp he])
  | deleted key => exact .inr ⟨e,List.mem_of_mem_filter he,rfl,rfl,rfl⟩
  | called i now => exact .inr ⟨e,he,rfl,rfl,rfl⟩
  | returned i now =>
    obtain ⟨e',he',hafter⟩ := List.mem_filterMap.mp he
    split at hafter
    · unfold Entry.after at hafter
      split at hafter
      · obtain rfl := Option.some.inj hafter
        exact .inr ⟨e',he',rfl,rfl,rfl⟩
      · cases hafter
    · obtain rfl := Option.some.inj hafter
      exact .inr ⟨e',he',rfl,rfl,rfl⟩

-- What is scheduled has been added.
theorem scheduled_added (he : e ∈ scheduled history) :
    ∃ e', .added e' ∈ history ∧ e'.id = e.id ∧ e'.key = e.key ∧ e'.interval = e.interval := by
  induction history using List.reverseRecOn generalizing e with
  | nil => cases he
  | append_singleton history h ih =>
    rw [scheduled_concat] at he
    rcases happen_origin he with rfl | ⟨e',he',hid,hkey,hinterval⟩
    · exact ⟨e,by simp,rfl,rfl,rfl⟩
    · obtain ⟨e'',hadded,hid',hkey',hinterval'⟩ := ih he'
      exact ⟨e'',List.mem_append_left _ hadded,hid'.trans hid,hkey'.trans hkey,hinterval'.trans hinterval⟩

-- What is scheduled after a deletion of its key has been added since.
theorem scheduled_since (he : e ∈ scheduled (front ++ .deleted e.key :: back)) :
    ∃ e', .added e' ∈ back ∧ e'.id = e.id := by
  induction back using List.reverseRecOn generalizing e with
  | nil =>
    rw [scheduled_concat] at he
    simp [happen] at he
  | append_singleton back h ih =>
    rw [← List.cons_append,← List.append_assoc,scheduled_concat] at he
    rcases happen_origin he with rfl | ⟨e',he',hid,hkey,_⟩
    · exact ⟨e,by simp,rfl⟩
    · rw [← hkey] at he'
      obtain ⟨e'',hadded,hid'⟩ := ih he'
      exact ⟨e'',List.mem_append_left _ hadded,hid'.trans hid⟩

theorem Lawful.calls_added (h : Lawful history running) (hcalls : 0 < calls id history) :
    ∃ e, .added e ∈ history ∧ e.id = id := by
  induction h with
  | nil => cases hcalls
  | @added history running new h hfresh ih =>
    rw [calls_append] at hcalls
    obtain ⟨e,he,hid⟩ := ih hcalls
    exact ⟨e,List.mem_append_left _ he,hid⟩
  | deleted key h ih =>
    rw [calls_append] at hcalls
    obtain ⟨e,he,hid⟩ := ih hcalls
    exact ⟨e,List.mem_append_left _ he,hid⟩
  | returned now h ih =>
    rw [calls_append] at hcalls
    obtain ⟨e,he,hid⟩ := ih hcalls
    exact ⟨e,List.mem_append_left _ he,hid⟩
  | @called history e now h hscheduled hdue ih =>
    rw [calls_append] at hcalls
    by_cases hid : e.id = id
    · obtain ⟨e',he',hid',_⟩ := scheduled_added hscheduled
      exact ⟨e',List.mem_append_left _ he',hid'.trans hid⟩
    · have hnone : calls id [Happening.called (κ := κ) e.id now] = 0 := by simp [calls,hid]
      obtain ⟨e',he',hid'⟩ := ih (by omega)
      exact ⟨e',List.mem_append_left _ he',hid'⟩

theorem Lawful.added_unique (h : Lawful history running) (he : .added e ∈ history) (he' : .added e' ∈ history)
    (hid : e.id = e'.id) : e = e' := by
  induction h with
  | nil => cases he
  | @added history running new h hfresh ih =>
    rcases List.mem_append.mp he with hold | hnew
    · rcases List.mem_append.mp he' with hold' | hnew'
      · exact ih hold hold'
      · obtain rfl := Happening.added.inj (List.mem_singleton.mp hnew')
        exact absurd hid (hfresh e hold)
    · obtain rfl := Happening.added.inj (List.mem_singleton.mp hnew)
      rcases List.mem_append.mp he' with hold' | hnew'
      · exact absurd hid.symm (hfresh e' hold')
      · exact (Happening.added.inj (List.mem_singleton.mp hnew')).symm
  | deleted key h ih => exact ih (by simpa using he) (by simpa using he')
  | called h hscheduled hdue ih => exact ih (by simpa using he) (by simpa using he')
  | returned now h ih => exact ih (by simpa using he) (by simpa using he')

-- An entry without a period is called once at most, and is gone when the call returns.
theorem Lawful.once (h : Lawful history running) (he : .added e ∈ history) (hinterval : ¬ 0 < e.interval) :
    calls e.id history ≤ 1 ∧
      ∀ e' ∈ scheduled history, e'.id = e.id → calls e.id history = 0 ∨ running = some e.id := by
  induction h with
  | nil => cases he
  | @added history running new h hfresh ih =>
    rw [calls_append,scheduled_concat]
    rcases List.mem_append.mp he with hold | hnew
    · refine ⟨(ih hold).1,?_⟩
      intro e' he' hid
      rcases List.mem_append.mp he' with hlive | hnew
      · exact (ih hold).2 e' hlive hid
      · obtain rfl := List.mem_singleton.mp hnew
        exact absurd hid.symm (hfresh e hold)
    · obtain rfl := Happening.added.inj (List.mem_singleton.mp hnew)
      have hnone : calls e.id history = 0 := by
        by_contra hcalls
        obtain ⟨e',he',hid⟩ := h.calls_added (Nat.pos_of_ne_zero hcalls)
        exact hfresh e' he' hid
      rw [hnone]
      exact ⟨Nat.zero_le _,fun _ _ _ => .inl rfl⟩
  | @deleted history running key h ih =>
    have hold : Happening.added e ∈ history := by simpa using he
    rw [calls_append,scheduled_concat]
    exact ⟨(ih hold).1,fun e' he' hid => (ih hold).2 e' (List.mem_of_mem_filter he') hid⟩
  | @called history e₀ now h hscheduled hdue ih =>
    have hold : Happening.added e ∈ history := by simpa using he
    have hcount : calls e.id [Happening.called (κ := κ) e₀.id now] = if e₀.id = e.id then 1 else 0 := by
      by_cases hid : e₀.id = e.id
      · simp [calls,hid]
      · simp [calls,hid]
    rw [calls_append,scheduled_concat,hcount]
    by_cases hid : e₀.id = e.id
    · rcases (ih hold).2 e₀ hscheduled hid with hnone | hrunning
      · rw [hnone,if_pos hid]
        exact ⟨le_rfl,fun _ _ _ => .inr (by rw [hid])⟩
      · cases hrunning
    · rw [if_neg hid]
      refine ⟨(ih hold).1,fun e' he' hid' => .inl ?_⟩
      rcases (ih hold).2 e' he' hid' with hnone | hrunning
      · exact hnone
      · cases hrunning
  | @returned history id now h ih =>
    have hold : Happening.added e ∈ history := by simpa using he
    rw [calls_append,scheduled_concat]
    refine ⟨(ih hold).1,fun e' he' hid' => .inl ?_⟩
    obtain ⟨e'',he'',hafter⟩ := List.mem_filterMap.mp he'
    obtain ⟨e₀,he₀,hid₀,_,hinterval₀⟩ := scheduled_added he''
    split at hafter
    · unfold Entry.after at hafter
      split at hafter
      · rename_i hpos
        obtain rfl := Option.some.inj hafter
        obtain rfl := h.added_unique hold he₀ (hid'.symm.trans hid₀.symm)
        exact absurd (hinterval₀ ▸ hpos) hinterval
      · cases hafter
    · rename_i hother
      obtain rfl := Option.some.inj hafter
      rcases (ih hold).2 e'' he'' hid' with hnone | hrunning
      · exact hnone
      · exact absurd (hid'.trans (Option.some.inj hrunning).symm) hother

theorem Lawful.added_fresh (h : Lawful (front ++ .added e :: back) running) :
    ∀ e', .added e' ∈ front → e'.id ≠ e.id := by
  generalize hhistory : front ++ .added e :: back = history at h
  induction h generalizing back with
  | nil => simp at hhistory
  | @added history running new h hfresh ih =>
    rcases split_concat hhistory with ⟨hlast,rfl⟩ | ⟨more,hmore⟩
    · obtain rfl := Happening.added.inj hlast
      exact hfresh
    · exact ih hmore
  | deleted key h ih =>
    rcases split_concat hhistory with ⟨hlast,_⟩ | ⟨more,hmore⟩
    · cases hlast
    · exact ih hmore
  | called h hscheduled hdue ih =>
    rcases split_concat hhistory with ⟨hlast,_⟩ | ⟨more,hmore⟩
    · cases hlast
    · exact ih hmore
  | returned now h ih =>
    rcases split_concat hhistory with ⟨hlast,_⟩ | ⟨more,hmore⟩
    · cases hlast
    · exact ih hmore

-- What was there when its key was deleted is not called afterwards.
theorem Lawful.not_called (h : Lawful (front ++ .deleted e.key :: (back ++ .called id now :: history)) running)
    (he : .added e ∈ front) : e.id ≠ id := by
  rintro rfl
  have hcalled : Lawful (front ++ .deleted e.key :: back ++ .called e.id now :: history) running := by
    rw [List.append_assoc]
    exact h
  obtain ⟨e₁,he₁,hid₁,_⟩ := hcalled.called_due
  obtain ⟨e₂,he₂,hid₂,hkey₂,_⟩ := scheduled_added he₁
  have hsame : e = e₂ := hcalled.added_unique (by simp [he]) (List.mem_append_left _ he₂)
    (hid₁.symm.trans hid₂.symm)
  rw [hsame,hkey₂] at he₁
  obtain ⟨e₃,he₃,hid₃⟩ := scheduled_since he₁
  obtain ⟨before,after,rfl⟩ := List.append_of_mem he₃
  have hagain : Lawful (front ++ .deleted e.key :: before ++ .added e₃ :: (after ++ .called e.id now :: history))
      running := by
    simpa using h
  exact hagain.added_fresh e (by simp [he]) (hid₁.symm.trans hid₃.symm)

end Laws

end Trema.Library.Schedule
