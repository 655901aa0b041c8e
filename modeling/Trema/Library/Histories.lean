import Mathlib.Data.List.Basic
import Mathlib.Data.List.Induction
import Mathlib.Logic.Function.Basic
import Mathlib.Tactic.Common
import Trema.Library.Fuel

namespace Trema.Library

variable {κ ν ε σ ι ω : Type}

-- What happens to a memory of one value a key: a value is noted, or what `drop` names is dropped.
inductive Notice (κ ν : Type) where
  | note (key : κ) (value : ν)
  | purge (drop : κ → ν → Bool)

def Notice.Spares (key : κ) (value : ν) : Notice κ ν → Prop
  | .note other _ => other ≠ key
  | .purge drop => drop key value = false

section Memory

variable [DecidableEq κ]

def Notice.update (memory : κ → Option ν) : Notice κ ν → κ → Option ν
  | .note key value => Function.update memory key (some value)
  | .purge drop => fun key => (memory key).filter fun value => !drop key value

def remembered (history : List (Notice κ ν)) : κ → Option ν := history.foldl Notice.update fun _ => none

theorem remembered_snoc (history : List (Notice κ ν)) (n : Notice κ ν) :
    remembered (history ++ [n]) = n.update (remembered history) := by
  rw [remembered,List.foldl_append]
  rfl

theorem update_spared {memory : κ → Option ν} {key : κ} {value : ν} {n : Notice κ ν} :
    n.update memory key = some value ↔
      n = .note key value ∨ memory key = some value ∧ n.Spares key value := by
  cases n with
  | note other new =>
    by_cases hother : other = key
    · subst hother
      simp [Notice.update,Notice.Spares]
    · simp [Notice.update,Notice.Spares,Function.update_of_ne (Ne.symm hother),hother]
  | purge drop => simp [Notice.update,Notice.Spares]

-- What is remembered is the last thing noted, if nothing since has dropped it.
theorem remembered_eq_some {history : List (Notice κ ν)} {key : κ} {value : ν} :
    remembered history key = some value ↔
      ∃ front back, history = front ++ .note key value :: back ∧ ∀ n ∈ back, n.Spares key value := by
  induction history using List.reverseRecOn with
  | nil => simp [remembered]
  | append_singleton history n ih =>
    rw [remembered_snoc,update_spared,ih]
    constructor
    · rintro (rfl | ⟨⟨front,back,rfl,hback⟩,hn⟩)
      · exact ⟨history,[],rfl,by simp⟩
      · refine ⟨front,back ++ [n],by simp,fun m hm => ?_⟩
        rcases List.mem_append.mp hm with hm | hm
        · exact hback m hm
        · rwa [List.mem_singleton.mp hm]
    · rintro ⟨front,back,hsplit,hback⟩
      rcases List.eq_nil_or_concat' back with rfl | ⟨back,m,rfl⟩
      · obtain ⟨_,hn⟩ := List.append_inj' hsplit rfl
        exact .inl (List.singleton_inj.mp hn)
      · rw [← List.cons_append,← List.append_assoc] at hsplit
        obtain ⟨rfl,hn⟩ := List.append_inj' hsplit rfl
        obtain rfl := List.singleton_inj.mp hn
        exact .inr ⟨⟨front,back,rfl,fun m hm => hback m (by simp [hm])⟩,hback n (by simp)⟩

-- The same of a history in which only some of the events matter to the memory.
theorem remembered_filterMap_eq_some {ι : Type} {f : ι → Option (Notice κ ν)} {history : List ι} {key : κ} {value : ν} :
    remembered (history.filterMap f) key = some value ↔ ∃ front i back, history = front ++ i :: back ∧
      f i = some (.note key value) ∧ ∀ j ∈ back, ∀ n, f j = some n → n.Spares key value := by
  rw [remembered_eq_some]
  constructor
  · rintro ⟨before,after,hsplit,hafter⟩
    obtain ⟨front,rest,rfl,rfl,hrest⟩ := List.filterMap_eq_append_iff.mp hsplit
    obtain ⟨skipped,i,back,rfl,hskipped,hi,rfl⟩ := List.filterMap_eq_cons_iff.mp hrest
    refine ⟨front ++ skipped,i,back,by simp,hi,fun j hj n hn => hafter n ?_⟩
    exact List.mem_filterMap.mpr ⟨j,hj,hn⟩
  · rintro ⟨front,i,back,rfl,hi,hback⟩
    refine ⟨front.filterMap f,back.filterMap f,?_,fun n hn => ?_⟩
    · rw [List.filterMap_append,List.filterMap_cons_some hi]
    · obtain ⟨j,hj,hn⟩ := List.mem_filterMap.mp hn
      exact hback j hj n hn

end Memory

-- A machine that answers each of its inputs with a list of outputs.
def respond (step : Nat → σ → ι → Run ε (σ × List ω)) (n : Nat) : σ → List ι → Run ε (σ × List (List ω))
  | s, [] => pure (s,[])
  | s, i :: rest => do
    let (s,out) ← step n s i
    let (s,outs) ← respond step n s rest
    pure (s,out :: outs)

-- The answers, each a function of the inputs and of the outputs before it.
def answers (answer : List ι → List ω → ι → List ω) (history : List ι) (sent : List ω) : List ι → List (List ω)
  | [] => []
  | i :: rest =>
    answer history sent i :: answers answer (history ++ [i]) (sent ++ answer history sent i) rest

section Answers

variable {answer : List ι → List ω → ι → List ω}

@[simp] theorem length_answers (history : List ι) (sent : List ω) (l : List ι) :
    (answers answer history sent l).length = l.length := by
  induction l generalizing history sent with
  | nil => rfl
  | cons i rest ih => rw [answers,List.length_cons,List.length_cons,ih]

theorem answers_split (history : List ι) (sent : List ω) (front back : List ι) (i : ι) :
    (answers answer history sent (front ++ i :: back))[front.length]? = some (answer (history ++ front)
      (sent ++ ((answers answer history sent (front ++ i :: back)).take front.length).flatten) i) := by
  induction front generalizing history sent with
  | nil => simp [answers]
  | cons j front ih =>
    rw [List.cons_append,answers,List.length_cons,List.getElem?_cons_succ,ih]
    simp

end Answers

section Runs

variable {step : Nat → σ → ι → Run ε (σ × List ω)} (hstep : ∀ s i, Settled fun n => step n s i)
include hstep

theorem settled_respond (s : σ) (l : List ι) : Settled fun n => respond step n s l := by
  induction l generalizing s with
  | nil => exact settled_const _
  | cons i rest ih =>
    exact settled_bind (hstep s i) fun p => settled_bind (ih p.1) fun _ => settled_const _

theorem settled_rest (s : σ) (out : List ω) (l : List ι) :
    Settled fun n => respond step n s l >>= fun p => pure (p.1,out :: p.2) :=
  settled_bind (settled_respond hstep s l) fun _ => settled_const _

variable {Inv : List ι → List ω → σ → Prop} {Fit : ι → Prop} {Stops : List ι → ι → Prop}
  {answer : List ι → List ω → ι → List ω} {e : Stop ε}

theorem respond_told
    (hgood : ∀ {history sent s i}, Inv history sent s → Fit i → ¬ Stops history i →
      ∃ s', Yields (fun n => step n s i) (.ok (s',answer history sent i)) ∧
        Inv (history ++ [i]) (sent ++ answer history sent i) s')
    (hstop : ∀ {history sent s i}, Inv history sent s → Fit i → Stops history i →
      Yields (fun n => step n s i) (.error e))
    {history : List ι} {sent : List ω} {s : σ} {l : List ι} (hs : Inv history sent s) (hl : ∀ i ∈ l, Fit i) :
    ((∀ front i back, l = front ++ i :: back → ¬ Stops (history ++ front) i) →
      ∃ s', Yields (fun n => respond step n s l) (.ok (s',answers answer history sent l)) ∧
        Inv (history ++ l) (sent ++ (answers answer history sent l).flatten) s') ∧
    ((∃ front i back, l = front ++ i :: back ∧ Stops (history ++ front) i) →
      Yields (fun n => respond step n s l) (.error e)) := by
  induction l generalizing history sent s with
  | nil =>
    refine ⟨fun _ => ⟨s,yields_ok rfl,by simpa [answers] using hs⟩,?_⟩
    rintro ⟨front,i,back,hsplit,_⟩
    exact absurd hsplit (by simp)
  | cons i rest ih =>
    have hpush : ∀ (out : List ω) (p : σ × List (List ω)),
        Settled fun _ => (Except.ok (p.1,out :: p.2) : Run ε (σ × List (List ω))) := fun _ _ => settled_const _
    have hsettled : ∀ p : σ × List ω, Settled fun n => respond step n p.1 rest >>= fun q => .ok (q.1,p.2 :: q.2) :=
      fun p => settled_rest hstep p.1 p.2 rest
    by_cases hfirst : Stops history i
    · refine ⟨fun hnone => absurd hfirst (by simpa using hnone [] i rest rfl),fun _ => ?_⟩
      exact (yields_bind (hstep s i) hsettled _).mpr (.inr ⟨e,hstop hs (hl i (by simp)) hfirst,rfl⟩)
    · obtain ⟨s',hyields,hs'⟩ := hgood hs (hl i (by simp)) hfirst
      obtain ⟨hrun,hstops⟩ := ih hs' fun j hj => hl j (by simp [hj])
      constructor
      · intro hnone
        obtain ⟨t,ht,hinv⟩ := hrun fun front j back hsplit => by
          rw [List.append_assoc]
          exact hnone (i :: front) j back (by rw [hsplit]; rfl)
        refine ⟨t,(yields_bind (hstep s i) hsettled _).mpr (.inl ⟨_,hyields,?_⟩),?_⟩
        · exact (yields_bind (settled_respond hstep s' rest) (hpush _) _).mpr (.inl ⟨_,ht,yields_ok rfl⟩)
        · simpa [answers] using hinv
      · rintro ⟨front,j,back,hsplit,hj⟩
        refine (yields_bind (hstep s i) hsettled _).mpr (.inl ⟨_,hyields,?_⟩)
        refine (yields_bind (settled_respond hstep s' rest) (hpush _) _).mpr (.inr ⟨e,hstops ?_,rfl⟩)
        cases front with
        | nil =>
          rw [List.nil_append,List.cons.injEq] at hsplit
          rw [List.append_nil,← hsplit.1] at hj
          exact absurd hj hfirst
        | cons k front =>
          rw [List.cons_append,List.cons.injEq] at hsplit
          refine ⟨front,j,back,hsplit.2,?_⟩
          rw [List.append_assoc,hsplit.1]
          exact hj

end Runs

end Trema.Library
