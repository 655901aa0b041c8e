import Trema.Library.GetoptRuns

namespace Trema.Startup

open Library Getopt

-- new_argv and argc_tmp; the pointer to an argument is the argument's number.
structure Slots where
  newArgv : List (Option Nat)
  argcTmp : Int
deriving DecidableEq, Repr

section Code

variable {ε σ : Type} (o : Options) (args : List Arg)

def textAt (args : List Arg) (p : Nat) : Arg := args.getD p []

-- new_argv[ optind - k ] = NULL
def drop (newArgv : List (Option Nat)) (optind k : Nat) : Run ε (List (Option Nat)) :=
  if k ≤ optind ∧ optind - k < newArgv.length then .ok (newArgv.set (optind - k) none)
  else .error .outOfBounds

def dropOne (s : Slots) (optind : Nat) : Run ε Slots := do
  let newArgv ← drop s.newArgv optind 1
  pure ⟨newArgv,s.argcTmp - 1⟩

def dropTwo (s : Slots) (optind : Nat) : Run ε Slots := do
  let newArgv ← drop s.newArgv optind 1
  let newArgv ← drop newArgv optind 2
  pure ⟨newArgv,s.argcTmp - 2⟩

def dropOption (s : Slots) (optind : Nat) (optarg : Option Arg) : Run ε Slots :=
  match optarg with
  | none => dropOne s optind
  | some _ =>
    match s.newArgv[optind - 1]? with
    | some (some p) => if '=' ∈ textAt args p then dropOne s optind else dropTwo s optind
    | _ => .error .outOfBounds

-- The switch and what follows it; every other answer is passed over.
def handle (cases : List Char) (effect : σ → Char → Option Arg → Run ε σ) (s : σ × Slots)
    (a : Answer) (optind : Nat) : Run ε (σ × Slots) :=
  match a with
  | .unknown => .ok s
  | .option c optarg =>
    if c ∈ cases then do
      let settings ← effect s.1 c optarg
      let slots ← dropOption args s.2 optind optarg
      pure (settings,slots)
    else .ok s

-- *argv and its NULL afterwards, and *argc
def compact (argv : List Nat) (s : Slots) : Run ε (List (Option Nat) × Int) :=
  let kept := s.newArgv.filterMap id
  let out := kept.map some ++ (argv.map some ++ [none]).drop kept.length
  if s.argcTmp < argv.length then
    if 0 ≤ s.argcTmp then .ok (out.set s.argcTmp.toNat none,s.argcTmp) else .error .outOfBounds
  else .ok (out,s.argcTmp)

def parseArgvWith (cases : List Char) (effect : σ → Char → Option Arg → Run ε σ) (settings : σ)
    (fuel : Nat) : Run ε (σ × (List (Option Nat) × Int)) := do
  let argv := List.range args.length
  let slots : Slots := ⟨argv.map some,args.length⟩
  let (g,settings,slots) ← eachOption o (textAt args) (handle args cases effect) fuel (start argv)
    (settings,slots)
  let out ← compact g.argv slots
  pure (settings,out)

end Code

section Spelling

variable (o : Options) (cases : List Char) (args : List Arg)

def standard (f : Found) : Bool :=
  match f.answer with
  | .option c _ => c ∈ cases
  | .unknown => false

-- The standard options that getopt finds, with the places of their elements.
def standardOptions : List Found := (scan o 1 false (args.drop 1)).filter (standard cases)

def occupied (f : Found) : List Nat := if f.optind = f.slot + 2 then [f.slot,f.slot + 1] else [f.slot]

def dropped (f : Found) : List Nat :=
  if f.answer.valued = true ∧ '=' ∉ textAt args (f.optind - 1) then [f.optind - 1,f.optind - 2]
  else [f.optind - 1]

-- An option without a value ends its element; a value is set off by `=` or by standing alone without one.
def Plain (f : Found) : Prop :=
  if f.answer.valued = true then ('=' ∈ textAt args (f.optind - 1) ↔ f.optind = f.slot + 1)
  else f.optind = f.slot + 1

end Spelling

def shown (n : Nat) (cs : List Nat) : List (Option Nat) :=
  (List.range n).map fun j => if j ∈ cs then none else some j

def kept (n : Nat) (cs : List Nat) : List Nat := (List.range n).filter (· ∉ cs)

section Marking

variable {ε σ : Type} {args : List Arg} {n : Nat} {cs : List Nat}

theorem length_shown : (shown n cs).length = n := by
  rw [shown,List.length_map,List.length_range]

theorem shown_at {i : Nat} (hi : i < n) : (shown n cs)[i]? = some (if i ∈ cs then none else some i) := by
  simp [shown,hi]

theorem shown_set (i : Nat) : (shown n cs).set i none = shown n (cs ++ [i]) := by
  refine List.ext_getElem? fun j => ?_
  rw [List.getElem?_set,length_shown]
  by_cases hj : j < n
  · rw [shown_at hj,shown_at hj]
    by_cases hij : i = j
    · subst hij
      simp [hj]
    · have hji : ¬ j = i := fun h => hij h.symm
      simp [hij,hji]
  · have hnone : ∀ ds : List Nat, (shown n ds)[j]? = none :=
      fun ds => List.getElem?_eq_none_iff.mpr (by rw [length_shown]; omega)
    rw [hnone,hnone]
    split
    · rw [if_neg (by omega)]
    · rfl

theorem drop_shown {optind k : Nat} (hk : k ≤ optind) (hn : optind - k < n) :
    (drop (shown n cs) optind k : Run ε _) = .ok (shown n (cs ++ [optind - k])) := by
  rw [drop,if_pos ⟨hk,by rw [length_shown]; exact hn⟩,shown_set]

theorem kept_shown : (shown n cs).filterMap id = kept n cs := by
  rw [shown,List.filterMap_map,kept,← List.filterMap_eq_filter]
  refine List.filterMap_congr fun j _ => ?_
  by_cases hj : j ∈ cs <;> simp [Option.guard,hj]

theorem argc_after (ds : List Nat) :
    (n : Int) - cs.length - ds.length = n - (cs ++ ds).length := by
  rw [List.length_append]
  omega

theorem dropOption_shown {f : Found} {c : Char} {optarg : Option Arg} (hf : f.Placed 1 args.length)
    (hanswer : f.answer = .option c optarg) (hfree : ∀ x ∈ cs, x < f.slot) :
    (dropOption args ⟨shown args.length cs,args.length - cs.length⟩ f.optind optarg : Run ε Slots) =
      .ok ⟨shown args.length (cs ++ dropped args f),args.length - (cs ++ dropped args f).length⟩ := by
  have hfirst := hf.from_first
  have hstarted := hf.started
  have hends := hf.ends
  have hone : (drop (shown args.length cs) f.optind 1 : Run ε _) =
      .ok (shown args.length (cs ++ [f.optind - 1])) := drop_shown (by omega) (by omega)
  cases optarg with
  | none =>
    have hvalued : f.answer.valued = false := by
      rw [hanswer]
      rfl
    have hdropped : dropped args f = [f.optind - 1] := by
      rw [dropped,if_neg (by simp [hvalued])]
    simp only [dropOption,dropOne,hone,ok_bind,hdropped]
    rw [← argc_after]
    rfl
  | some value =>
    have hvalued : f.answer.valued = true := by
      rw [hanswer]
      rfl
    have hadvanced := hf.advanced hvalued
    have hshown : (shown args.length cs)[f.optind - 1]? = some (some (f.optind - 1)) := by
      rw [shown_at (by omega),if_neg]
      intro hmem
      have hlt := hfree _ hmem
      omega
    by_cases hequals : '=' ∈ textAt args (f.optind - 1)
    · have hdropped : dropped args f = [f.optind - 1] := by
        rw [dropped,if_neg (by simp [hequals])]
      simp only [dropOption,dropOne,hshown,if_pos hequals,hone,ok_bind,hdropped]
      rw [← argc_after]
      rfl
    · have hdropped : dropped args f = [f.optind - 1,f.optind - 2] := by
        rw [dropped,if_pos ⟨hvalued,hequals⟩]
      have htwo : (drop (shown args.length (cs ++ [f.optind - 1])) f.optind 2 : Run ε _) =
          .ok (shown args.length (cs ++ [f.optind - 1] ++ [f.optind - 2])) := drop_shown (by omega) (by omega)
      simp only [dropOption,dropTwo,hshown,if_neg hequals,hone,htwo,ok_bind,hdropped]
      rw [← argc_after,List.append_assoc]
      rfl

def applied (effect : σ → Char → Option Arg → Run ε σ) (s : σ) (f : Found) : Run ε σ :=
  match f.answer with
  | .option c optarg => effect s c optarg
  | .unknown => .ok s

theorem dropped_lt {f f' : Found} (hf : f.Placed 1 args.length) (h : f.optind ≤ f'.slot) {x : Nat}
    (hx : x ∈ dropped args f) : x < f'.slot := by
  have hfirst := hf.from_first
  have hstarted := hf.started
  unfold dropped at hx
  split at hx
  · simp only [List.mem_cons,List.not_mem_nil,or_false] at hx
    omega
  · simp only [List.mem_cons,List.not_mem_nil,or_false] at hx
    omega

-- Every standard option takes its places out, in the order in which getopt finds them.
theorem handle_all {cases : List Char} {effect : σ → Char → Option Arg → Run ε σ} {fs : List Found}
    (hplaced : ∀ f ∈ fs, f.Placed 1 args.length)
    (hordered : fs.Pairwise fun f f' => f.optind ≤ f'.slot)
    (hfree : ∀ f ∈ fs, ∀ x ∈ cs, x < f.slot) (settings : σ) :
    fs.foldlM (fun s f => handle args cases effect s f.answer f.optind)
        (settings,⟨shown args.length cs,args.length - cs.length⟩) =
      (do let settings ← (fs.filter (standard cases)).foldlM (applied effect) settings
          pure (settings,⟨shown args.length (cs ++ (fs.filter (standard cases)).flatMap (dropped args)),
            args.length - (cs ++ (fs.filter (standard cases)).flatMap (dropped args)).length⟩)) := by
  induction fs generalizing cs settings with
  | nil => simp only [List.foldlM_nil,List.filter_nil,List.flatMap_nil,List.append_nil]; rfl
  | cons f fs ih =>
    have hf := hplaced f (by simp)
    obtain ⟨hhead,htail⟩ := List.pairwise_cons.mp hordered
    have hrest : ∀ f' ∈ fs, f'.Placed 1 args.length := fun f' h => hplaced f' (by simp [h])
    by_cases hstandard : standard cases f = true
    · obtain ⟨c,optarg,hanswer,hcase⟩ : ∃ c optarg, f.answer = .option c optarg ∧ c ∈ cases := by
        unfold standard at hstandard
        split at hstandard
        · rename_i c optarg hanswer
          exact ⟨c,optarg,hanswer,by simpa using hstandard⟩
        · cases hstandard
      have hdrop := @dropOption_shown ε _ _ _ _ _ hf hanswer (hfree f (by simp))
      have hlater : ∀ f' ∈ fs, ∀ x ∈ cs ++ dropped args f, x < f'.slot := by
        intro f' hf' x hx
        rcases List.mem_append.mp hx with hx | hx
        · exact hfree f' (by simp [hf']) x hx
        · exact dropped_lt hf (hhead f' hf') hx
      rw [List.filter_cons_of_pos hstandard,List.foldlM_cons,List.foldlM_cons,List.flatMap_cons,
        ← List.append_assoc]
      have happlied : applied effect settings f = effect settings c optarg := by
        rw [applied,hanswer]
      rw [happlied]
      simp only [handle,hanswer,if_pos hcase]
      cases heffect : effect settings c optarg with
      | error e => rfl
      | ok t =>
        simp only [ok_bind,hdrop]
        exact ih hrest htail hlater t
    · have hpass : handle args cases effect (settings,⟨shown args.length cs,args.length - cs.length⟩)
          f.answer f.optind = .ok (settings,⟨shown args.length cs,args.length - cs.length⟩) := by
        unfold standard at hstandard
        cases hanswer : f.answer with
        | unknown => rfl
        | option c optarg =>
          rw [hanswer] at hstandard
          exact if_neg (by simpa using hstandard)
      rw [List.filter_cons_of_neg hstandard,List.foldlM_cons,hpass]
      exact ih hrest htail (fun f' hf' => hfree f' (by simp [hf'])) settings

end Marking

end Trema.Startup
