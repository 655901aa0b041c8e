import Mathlib.Algebra.BigOperators.Group.List.Basic
import Mathlib.Algebra.Order.Ring.Nat
import Trema.Library.Fuel

namespace Trema.Library.Getopt

abbrev Arg := List Char

structure LongOption where
  name : Arg
  hasArg : Bool
  val : Char
deriving DecidableEq, Repr

structure Options where
  short : List Char
  long : List LongOption
deriving DecidableEq, Repr

-- Whether a letter of the option string takes an argument.
def Options.letter (o : Options) (c : Char) : Option Bool :=
  if c = ':' ∨ c = ';' then none
  else match o.short.dropWhile (· ≠ c) with
    | [] => none
    | _ :: rest => some (rest.head? == some ':')

-- A name in full, or the beginning of names that all mean the same option.
def Options.named (o : Options) (name : Arg) : Option LongOption :=
  match o.long.find? (·.name == name) with
  | some l => some l
  | none =>
    match o.long.filter (name.isPrefixOf ·.name) with
    | [] => none
    | l :: rest => if rest.all (fun p => p.hasArg == l.hasArg && p.val == l.val) then some l else none

inductive Answer where
  | option (val : Char) (optarg : Option Arg)
  | unknown
deriving DecidableEq, Repr

def nonoption (a : Arg) : Bool := a.head? != some '-' || a == ['-']

structure State (π : Type) where
  argv : List π
  optind : Nat
  firstNonopt : Nat
  lastNonopt : Nat
  nextchar : Arg
deriving DecidableEq, Repr

def start {π : Type} (argv : List π) : State π := ⟨argv,1,1,1,[]⟩

section Machine

variable {π : Type} (o : Options) (text : π → Arg)

-- The options met since the non-options change places with them.
def exchange (g : State π) : State π :=
  { g with
    argv := g.argv.take g.firstNonopt ++ ((g.argv.take g.optind).drop g.lastNonopt ++
      ((g.argv.take g.lastNonopt).drop g.firstNonopt ++ g.argv.drop g.optind))
    firstNonopt := g.firstNonopt + (g.optind - g.lastNonopt)
    lastNonopt := g.optind }

def settle (g : State π) : State π :=
  if g.firstNonopt ≠ g.lastNonopt ∧ g.lastNonopt ≠ g.optind then exchange g
  else if g.lastNonopt ≠ g.optind then { g with firstNonopt := g.optind }
  else g

def skip (g : State π) : State π :=
  let stop := g.optind + ((g.argv.drop g.optind).takeWhile fun p => nonoption (text p)).length
  { g with optind := stop, lastNonopt := stop }

def terminate (g : State π) : State π :=
  let g := { g with optind := g.optind + 1 }
  let g := if g.firstNonopt ≠ g.lastNonopt ∧ g.lastNonopt ≠ g.optind then exchange g
    else if g.firstNonopt = g.lastNonopt then { g with firstNonopt := g.optind }
    else g
  { g with lastNonopt := g.argv.length, optind := g.argv.length }

def giveUp (g : State π) : State π :=
  if g.firstNonopt ≠ g.lastNonopt then { g with optind := g.firstNonopt } else g

def shortStep (g : State π) : Option Answer × State π :=
  match g.nextchar with
  | [] => (none,g)
  | c :: more =>
    let g := { g with nextchar := more, optind := if more = [] then g.optind + 1 else g.optind }
    match o.letter c with
    | none => (some .unknown,g)
    | some false => (some (.option c none),g)
    | some true =>
      if more ≠ [] then (some (.option c (some more)),{ g with optind := g.optind + 1, nextchar := [] })
      else match g.argv[g.optind]? with
        | none => (some .unknown,g)
        | some p => (some (.option c (some (text p))),{ g with optind := g.optind + 1 })

def longStep (g : State π) (body : Arg) : Option Answer × State π :=
  let name := body.takeWhile (· ≠ '=')
  let g := { g with optind := g.optind + 1, nextchar := [] }
  match o.named name with
  | none => (some .unknown,g)
  | some l =>
    match body.drop name.length with
    | _ :: value => if l.hasArg then (some (.option l.val (some value)),g) else (some .unknown,g)
    | [] =>
      if l.hasArg then
        match g.argv[g.optind]? with
        | none => (some .unknown,g)
        | some p => (some (.option l.val (some (text p))),{ g with optind := g.optind + 1 })
      else (some (.option l.val none),g)

def getoptLong (g : State π) : Option Answer × State π :=
  if g.nextchar ≠ [] then shortStep o text g
  else
    let g := skip text (settle g)
    match g.argv[g.optind]? with
    | none => (none,giveUp g)
    | some p =>
      if text p = ['-','-'] then (none,giveUp (terminate g))
      else if ['-','-'].isPrefixOf (text p) then longStep o text g ((text p).drop 2)
      else shortStep o text { g with nextchar := (text p).drop 1 }

-- The caller's loop: every answer and the optind that goes with it, until there is none.
def eachOption {ε σ : Type} (handle : σ → Answer → Nat → Run ε σ) :
    Nat → State π → σ → Run ε (State π × σ)
  | 0, _, _ => .error .outOfFuel
  | n + 1, g, s =>
    match getoptLong o text g with
    | (none,g) => .ok (g,s)
    | (some a,g) => do
      let s ← handle s a g.optind
      eachOption handle n g s

end Machine

structure Found where
  slot : Nat
  answer : Answer
  optind : Nat
deriving DecidableEq, Repr

section Scan

variable (o : Options)

def letterAnswer (c : Char) : Answer := if o.letter c = none then .unknown else .option c none

-- The answers from the letters of one element, and whether the next one is a value.
def cluster (i : Nat) (next : Option Arg) : Arg → List Found × Bool
  | [] => ([],false)
  | c :: more =>
    if o.letter c = some true then
      if more ≠ [] then ([⟨i,.option c (some more),i + 1⟩],false)
      else match next with
        | none => ([⟨i,.unknown,i + 1⟩],false)
        | some value => ([⟨i,.option c (some value),i + 2⟩],true)
    else
      (⟨i,letterAnswer o c,if more = [] then i + 1 else i⟩ :: (cluster i next more).1,
        (cluster i next more).2)

def long (i : Nat) (next : Option Arg) (body : Arg) : Found × Bool :=
  let name := body.takeWhile (· ≠ '=')
  match o.named name with
  | none => (⟨i,.unknown,i + 1⟩,false)
  | some l =>
    match body.drop name.length with
    | _ :: value => (⟨i,if l.hasArg then .option l.val (some value) else .unknown,i + 1⟩,false)
    | [] =>
      if l.hasArg then
        match next with
        | none => (⟨i,.unknown,i + 1⟩,false)
        | some value => (⟨i,.option l.val (some value),i + 2⟩,true)
      else (⟨i,.option l.val none,i + 1⟩,false)

def element (i : Nat) (a : Arg) (next : Option Arg) : List Found × Bool :=
  if ['-','-'].isPrefixOf a then ([(long o i next (a.drop 2)).1],(long o i next (a.drop 2)).2)
  else cluster o i next (a.drop 1)

-- The answers from arguments that stay where they are; `i` is the place of the first.
def scan : Nat → Bool → List Arg → List Found
  | _, _, [] => []
  | i, true, _ :: rest => scan (i + 1) false rest
  | i, false, a :: rest =>
    if nonoption a then scan (i + 1) false rest
    else if a = ['-','-'] then []
    else (element o i a rest.head?).1 ++ scan (i + 1) (element o i a rest.head?).2 rest

end Scan

def Answer.valued : Answer → Bool
  | .option _ (some _) => true
  | _ => false

-- Where an answer stands: in its own element, or with the value behind it.
structure Found.Placed (f : Found) (first stop : Nat) : Prop where
  from_first : first ≤ f.slot
  started : f.slot ≤ f.optind
  inside : f.slot < stop
  ends : f.optind ≤ stop
  short : f.optind ≤ f.slot + 2
  advanced : f.answer.valued = true → f.slot < f.optind
  alone : f.slot + 2 = f.optind → f.answer.valued = true

theorem Found.Placed.mono {f : Found} {first first' stop stop' : Nat} (h : f.Placed first stop)
    (hfirst : first' ≤ first) (hstop : stop ≤ stop') : f.Placed first' stop' :=
  ⟨hfirst.trans h.from_first,h.started,h.inside.trans_le hstop,h.ends.trans hstop,h.short,h.advanced,h.alone⟩

section Places

variable {o : Options} {i stop : Nat} {next : Option Arg}

theorem letterAnswer_valued (c : Char) : (letterAnswer o c).valued = false := by
  unfold letterAnswer
  split <;> rfl

-- The answers of the element at `i`, which ends before `i + width`.
structure Element (i width stop : Nat) (fs : List Found) : Prop where
  placed : ∀ f ∈ fs, f.Placed i stop
  here : ∀ f ∈ fs, f.slot = i ∧ f.optind ≤ i + width
  ordered : fs.Pairwise fun f f' => f.optind ≤ f'.slot

theorem Element.single {k : Nat} {a : Answer} (hk : k = 1 ∨ k = 2 ∧ a.valued = true) (hstop : i + k ≤ stop) :
    Element i k stop [⟨i,a,i + k⟩] where
  placed f hf := by
    obtain rfl := List.mem_singleton.mp hf
    refine ⟨le_rfl,?_,?_,hstop,?_,?_,?_⟩
    · simp only
      omega
    · simp only
      omega
    · simp only
      omega
    · intro _
      simp only
      omega
    · intro h
      simp only at h
      rcases hk with rfl | hk
      · omega
      · exact hk.2
  here f hf := by
    obtain rfl := List.mem_singleton.mp hf
    exact ⟨rfl,le_rfl⟩
  ordered := List.pairwise_singleton _ _

theorem Element.one (a : Answer) (hstop : i + 1 ≤ stop) : Element i 1 stop [⟨i,a,i + 1⟩] :=
  .single (.inl rfl) hstop

theorem Element.two {a : Answer} (ha : a.valued = true) (hstop : i + 2 ≤ stop) :
    Element i 2 stop [⟨i,a,i + 2⟩] := .single (.inr ⟨rfl,ha⟩) hstop

def width (taken : Bool) : Nat := if taken then 2 else 1

theorem cluster_plain {c : Char} {more : Arg} (h : ¬ o.letter c = some true) :
    cluster o i next (c :: more) = (⟨i,letterAnswer o c,if more = [] then i + 1 else i⟩ ::
      (cluster o i next more).1,(cluster o i next more).2) := by
  conv_lhs => unfold cluster
  exact if_neg h

theorem cluster_element (hstop : i + 1 ≤ stop) (hnext : next ≠ none → i + 2 ≤ stop) (cs : Arg) :
    Element i (width (cluster o i next cs).2) stop (cluster o i next cs).1 ∧
      i + width (cluster o i next cs).2 ≤ stop := by
  induction cs with
  | nil => exact ⟨⟨by simp [cluster],by simp [cluster],.nil⟩,hstop⟩
  | cons c more ih =>
    obtain ⟨helement,hend⟩ := ih
    simp only [cluster]
    split
    · split
      · exact ⟨.one _ hstop,hstop⟩
      · cases next with
        | none => exact ⟨.one _ hstop,hstop⟩
        | some value =>
          have htwo := hnext (by simp)
          exact ⟨.two rfl htwo,htwo⟩
    · have hvalued := letterAnswer_valued (o := o) c
      refine ⟨⟨?_,?_,?_⟩,hend⟩
      · intro f hf
        rcases List.mem_cons.mp hf with rfl | hf
        · refine ⟨le_rfl,?_,hstop,?_,?_,?_,?_⟩
          · simp only
            split <;> omega
          · simp only
            split <;> omega
          · simp only
            split <;> omega
          · intro h
            rw [hvalued] at h
            cases h
          · intro h
            simp only at h
            split at h <;> omega
        · exact helement.placed f hf
      · intro f hf
        rcases List.mem_cons.mp hf with rfl | hf
        · refine ⟨rfl,?_⟩
          simp only [width]
          split <;> split <;> omega
        · exact helement.here f hf
      · refine List.pairwise_cons.mpr ⟨?_,helement.ordered⟩
        intro f hf
        rw [(helement.here f hf).1]
        split
        · rename_i hmore
          subst hmore
          simp [cluster] at hf
        · exact le_rfl

theorem long_element (hstop : i + 1 ≤ stop) (hnext : next ≠ none → i + 2 ≤ stop) (body : Arg) :
    Element i (width (long o i next body).2) stop [(long o i next body).1] ∧
      i + width (long o i next body).2 ≤ stop := by
  simp only [long]
  split
  · exact ⟨.one _ hstop,hstop⟩
  · split
    · exact ⟨.one _ hstop,hstop⟩
    · split
      · cases next with
        | none => exact ⟨.one _ hstop,hstop⟩
        | some value =>
          have htwo := hnext (by simp)
          exact ⟨.two rfl htwo,htwo⟩
      · exact ⟨.one _ hstop,hstop⟩

theorem element_element (hstop : i + 1 ≤ stop) (hnext : next ≠ none → i + 2 ≤ stop) (a : Arg) :
    Element i (width (element o i a next).2) stop (element o i a next).1 ∧
      i + width (element o i a next).2 ≤ stop := by
  rw [element]
  split
  · exact long_element hstop hnext _
  · exact cluster_element hstop hnext _

theorem scan_placed (args : List Arg) (taken : Bool) (hstop : i + args.length ≤ stop) :
    (∀ f ∈ scan o i taken args, f.Placed (i + if taken then 1 else 0) stop) ∧
      (scan o i taken args).Pairwise fun f f' => f.optind ≤ f'.slot := by
  induction args generalizing i taken with
  | nil => simp [scan]
  | cons a rest ih =>
    rw [List.length_cons] at hstop
    cases taken with
    | true =>
      obtain ⟨hplaced,hordered⟩ := ih (i := i + 1) false (by omega)
      exact ⟨hplaced,hordered⟩
    | false =>
      simp only [scan]
      split
      · obtain ⟨hplaced,hordered⟩ := ih (i := i + 1) false (by omega)
        exact ⟨fun f hf => (hplaced f hf).mono (Nat.le_succ i) le_rfl,hordered⟩
      · split
        · simp
        · have hnext : rest.head? ≠ none → i + 2 ≤ stop := by
            intro h
            cases rest with
            | nil => simp at h
            | cons v rest =>
              rw [List.length_cons] at hstop
              omega
          obtain ⟨hhere,hwidth⟩ := element_element (o := o) (by omega) hnext a
          obtain ⟨hplaced,hordered⟩ := ih (i := i + 1) (element o i a rest.head?).2 (by omega)
          refine ⟨?_,List.pairwise_append.mpr ⟨hhere.ordered,hordered,?_⟩⟩
          · intro f hf
            rcases List.mem_append.mp hf with hf | hf
            · exact hhere.placed f hf
            · exact (hplaced f hf).mono (by simp only [Bool.false_eq_true,if_false]; omega) le_rfl
          · intro f hf f' hf'
            have hends := (hhere.here f hf).2
            have hstarts := (hplaced f' hf').from_first
            unfold width at hends
            split at hends
            · rename_i htaken
              rw [htaken,if_pos rfl] at hstarts
              omega
            · omega

theorem length_cluster (o : Options) (i : Nat) (next : Option Arg) (cs : Arg) :
    (cluster o i next cs).1.length ≤ cs.length := by
  induction cs with
  | nil => exact le_rfl
  | cons c more ih =>
    rw [List.length_cons]
    simp only [cluster]
    split
    · split
      · exact Nat.le_add_left 1 _
      · split
        · exact Nat.le_add_left 1 _
        · exact Nat.le_add_left 1 _
    · exact Nat.succ_le_succ ih

theorem length_scan (o : Options) (i : Nat) (taken : Bool) (args : List Arg) :
    (scan o i taken args).length ≤ (args.map List.length).sum := by
  induction args generalizing i taken with
  | nil => exact le_rfl
  | cons a rest ih =>
    rw [List.map_cons,List.sum_cons]
    cases taken with
    | true => exact (ih (i + 1) false).trans (Nat.le_add_left _ _)
    | false =>
      simp only [scan]
      split
      · exact (ih (i + 1) false).trans (Nat.le_add_left _ _)
      · split
        · exact Nat.zero_le _
        · rw [List.length_append]
          refine Nat.add_le_add ?_ (ih _ _)
          rw [element]
          split
          · rename_i hlong
            have hfront := (List.isPrefixOf_iff_prefix.mp hlong).length_le
            exact le_trans (by decide : 1 ≤ ['-','-'].length) hfront
          · exact (length_cluster o i _ _).trans (List.length_drop.trans_le (Nat.sub_le _ _))

end Places

section Answers

variable {o : Options} {P : Answer → Prop}

-- What holds of every answer that the options allow holds of every answer there is.
structure Allows (o : Options) (P : Answer → Prop) : Prop where
  unknown : P .unknown
  flag : ∀ c, o.letter c = some false → P (.option c none)
  letter : ∀ c value, o.letter c = some true → P (.option c (some value))
  longFlag : ∀ l ∈ o.long, l.hasArg = false → P (.option l.val none)
  long : ∀ l ∈ o.long, l.hasArg = true → ∀ value, P (.option l.val (some value))

theorem named_mem {name : Arg} {l : LongOption} (h : o.named name = some l) : l ∈ o.long := by
  unfold Options.named at h
  split at h
  · rename_i found
    obtain rfl := Option.some.inj h
    exact List.mem_of_find?_eq_some found
  · split at h
    · cases h
    · rename_i front rest hfilter
      split at h
      · obtain rfl := Option.some.inj h
        have hmem : front ∈ o.long.filter (name.isPrefixOf ·.name) := hfilter ▸ List.mem_cons_self
        exact List.mem_of_mem_filter hmem
      · cases h

theorem Allows.cluster (h : Allows o P) (i : Nat) (next : Option Arg) (cs : Arg) :
    ∀ f ∈ (cluster o i next cs).1, P f.answer := by
  induction cs with
  | nil => simp [Getopt.cluster]
  | cons c more ih =>
    simp only [Getopt.cluster]
    split
    · rename_i hletter
      split
      · simpa using h.letter c more hletter
      · cases next with
        | none => simpa using h.unknown
        | some value => simpa using h.letter c value hletter
    · rename_i hletter
      intro f hf
      rcases List.mem_cons.mp hf with rfl | hf
      · cases hc : o.letter c with
        | none => simpa [letterAnswer,hc] using h.unknown
        | some takes =>
          cases takes with
          | true => exact absurd hc hletter
          | false => simpa [letterAnswer,hc] using h.flag c hc
      · exact ih f hf

theorem Allows.longAnswer (h : Allows o P) (i : Nat) (next : Option Arg) (body : Arg) :
    P (Getopt.long o i next body).1.answer := by
  simp only [Getopt.long]
  split
  · exact h.unknown
  · rename_i l hnamed
    have hl := named_mem hnamed
    cases htakes : l.hasArg with
    | true =>
      split
      · exact h.long l hl htakes _
      · cases next with
        | none => exact h.unknown
        | some value => exact h.long l hl htakes value
    | false =>
      split
      · exact h.unknown
      · exact h.longFlag l hl htakes

theorem Allows.scan (h : Allows o P) (i : Nat) (taken : Bool) (args : List Arg) :
    ∀ f ∈ scan o i taken args, P f.answer := by
  induction args generalizing i taken with
  | nil => simp [Getopt.scan]
  | cons a rest ih =>
    cases taken with
    | true => exact ih (i + 1) false
    | false =>
      simp only [Getopt.scan]
      split
      · exact ih (i + 1) false
      · split
        · simp
        · intro f hf
          rcases List.mem_append.mp hf with hf | hf
          · rw [element] at hf
            split at hf
            · obtain rfl := List.mem_singleton.mp hf
              exact h.longAnswer i _ _
            · exact h.cluster i _ _ f hf
          · exact ih _ _ f hf

end Answers
end Trema.Library.Getopt
