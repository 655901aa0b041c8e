import Trema.Utility.DoublyLinkedList

namespace Trema.Utility

open Library Chain

variable {α ε : Type}

inductive Op (α : Type) where
  | createDlist
  | insertBeforeDlist (element : Option Nat) (data : Option α)
  | insertAfterDlist (element : Option Nat) (data : Option α)
  | getFirstElement (element : Option Nat)
  | getLastElement (element : Option Nat)
  | findElement (element : Option Nat) (data : Option α)
  | deleteDlistElement (element : Option Nat)
  | deleteDlist (element : Option Nat)

section Abstract

variable (lists : List (Chain (Option α))) (e : Nat)

-- The list of an element, split there: what is in front of it, the element and what is behind.
def around (c : Chain (Option α)) : Chain (Option α) × Chain (Option α) :=
  (c.takeWhile (·.1 ≠ e),c.dropWhile (·.1 ≠ e))

def insertAt (side : Side) (cell : Nat × Option α) (c : Chain (Option α)) : Chain (Option α) :=
  c.flatMap fun cell' =>
    if cell'.1 = e then
      match side with
      | .prev => [cell,cell']
      | .next => [cell',cell]
    else [cell']

def listOf : Option (Chain (Option α)) := lists.find? (e ∈ addresses ·)

-- An operation on the list of a live element; on any other it does not come back.
def onList {β : Type} (p : Option Nat) (f : Nat → Chain (Option α) → β) : Run ε β :=
  match p with
  | none => .error .aborted
  | some e => match listOf lists e with
    | none => .error .outOfBounds
    | some c => .ok (f e c)

end Abstract

-- The lists as lists: what an operation answers and what it makes of them, `n` being the next new element.
def Op.apply [DecidableEq α] (n : Nat) (lists : List (Chain (Option α))) :
    Op α → Run ε (Option Nat × Nat × List (Chain (Option α)))
  | .createDlist => .ok (some n,n + 1,lists ++ [[(n,none)]])
  | .insertBeforeDlist p data =>
    onList lists p fun e _ => (some n,n + 1,lists.map (insertAt e .prev (n,data)))
  | .insertAfterDlist p data =>
    onList lists p fun e _ => (some n,n + 1,lists.map (insertAt e .next (n,data)))
  | .getFirstElement p => onList lists p fun _ c => (first c,n,lists)
  | .getLastElement p => onList lists p fun _ c => (last c,n,lists)
  | .findElement p data => onList lists p fun e c =>
    ((((around e c).2 ++ (around e c).1.reverse).find? fun cell => cell.2 = data).map Prod.fst,n,lists)
  | .deleteDlistElement p => onList lists p fun e _ => (none,n,lists.map (·.filter (·.1 ≠ e)))
  | .deleteDlist p => onList lists p fun e _ => (none,n,lists.filter (e ∉ addresses ·))

def Op.run [DecidableEq α] (m : Elements α) : Op α → Run ε (Option Nat × Elements α)
  | .createDlist => .ok (some (Utility.createDlist m).1,(Utility.createDlist m).2)
  | .insertBeforeDlist p data => do
    let (e,m) ← Utility.insertBeforeDlist m p data
    pure (some e,m)
  | .insertAfterDlist p data => do
    let (e,m) ← Utility.insertAfterDlist m p data
    pure (some e,m)
  | .getFirstElement p => do
    let e ← Utility.getFirstElement m p
    pure (some e,m)
  | .getLastElement p => do
    let e ← Utility.getLastElement m p
    pure (some e,m)
  | .findElement p data => do
    let e ← Utility.findElement m p data
    pure (e,m)
  | .deleteDlistElement p => do
    let m ← Utility.deleteDlistElement m p
    pure (none,m)
  | .deleteDlist p => do
    let m ← Utility.deleteDlist m p
    pure (none,m)

def applyAll [DecidableEq α] : Nat → List (Chain (Option α)) → List (Op α) →
    Run ε (List (Option Nat) × Nat × List (Chain (Option α)))
  | n, lists, [] => .ok ([],n,lists)
  | n, lists, op :: ops => do
    let (answer,n,lists) ← op.apply n lists
    let (answers,n,lists) ← applyAll n lists ops
    pure (answer :: answers,n,lists)

def runAll [DecidableEq α] : Elements α → List (Op α) → Run ε (List (Option Nat) × Elements α)
  | m, [] => .ok ([],m)
  | m, op :: ops => do
    let (answer,m) ← op.run m
    let (answers,m) ← runAll m ops
    pure (answer :: answers,m)

section Split

variable {lists ls rs : List (Chain (Option α))} {c pre post : Chain (Option α)} {e : Nat} {x : Option α}

theorem insertAt_of_not_mem (h : e ∉ addresses c) (side : Side) (cell : Nat × Option α) : insertAt e side cell c = c := by
  induction c with
  | nil => rfl
  | cons cell' c ih =>
    rw [addresses_cons,List.mem_cons,not_or] at h
    have hrest := ih h.2
    rw [insertAt] at hrest ⊢
    rw [List.flatMap_cons,if_neg (Ne.symm h.1),hrest]
    rfl

theorem insertAt_split (hpre : e ∉ addresses pre) (hpost : e ∉ addresses post) (side : Side) (cell : Nat × Option α) :
    insertAt e side cell (pre ++ (e,x) :: post) =
      match side with
      | .prev => pre ++ cell :: (e,x) :: post
      | .next => pre ++ (e,x) :: cell :: post := by
  have hfront := insertAt_of_not_mem hpre side cell
  have hback := insertAt_of_not_mem hpost side cell
  rw [insertAt] at hfront hback ⊢
  rw [List.flatMap_append,List.flatMap_cons,hfront,hback,if_pos rfl]
  cases side <;> rfl

theorem around_split (hpre : e ∉ addresses pre) : around e (pre ++ (e,x) :: post) = (pre,(e,x) :: post) := by
  have hne : ∀ cell ∈ pre, (decide (cell.1 ≠ e)) = true := by
    intro cell hcell
    have hother : cell.1 ≠ e := fun heq => hpre (heq ▸ mem_addresses hcell)
    simpa using hother
  rw [around,List.takeWhile_append_of_pos hne,List.dropWhile_append_of_pos hne,List.takeWhile_cons_of_neg (by simp),
    List.dropWhile_cons_of_neg (by simp),List.append_nil]

theorem filter_of_not_mem (h : e ∉ addresses c) : c.filter (·.1 ≠ e) = c := by
  refine List.filter_eq_self.mpr fun cell hcell => ?_
  have hne : cell.1 ≠ e := fun heq => h (heq ▸ mem_addresses hcell)
  simpa using hne

theorem filter_split (hpre : e ∉ addresses pre) (hpost : e ∉ addresses post) :
    (pre ++ (e,x) :: post).filter (·.1 ≠ e) = pre ++ post := by
  rw [List.filter_append,List.filter_cons_of_neg (by simp),filter_of_not_mem hpre,filter_of_not_mem hpost]

-- Only the list of the element changes.
theorem map_split {f : Chain (Option α) → Chain (Option α)} (h : ∀ d ∈ ls ++ rs, f d = d) :
    (ls ++ c :: rs).map f = ls ++ f c :: rs := by
  rw [List.map_append,List.map_cons,List.map_congr_left fun d hd => h d (List.mem_append_left _ hd),
    List.map_congr_left (l := rs) fun d hd => h d (List.mem_append_right _ hd),List.map_id',List.map_id']

theorem listOf_split (hc : e ∈ addresses c) (hother : ∀ d ∈ ls ++ rs, e ∉ addresses d) :
    listOf (ls ++ c :: rs) e = some c := by
  rw [listOf,List.find?_append,List.find?_eq_none.mpr,Option.none_or,List.find?_cons_of_pos (by simpa using hc)]
  intro d hd
  simpa using hother d (List.mem_append_left _ hd)

theorem listOf_none : listOf lists e = none ↔ e ∉ lists.flatMap addresses := by
  rw [listOf,List.find?_eq_none,List.mem_flatMap]
  simp

end Split

-- What the operation does in memory is what it does to the lists, faults included.
def Refines {β : Type} (run : Run ε (β × Elements α)) (spec : Run ε (β × Nat × List (Chain (Option α)))) : Prop :=
  match spec with
  | .error e => run = .error e
  | .ok (answer,n,lists) => ∃ m, run = .ok (answer,m) ∧ m.length = n ∧ Holds m lists

section Refinement

variable {m : Elements α} {lists : List (Chain (Option α))}

-- An element of one of the lists, and its place there.
theorem Holds.split (h : Holds m lists) {e : Nat} (he : e ∈ lists.flatMap addresses) :
    ∃ ls rs pre post x, lists = ls ++ (pre ++ (e,x) :: post) :: rs ∧ e ∉ addresses pre ∧ e ∉ addresses post ∧
      ∀ d ∈ ls ++ rs, e ∉ addresses d := by
  obtain ⟨c,hc,hec⟩ := List.mem_flatMap.mp he
  obtain ⟨⟨_,x⟩,hcell,rfl⟩ := List.mem_map.mp hec
  obtain ⟨ls,rs,rfl⟩ := List.append_of_mem hc
  obtain ⟨pre,post,rfl⟩ := List.append_of_mem hcell
  obtain ⟨_,hd,hcross⟩ := h.at
  obtain ⟨hpre,hpost,_⟩ := nodup_split hd
  refine ⟨ls,rs,pre,post,x,rfl,hpre,hpost,fun d hd' hed => hcross d hd' _ hed ?_⟩
  exact (mem_insert x).mpr (.inl rfl)

-- An operation on a null element or on one that is in no list fails, and on any other it is as `hlive` says.
theorem refines_onList (h : Holds m lists) {p : Option Nat} (run : Option Nat → Run ε (Option Nat × Elements α))
    {f : Nat → Chain (Option α) → Option Nat × Nat × List (Chain (Option α))}
    (hnull : run none = .error .aborted) (hdead : ∀ e, m[e]?.join = none → run (some e) = .error .outOfBounds)
    (hlive : ∀ e ls rs pre post x, lists = ls ++ (pre ++ (e,x) :: post) :: rs → e ∉ addresses pre →
      e ∉ addresses post → (∀ d ∈ ls ++ rs, e ∉ addresses d) →
      Refines (run (some e)) (.ok (f e (pre ++ (e,x) :: post)))) :
    Refines (run p) (onList lists p f) := by
  cases p with
  | none => exact hnull
  | some e =>
    rw [onList]
    cases hlist : listOf lists e with
    | none =>
      refine hdead e ?_
      by_contra hne
      exact listOf_none.mp hlist (h.live e hne)
    | some c =>
      have hmem : e ∈ lists.flatMap addresses := by
        by_contra hout
        rw [listOf_none.mpr hout] at hlist
        cases hlist
      obtain ⟨ls,rs,pre,post,x,rfl,hpre,hpost,hother⟩ := h.split hmem
      rw [listOf_split (by simp) hother] at hlist
      obtain rfl := Option.some.inj hlist
      exact hlive e ls rs pre post x rfl hpre hpost hother

theorem element_dead {e : Nat} (h : m[e]?.join = none) : (element m e : Run ε _) = .error .outOfBounds := by
  rw [element,h]

theorem refines_step [DecidableEq α] (h : Holds m lists) (op : Op α) :
    Refines (op.run m : Run ε _) (op.apply m.length lists) := by
  cases op with
  | createDlist => exact ⟨_,rfl,by simp [createDlist],create_spec h⟩
  | insertBeforeDlist p data =>
    refine refines_onList h (fun p => Op.run m (.insertBeforeDlist p data)) rfl ?_ ?_
    · intro e hdead
      simp [Op.run,insertBeforeDlist,insertBeside,element_dead hdead]
    · rintro e ls rs pre post x rfl hpre hpost hother
      obtain ⟨m',hrun,hlength,hholds⟩ := insertBefore_spec (ε := ε) h data
      refine ⟨m',by simp only [Op.run,hrun,ok_bind]; rfl,hlength,?_⟩
      rw [map_split fun d hd => insertAt_of_not_mem (hother d hd) _ _,insertAt_split hpre hpost]
      exact hholds
  | insertAfterDlist p data =>
    refine refines_onList h (fun p => Op.run m (.insertAfterDlist p data)) rfl ?_ ?_
    · intro e hdead
      simp [Op.run,insertAfterDlist,insertBeside,element_dead hdead]
    · rintro e ls rs pre post x rfl hpre hpost hother
      obtain ⟨m',hrun,hlength,hholds⟩ := insertAfter_spec (ε := ε) h data
      refine ⟨m',by simp only [Op.run,hrun,ok_bind]; rfl,hlength,?_⟩
      rw [map_split fun d hd => insertAt_of_not_mem (hother d hd) _ _,insertAt_split hpre hpost]
      exact hholds
  | getFirstElement p =>
    refine refines_onList h (fun p => Op.run m (.getFirstElement p)) rfl ?_ ?_
    · intro e hdead
      simp [Op.run,getFirstElement,endFrom,element_dead hdead]
    · rintro e ls rs pre post x rfl hpre hpost hother
      have hfirst : some ((first pre).getD e) = first (pre ++ (e,x) :: post) := by
        rw [first_append]
        cases first pre <;> rfl
      refine ⟨m,?_,rfl,h⟩
      simp only [Op.run,getFirst_spec h,ok_bind,hfirst]
      rfl
  | getLastElement p =>
    refine refines_onList h (fun p => Op.run m (.getLastElement p)) rfl ?_ ?_
    · intro e hdead
      simp [Op.run,getLastElement,endFrom,element_dead hdead]
    · rintro e ls rs pre post x rfl hpre hpost hother
      have hlast : some ((last post).getD e) = last (pre ++ (e,x) :: post) := by
        rw [last_append,last]
        cases last post <;> rfl
      refine ⟨m,?_,rfl,h⟩
      simp only [Op.run,getLast_spec h,ok_bind,hlast]
      rfl
  | findElement p data =>
    refine refines_onList h (fun p => Op.run m (.findElement p data)) rfl ?_ ?_
    · intro e hdead
      simp [Op.run,findElement,findFrom,element_dead hdead]
    · rintro e ls rs pre post x rfl hpre hpost hother
      refine ⟨m,?_,rfl,h⟩
      simp only [Op.run,find_spec h,ok_bind,around_split hpre]
      rfl
  | deleteDlistElement p =>
    refine refines_onList h (fun p => Op.run m (.deleteDlistElement p)) rfl ?_ ?_
    · intro e hdead
      simp [Op.run,deleteDlistElement,element_dead hdead]
    · rintro e ls rs pre post x rfl hpre hpost hother
      obtain ⟨m',hrun,hlength,hholds⟩ := delete_spec (ε := ε) h
      refine ⟨m',by simp only [Op.run,hrun,ok_bind]; rfl,hlength,?_⟩
      rw [map_split fun d hd => filter_of_not_mem (hother d hd),filter_split hpre hpost]
      exact hholds
  | deleteDlist p =>
    refine refines_onList h (fun p => Op.run m (.deleteDlist p)) rfl ?_ ?_
    · intro e hdead
      simp [Op.run,deleteDlist,endFrom,element_dead hdead]
    · rintro e ls rs pre post x rfl hpre hpost hother
      obtain ⟨m',hrun,hlength,hholds⟩ := deleteDlist_spec (ε := ε) h
      have hkept : ∀ ds ⊆ ls ++ rs, ds.filter (e ∉ addresses ·) = ds := fun ds hds =>
        List.filter_eq_self.mpr fun d hd => by simpa using hother d (hds hd)
      refine ⟨m',by simp only [Op.run,hrun,ok_bind]; rfl,hlength,?_⟩
      rw [List.filter_append,List.filter_cons_of_neg (by simp),hkept ls (List.subset_append_left _ _),
        hkept rs (List.subset_append_right _ _)]
      exact hholds

theorem refines_all [DecidableEq α] (h : Holds m lists) (ops : List (Op α)) :
    Refines (runAll m ops : Run ε _) (applyAll m.length lists ops) := by
  induction ops generalizing m lists with
  | nil => exact ⟨m,rfl,rfl,h⟩
  | cons op ops ih =>
    have hstep := refines_step (ε := ε) h op
    rw [applyAll,runAll]
    cases hspec : (op.apply m.length lists : Run ε _) with
    | error e =>
      rw [hspec] at hstep
      have hfail : (op.run m : Run ε _) = .error e := hstep
      rw [hfail]
      rfl
    | ok out =>
      obtain ⟨answer,n,lists'⟩ := out
      rw [hspec] at hstep
      obtain ⟨m',hrun,rfl,hholds⟩ := hstep
      have hrest := ih hholds
      rw [hrun,ok_bind,ok_bind]
      simp only
      cases hall : (applyAll m'.length lists' ops : Run ε _) with
      | error e =>
        rw [hall] at hrest
        have hfail : (runAll m' ops : Run ε _) = .error e := hrest
        rw [hfail]
        rfl
      | ok out =>
        obtain ⟨answers,n,lists''⟩ := out
        rw [hall] at hrest
        obtain ⟨m'',hrun',hn,hholds'⟩ := hrest
        exact ⟨m'',by rw [hrun']; rfl,hn,hholds'⟩

end Refinement

theorem doubly_linked_lists_refine [DecidableEq α] (ops : List (Op α)) :
    Refines (runAll [] ops : Run ε _) (applyAll 0 [] ops) := by
  have hstart : Holds ([] : Elements α) [] :=
    ⟨fun _ hc => absurd hc List.not_mem_nil,List.nodup_nil,fun _ hlive => absurd rfl hlive⟩
  exact refines_all hstart ops

end Trema.Utility
