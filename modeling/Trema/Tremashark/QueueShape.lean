import Trema.Tremashark.Queue
import Mathlib.Data.List.Nodup

namespace Trema.Tremashark

open Library Chain Queue

variable {α : Type}

-- The list in memory: consumed elements, the divider, the live elements.
structure Shape (q : Queue α) (garbage : Chain (Option α)) (spent : Option α)
    (rest : Chain (Option α)) : Prop where
  linked : Linked q.elements none (garbage ++ (q.divider,spent) :: rest)
  nodup : (addresses (garbage ++ (q.divider,spent) :: rest)).Nodup
  head : first (garbage ++ (q.divider,spent) :: rest) = some q.head
  tail : (addresses ((q.divider,spent) :: rest)).getLast? = some q.tail

structure Represents (q : Queue α) (live : List α) : Prop where
  length : q.length = Int32.ofNat live.length
  shape : ∃ garbage spent rest, Shape q garbage spent rest ∧ contents rest = live.map some

theorem Shape.linked_rest {q : Queue α} {spent : Option α} {rest : Chain (Option α)}
    (h : Shape q [] spent rest) : Linked q.elements none rest := h.linked.2

theorem represents_createQueue : Represents (createQueue : Queue α) [] :=
  ⟨rfl,[],none,[],⟨⟨rfl,trivial⟩,List.nodup_singleton 0,rfl,rfl⟩,rfl⟩

section Shapes

variable {q : Queue α} {garbage rest : Chain (Option α)} {spent : Option α} {a : Nat} {x : Option α}

theorem element_eq {e : Nat} {cell : QueueElement α} (h : q.elements[e]?.join = some cell) :
    q.element e = .ok cell := by
  rw [element,h]
  rfl

-- The addresses are distinct and below the end of memory.
theorem Shape.length_le (h : Shape q garbage spent rest) :
    garbage.length + (rest.length + 1) ≤ q.elements.length := by
  have hsub : addresses (garbage ++ (q.divider,spent) :: rest) ⊆ List.range q.elements.length :=
    fun a ha => List.mem_range.mpr (h.linked.lt ha)
  have hle := (h.nodup.subperm hsub).length_le
  rwa [length_addresses,List.length_append,List.length_range] at hle

theorem Shape.divider_cell (h : Shape q garbage spent rest) :
    q.element q.divider = .ok ⟨spent,first rest⟩ := by
  rw [element_eq h.linked.cell,Option.or_none]

theorem Shape.divider_ne_tail (h : Shape q garbage spent rest) :
    q.divider ≠ q.tail ↔ rest ≠ [] := by
  have htail := h.tail
  cases rest with
  | nil => exact ⟨fun hne => absurd (Option.some.inj htail) hne,fun hne => absurd rfl hne⟩
  | cons cell rest =>
    refine ⟨fun _ => List.cons_ne_nil _ _,fun _ heq => ?_⟩
    rw [addresses_cons,addresses_cons,List.getLast?_cons_cons] at htail
    have hmem := List.mem_of_getLast? htail
    have hnodup := h.nodup
    rw [addresses_append,addresses_cons,List.nodup_append,List.nodup_cons] at hnodup
    apply hnodup.2.1.1
    rw [heq]
    exact hmem

theorem collectFrom_spec (h : Shape q garbage spent rest) {fuel : Nat} (hfuel : garbage.length < fuel) :
    ∃ q', collectFrom fuel q = .ok q' ∧ Shape q' [] spent rest ∧ q'.length = q.length := by
  induction garbage generalizing q fuel with
  | nil =>
    cases fuel with
    | zero => exact absurd hfuel (Nat.not_lt_zero _)
    | succ fuel =>
      have hhead : q.divider = q.head := Option.some.inj h.head
      refine ⟨q,?_,h,rfl⟩
      rw [collectFrom,if_neg (not_not.mpr hhead.symm)]
      rfl
  | cons cell garbage ih =>
    cases fuel with
    | zero => exact absurd hfuel (Nat.not_lt_zero _)
    | succ fuel =>
      have hhead : cell.1 = q.head := Option.some.inj h.head
      have hnodup := h.nodup
      rw [List.cons_append,addresses_cons,List.nodup_cons] at hnodup
      have hne : q.head ≠ q.divider := by
        intro heq
        apply hnodup.1
        rw [hhead,heq]
        simp
      obtain ⟨next,hnext⟩ : ∃ next, first (garbage ++ (q.divider,spent) :: rest) = some next := by
        cases garbage with
        | nil => exact ⟨_,rfl⟩
        | cons cell' garbage => exact ⟨_,rfl⟩
      have hcell := (show Linked _ _ (cell :: (garbage ++ (q.divider,spent) :: rest)) from h.linked).1
      rw [hhead,hnext] at hcell
      have hfreed : Shape { q with head := next, elements := q.elements.set q.head none } garbage spent rest :=
        ⟨h.linked.2.set (hhead ▸ hnodup.1) none,hnodup.2,hnext,h.tail⟩
      obtain ⟨q',hrun,hshape,hlength⟩ := ih hfreed (Nat.lt_of_succ_lt_succ hfuel)
      refine ⟨q',?_,hshape,hlength⟩
      rw [collectFrom,if_pos hne,element_eq hcell,ok_bind]
      exact hrun

theorem collectGarbage_spec (h : Shape q garbage spent rest) :
    ∃ q', collectGarbage q = .ok q' ∧ Shape q' [] spent rest ∧ q'.length = q.length :=
  collectFrom_spec h (Nat.lt_succ_of_le (Nat.le_of_add_right_le h.length_le))

theorem enqueue_spec (lengthOf : α → Nat) (h : Shape q garbage spent rest) {d : α}
    (hd : 0 < lengthOf d) :
    ∃ q' new, enqueue lengthOf q d = .ok q' ∧ Shape q' [] spent (rest ++ [(new,some d)]) ∧
      q'.length = q.length + 1 := by
  obtain ⟨pre,x,hlast⟩ := exists_concat h.tail
  have hchain : garbage ++ (q.divider,spent) :: rest = (garbage ++ pre) ++ [(q.tail,x)] := by
    rw [hlast,List.append_assoc]
  have hlinked := h.linked
  have hnodup := h.nodup
  rw [hchain] at hlinked hnodup
  have hjoin : (garbage ++ pre) ++ [(q.tail,x),(q.elements.length,some d)] =
      garbage ++ (q.divider,spent) :: (rest ++ [(q.elements.length,some d)]) := by
    rw [← List.cons_append,hlast]
    simp
  have hgrown : Shape ⟨(q.elements ++ [some (Cell.mk (some d) none)]).set q.tail
      (some ⟨x,some q.elements.length⟩),q.head,q.divider,q.elements.length,q.length + 1⟩
      garbage spent (rest ++ [(q.elements.length,some d)]) := by
    refine ⟨?_,?_,?_,?_⟩
    · rw [← hjoin]
      exact hlinked.concat hnodup (some d)
    · have hnew := h.linked.nodup_concat h.nodup (some d)
      rwa [List.append_assoc,List.cons_append] at hnew
    · have hhead := h.head
      cases garbage with
      | nil => exact hhead
      | cons cell garbage => exact hhead
    · rw [← List.cons_append,addresses_append]
      exact List.getLast?_concat
  obtain ⟨q',hrun,hshape,hlength⟩ := collectGarbage_spec hgrown
  refine ⟨q',_,?_,hshape,hlength⟩
  have htail : (q.elements ++ [some (⟨some d,none⟩ : QueueElement α)])[q.tail]?.join = some ⟨x,none⟩ :=
    (join_append _ (lt_of_join hlinked.cell)).trans hlinked.cell
  rw [enqueue,if_neg (Nat.ne_of_gt hd)]
  simp only [htail,dereference,ok_bind]
  exact hrun

theorem dequeue_nil (h : Shape q garbage spent []) : dequeue q = .ok (none,q) := by
  rw [dequeue,if_neg (not_not.mpr (not_not.mp fun hne => h.divider_ne_tail.mp hne rfl))]
  rfl

theorem dequeue_cons (h : Shape q garbage spent ((a,x) :: rest)) :
    ∃ q' garbage', dequeue q = .ok (x,q') ∧ Shape q' garbage' none rest ∧
      q'.length = q.length - 1 := by
  have hjoin : garbage ++ (q.divider,spent) :: (a,x) :: rest =
      (garbage ++ [(q.divider,spent)]) ++ (a,x) :: rest := by simp
  have hlinked := h.linked
  have hnodup := h.nodup
  rw [hjoin] at hlinked hnodup
  refine ⟨{ q with elements := q.elements.set a (some ⟨none,first rest⟩), divider := a, length := q.length - 1 },
    garbage ++ [(q.divider,spent)],?_,⟨?_,?_,?_,?_⟩,rfl⟩
  · rw [dequeue,if_pos (h.divider_ne_tail.mpr (List.cons_ne_nil _ _)),h.divider_cell,ok_bind]
    simp only [first,dereference,ok_bind,element_eq hlinked.cell,Option.or_none]
    rfl
  · have hset := hlinked.setData hnodup none
    rwa [Option.or_none] at hset
  · rw [addresses_append,addresses_cons] at hnodup ⊢
    exact hnodup
  · have hhead := h.head
    cases garbage with
    | nil => exact hhead
    | cons cell garbage => exact hhead
  · have htail := h.tail
    rw [addresses_cons,addresses_cons,List.getLast?_cons_cons] at htail
    exact htail

theorem peek_nil (h : Shape q garbage spent []) : peek q = .ok none := by
  rw [peek,if_neg (not_not.mpr (not_not.mp fun hne => h.divider_ne_tail.mp hne rfl))]
  rfl

theorem peek_cons (h : Shape q garbage spent ((a,x) :: rest)) : peek q = .ok x := by
  have hlinked := h.linked
  rw [← List.singleton_append,← List.append_assoc] at hlinked
  rw [peek,if_pos (h.divider_ne_tail.mpr (List.cons_ne_nil _ _)),h.divider_cell,ok_bind]
  simp only [first,dereference,ok_bind,element_eq hlinked.cell]
  rfl

end Shapes

section Calls

variable {q : Queue α} {live : List α} {d : α}

theorem Represents.enqueue (lengthOf : α → Nat) (h : Represents q live) (hd : 0 < lengthOf d) :
    ∃ q', q.enqueue lengthOf d = .ok q' ∧ Represents q' (live ++ [d]) := by
  obtain ⟨hlength,garbage,spent,rest,hshape,hlive⟩ := h
  obtain ⟨q',new,hrun,hshape',hlength'⟩ := enqueue_spec lengthOf hshape hd
  refine ⟨q',hrun,?_,[],spent,_,hshape',?_⟩
  · rw [hlength',hlength,List.length_append,List.length_singleton,Int32.ofNat_add]
    rfl
  · rw [contents_append,hlive,List.map_append]
    rfl

theorem Represents.dequeue (h : Represents q live) :
    ∃ q', q.dequeue = .ok (live.head?,q') ∧ Represents q' live.tail := by
  obtain ⟨hlength,garbage,spent,rest,hshape,hlive⟩ := h
  cases live with
  | nil =>
    obtain rfl := List.map_eq_nil_iff.mp hlive
    exact ⟨q,dequeue_nil hshape,hlength,garbage,spent,[],hshape,rfl⟩
  | cons d live =>
    cases rest with
    | nil => simp at hlive
    | cons cell rest =>
      obtain ⟨a,x⟩ := cell
      injection hlive with hx hlive
      obtain ⟨q',garbage',hrun,hshape',hlength'⟩ := dequeue_cons hshape
      obtain rfl : x = some d := hx
      refine ⟨q',hrun,?_,garbage',none,rest,hshape',hlive⟩
      rw [hlength',hlength,List.length_cons,Int32.ofNat_add]
      exact Int32.add_sub_cancel _ _

theorem Represents.peek (h : Represents q live) : q.peek = .ok live.head? := by
  obtain ⟨_,garbage,spent,rest,hshape,hlive⟩ := h
  cases live with
  | nil =>
    obtain rfl := List.map_eq_nil_iff.mp hlive
    exact peek_nil hshape
  | cons d live =>
    cases rest with
    | nil => simp at hlive
    | cons cell rest =>
      obtain ⟨a,x⟩ := cell
      injection hlive with hx hlive
      obtain rfl : x = some d := hx
      exact peek_cons hshape

-- What a caller can take out of the queue determines the live elements.
theorem Represents.unique {live' : List α} (h : Represents q live) (h' : Represents q live') :
    live = live' := by
  induction live generalizing q live' with
  | nil =>
    have hpeek := h.peek.symm.trans h'.peek
    injection hpeek with hpeek
    exact (List.head?_eq_none_iff.mp hpeek.symm).symm
  | cons d live ih =>
    obtain ⟨q₁,hrun,h₁⟩ := h.dequeue
    obtain ⟨q₂,hrun',h₂⟩ := h'.dequeue
    rw [hrun] at hrun'
    injection hrun' with hrun'
    injection hrun' with hhead hq
    subst hq
    cases live' with
    | nil => simp at hhead
    | cons d' live' =>
      obtain rfl : d = d' := Option.some.inj hhead
      rw [ih h₁ h₂]
      rfl

theorem Represents.length_lt (h : Represents q live) : live.length < q.elements.length := by
  obtain ⟨_,garbage,spent,rest,hshape,hlive⟩ := h
  have hle := hshape.length_le
  rw [← length_contents rest,hlive,List.length_map] at hle
  omega

end Calls

end Trema.Tremashark
