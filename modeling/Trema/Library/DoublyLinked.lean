import Trema.Library.LinkedCells

namespace Trema.Library

variable {δ : Type}

structure Node (δ : Type) where
  data : δ
  prev : Option Nat
  next : Option Nat
deriving DecidableEq, Repr

inductive Side where
  | prev
  | next
deriving DecidableEq, Repr

def Side.other : Side → Side
  | .prev => .next
  | .next => .prev

def Node.link (n : Node δ) : Side → Option Nat
  | .prev => n.prev
  | .next => n.next

def Node.setLink (n : Node δ) (side : Side) (p : Option Nat) : Node δ :=
  match side with
  | .prev => { n with prev := p }
  | .next => { n with next := p }

def alter {α : Type} (l : List (Option α)) (i : Nat) (f : α → α) : List (Option α) := l.set i (l[i]?.join.map f)

theorem join_alter {α : Type} (l : List (Option α)) (i j : Nat) (f : α → α) :
    (alter l i f)[j]?.join = if j = i then l[j]?.join.map f else l[j]?.join := by
  by_cases hj : j = i
  · subst hj
    rw [if_pos rfl,alter]
    by_cases hlt : j < l.length
    · exact join_set_self hlt _
    · rw [List.getElem?_eq_none (by rw [List.length_set]; omega),List.getElem?_eq_none (by omega)]
      rfl
  · rw [if_neg hj,alter,join_set_ne hj]

theorem alter_live {α : Type} (l : List (Option α)) (i j : Nat) (f : α → α) :
    (alter l i f)[j]?.join = none ↔ l[j]?.join = none := by
  rw [join_alter]
  split
  · exact Option.map_eq_none_iff
  · exact Iff.rfl

namespace Chain

def last : Chain δ → Option Nat
  | [] => none
  | cell :: rest => (last rest).or (some cell.1)

-- The nodes of the chain lie in memory, each pointing to its neighbours and the outer ones to `before` and `after`.
def Doubly (nodes : List (Option (Node δ))) (before after : Option Nat) : Chain δ → Prop
  | [] => True
  | cell :: rest =>
    nodes[cell.1]?.join = some ⟨cell.2,before,(first rest).or after⟩ ∧ Doubly nodes (some cell.1) after rest

-- The nodes of the chain in the order in which one side's pointers lead through them, to the end.
def Followed (nodes : List (Option (Node δ))) (side : Side) : Chain δ → Prop
  | [] => True
  | cell :: rest =>
    (∃ n, nodes[cell.1]?.join = some n ∧ n.data = cell.2 ∧ n.link side = first rest) ∧ Followed nodes side rest

section Linking

variable {nodes : List (Option (Node δ))} {before after : Option Nat} {c pre post : Chain δ} {a : Nat} {x : δ}

@[simp] theorem last_nil : last ([] : Chain δ) = none := rfl

@[simp] theorem first_cons (cell : Nat × δ) (c : Chain δ) : first (cell :: c) = some cell.1 := rfl

theorem last_append (pre post : Chain δ) : last (pre ++ post) = (last post).or (last pre) := by
  induction pre with
  | nil => rw [List.nil_append,last_nil,Option.or_none]
  | cons cell pre ih => rw [List.cons_append,last,ih,last,Option.or_assoc]

@[simp] theorem last_concat (pre : Chain δ) (cell : Nat × δ) : last (pre ++ [cell]) = some cell.1 := by
  rw [last_append]
  rfl

theorem doubly_append : Doubly nodes before after (pre ++ post) ↔
    Doubly nodes before ((first post).or after) pre ∧ Doubly nodes ((last pre).or before) after post := by
  induction pre generalizing before with
  | nil => exact ⟨fun h => ⟨trivial,h⟩,fun h => h.2⟩
  | cons cell pre ih =>
    rw [List.cons_append,Doubly,Doubly,ih,first_append,Option.or_assoc,and_assoc,last,Option.or_assoc,
      Option.some_or]

theorem Doubly.node (h : Doubly nodes before after (pre ++ (a,x) :: post)) :
    nodes[a]?.join = some ⟨x,(last pre).or before,(first post).or after⟩ := (doubly_append.mp h).2.1

theorem Doubly.lt (h : Doubly nodes before after c) (ha : a ∈ addresses c) : a < nodes.length := by
  induction c generalizing before with
  | nil => simp at ha
  | cons cell c ih =>
    rcases List.mem_cons.mp ha with rfl | ha
    · exact lt_of_join h.1
    · exact ih h.2 ha

theorem Doubly.push (h : Doubly nodes before after c) (new : Option (Node δ)) :
    Doubly (nodes ++ [new]) before after c := by
  induction c generalizing before with
  | nil => trivial
  | cons cell c ih => exact ⟨(join_append new (lt_of_join h.1)).trans h.1,ih h.2⟩

theorem Doubly.congr {nodes' : List (Option (Node δ))} (h : Doubly nodes before after c)
    (hsame : ∀ b ∈ addresses c, nodes'[b]?.join = nodes[b]?.join) : Doubly nodes' before after c := by
  induction c generalizing before with
  | nil => trivial
  | cons cell c ih =>
    exact ⟨(hsame cell.1 List.mem_cons_self).trans h.1,ih h.2 fun b hb => hsame b (List.mem_cons_of_mem _ hb)⟩

-- The last node points to another successor.
theorem Doubly.relinkNext {nodes' : List (Option (Node δ))} (h : Doubly nodes before after c)
    (hd : (addresses c).Nodup) (next : Option Nat) (hsame : ∀ b ∈ addresses c, nodes'[b]?.join =
      if last c = some b then nodes[b]?.join.map fun n => { n with next := next } else nodes[b]?.join) :
    Doubly nodes' before next c := by
  induction c using List.reverseRecOn with
  | nil => trivial
  | append_singleton c cell _ =>
    have hcell := h.node
    have hnot : ∀ b ∈ addresses c, b ≠ cell.1 := by
      rw [addresses_append,List.nodup_append] at hd
      exact fun b hb => hd.2.2 b hb cell.1 (List.mem_singleton_self _)
    refine doubly_append.mpr ⟨(doubly_append.mp h).1.congr fun b hb => ?_,?_,trivial⟩
    · have hne : ¬ last (c ++ [cell]) = some b := by
        rw [last_concat,Option.some_inj]
        exact (hnot b hb).symm
      rw [hsame b (by simp [hb]),if_neg hne]
    · rw [hsame cell.1 (by simp),if_pos (last_concat c cell),hcell]
      rfl

-- The first node points to another predecessor.
theorem Doubly.relinkPrev {nodes' : List (Option (Node δ))} (h : Doubly nodes before after c)
    (hd : (addresses c).Nodup) (prev : Option Nat) (hsame : ∀ b ∈ addresses c, nodes'[b]?.join =
      if first c = some b then nodes[b]?.join.map fun n => { n with prev := prev } else nodes[b]?.join) :
    Doubly nodes' prev after c := by
  cases c with
  | nil => trivial
  | cons cell c =>
    obtain ⟨hnot,_⟩ := List.nodup_cons.mp hd
    refine ⟨?_,h.2.congr fun b hb => ?_⟩
    · rw [hsame cell.1 List.mem_cons_self,first_cons,if_pos rfl,h.1]
      rfl
    · have hne : ¬ some cell.1 = some b := fun heq => hnot (Option.some.inj heq ▸ hb)
      rw [hsame b (List.mem_cons_of_mem _ hb),first_cons,if_neg hne]

theorem nodup_split (h : (addresses (pre ++ (a,x) :: post)).Nodup) :
    a ∉ addresses pre ∧ a ∉ addresses post ∧ (addresses (pre ++ post)).Nodup ∧
      ∀ b ∈ addresses pre, b ∉ addresses post := by
  rw [addresses_append,addresses_cons] at h
  have hmiddle := List.nodup_cons.mp (List.nodup_middle.mp h)
  rw [List.mem_append,not_or,List.nodup_append] at hmiddle
  obtain ⟨⟨hpre,hpost⟩,hpres,hposts,hcross⟩ := hmiddle
  refine ⟨hpre,hpost,?_,fun b hb hb' => hcross b hb b hb' rfl⟩
  rw [addresses_append,List.nodup_append]
  exact ⟨hpres,hposts,hcross⟩

theorem Doubly.forward (h : Doubly nodes before none c) : Followed nodes .next c := by
  induction c generalizing before with
  | nil => trivial
  | cons cell c ih => exact ⟨⟨_,h.1,rfl,Option.or_none⟩,ih h.2⟩

theorem Doubly.backward (h : Doubly nodes none after c) : Followed nodes .prev c.reverse := by
  induction c using List.reverseRecOn generalizing after with
  | nil => trivial
  | append_singleton c cell ih =>
    have hfirst : last c = first c.reverse := by
      cases c using List.reverseRecOn with
      | nil => rfl
      | append_singleton c cell =>
        rw [last_concat,List.reverse_append]
        rfl
    rw [List.reverse_append]
    exact ⟨⟨_,h.node,rfl,Option.or_none.trans hfirst⟩,ih (doubly_append.mp h).1⟩

theorem Followed.append {side : Side} (h : Followed nodes side (pre ++ post)) : Followed nodes side post := by
  induction pre with
  | nil => exact h
  | cons cell pre ih => exact ih h.2

theorem Followed.set {side : Side} (h : Followed nodes side c) (ha : a ∉ addresses c) (new : Option (Node δ)) :
    Followed (nodes.set a new) side c := by
  induction c with
  | nil => trivial
  | cons cell c ih =>
    rw [addresses_cons,List.mem_cons,not_or] at ha
    obtain ⟨⟨n,hn,hdata,hlink⟩,hrest⟩ := h
    exact ⟨⟨n,(join_set_ne (Ne.symm ha.1) new).trans hn,hdata,hlink⟩,ih hrest ha.2⟩

theorem length_le_nodes (h : Doubly nodes before after c) (hd : (addresses c).Nodup) : c.length ≤ nodes.length := by
  have hsub : addresses c ⊆ List.range nodes.length := fun a ha => List.mem_range.mpr (h.lt ha)
  have hle := (hd.subperm hsub).length_le
  rw [length_addresses,List.length_range] at hle
  exact hle

theorem last_mem (h : last c = some a) : a ∈ addresses c := by
  induction c using List.reverseRecOn with
  | nil => cases h
  | append_singleton c cell _ =>
    rw [last_concat] at h
    simp [Option.some.inj h]

theorem first_mem (h : first c = some a) : a ∈ addresses c := by
  cases c with
  | nil => cases h
  | cons cell c => exact Option.some.inj h ▸ List.mem_cons_self

-- A node between two parts of the list.
theorem Doubly.insert {nodes' : List (Option (Node δ))} (h : Doubly nodes before after (pre ++ post))
    (hd : (addresses (pre ++ post)).Nodup) (hnew : nodes'[a]?.join =
      some ⟨x,(last pre).or before,(first post).or after⟩)
    (hsame : ∀ b ∈ addresses (pre ++ post), nodes'[b]?.join =
      if last pre = some b then nodes[b]?.join.map fun n => { n with next := some a }
      else if first post = some b then nodes[b]?.join.map fun n => { n with prev := some a }
      else nodes[b]?.join) : Doubly nodes' before after (pre ++ (a,x) :: post) := by
  obtain ⟨hpre,hpost⟩ := doubly_append.mp h
  rw [addresses_append] at hd hsame
  obtain ⟨hdpre,hdpost,hcross⟩ := List.nodup_append.mp hd
  refine doubly_append.mpr ⟨hpre.relinkNext hdpre _ fun b hb => ?_,hnew,hpost.relinkPrev hdpost _ fun b hb => ?_⟩
  · rw [hsame b (List.mem_append_left _ hb),if_neg fun hfirst => hcross b hb b (first_mem hfirst) rfl]
    rfl
  · rw [hsame b (List.mem_append_right _ hb),if_neg fun hlast => hcross b (last_mem hlast) b hb rfl]

-- The neighbours of a node point past it.
theorem Doubly.remove {nodes' : List (Option (Node δ))} (h : Doubly nodes before after (pre ++ (a,x) :: post))
    (hd : (addresses (pre ++ post)).Nodup) (hsame : ∀ b ∈ addresses (pre ++ post), nodes'[b]?.join =
      if last pre = some b then nodes[b]?.join.map fun n => { n with next := (first post).or after }
      else if first post = some b then nodes[b]?.join.map fun n => { n with prev := (last pre).or before }
      else nodes[b]?.join) : Doubly nodes' before after (pre ++ post) := by
  obtain ⟨hpre,_,hpost⟩ := doubly_append.mp h
  rw [addresses_append] at hd hsame
  obtain ⟨hdpre,hdpost,hcross⟩ := List.nodup_append.mp hd
  refine doubly_append.mpr ⟨hpre.relinkNext hdpre _ fun b hb => ?_,hpost.relinkPrev hdpost _ fun b hb => ?_⟩
  · rw [hsame b (List.mem_append_left _ hb),if_neg fun hfirst => hcross b hb b (first_mem hfirst) rfl]
  · rw [hsame b (List.mem_append_right _ hb),if_neg fun hlast => hcross b (last_mem hlast) b hb rfl]

end Linking

end Chain

end Trema.Library
