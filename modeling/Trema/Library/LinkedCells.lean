import Trema.Library.Chain
import Trema.Library.Slots

namespace Trema.Library

variable {δ : Type}

structure Cell (δ : Type) where
  data : δ
  next : Option Nat
deriving DecidableEq, Repr

namespace Chain

-- The cells of the chain lie in memory, each pointing to the one behind it and the last to `stop`.
def Linked (cells : List (Option (Cell δ))) (stop : Option Nat) : Chain δ → Prop
  | [] => True
  | cell :: rest =>
    cells[cell.1]?.join = some ⟨cell.2,(first rest).or stop⟩ ∧ Linked cells stop rest

section Linking

variable {cells : List (Option (Cell δ))} {stop : Option Nat} {c pre post : Chain δ} {a : Nat} {x y : δ}

theorem first_append (pre post : Chain δ) : first (pre ++ post) = (first pre).or (first post) := by
  cases pre with
  | nil => rfl
  | cons cell pre => rfl

@[simp] theorem addresses_nil : addresses ([] : Chain δ) = [] := rfl

@[simp] theorem addresses_cons (cell : Nat × δ) (c : Chain δ) :
    addresses (cell :: c) = cell.1 :: addresses c := rfl

@[simp] theorem addresses_append (c d : Chain δ) :
    addresses (c ++ d) = addresses c ++ addresses d := List.map_append

theorem length_addresses (c : Chain δ) : (addresses c).length = c.length := List.length_map _

theorem length_contents (c : Chain δ) : (contents c).length = c.length := List.length_map _

theorem linked_append :
    Linked cells stop (pre ++ post) ↔ Linked cells ((first post).or stop) pre ∧ Linked cells stop post := by
  induction pre with
  | nil => exact ⟨fun h => ⟨trivial,h⟩,fun h => h.2⟩
  | cons cell pre ih => rw [List.cons_append,Linked,Linked,ih,first_append,Option.or_assoc,and_assoc]

theorem Linked.cell (h : Linked cells stop (pre ++ (a,x) :: post)) :
    cells[a]?.join = some ⟨x,(first post).or stop⟩ := (linked_append.mp h).2.1

theorem Linked.lt (h : Linked cells stop c) (ha : a ∈ addresses c) : a < cells.length := by
  induction c with
  | nil => simp at ha
  | cons cell c ih =>
    rcases List.mem_cons.mp ha with rfl | ha
    · exact lt_of_join h.1
    · exact ih h.2 ha

theorem Linked.set (h : Linked cells stop c) (ha : a ∉ addresses c) (new : Option (Cell δ)) :
    Linked (cells.set a new) stop c := by
  induction c with
  | nil => trivial
  | cons cell c ih =>
    rw [addresses_cons,List.mem_cons,not_or] at ha
    obtain ⟨hne,ha⟩ := ha
    exact ⟨(join_set_ne (Ne.symm hne) new).trans h.1,ih h.2 ha⟩

theorem Linked.push (h : Linked cells stop c) (new : Option (Cell δ)) :
    Linked (cells ++ [new]) stop c := by
  induction c with
  | nil => trivial
  | cons cell c ih => exact ⟨(join_append new (lt_of_join h.1)).trans h.1,ih h.2⟩

theorem Linked.setData (h : Linked cells stop (pre ++ (a,x) :: post))
    (hd : (addresses (pre ++ (a,x) :: post)).Nodup) (y : δ) :
    Linked (cells.set a (some ⟨y,(first post).or stop⟩)) stop (pre ++ (a,y) :: post) := by
  have hlt : a < cells.length := lt_of_join h.cell
  obtain ⟨hpre,hcell,hpost⟩ := linked_append.mp h
  rw [addresses_append,addresses_cons,List.nodup_middle,List.nodup_cons,List.mem_append,not_or] at hd
  exact linked_append.mpr ⟨hpre.set hd.1.1 _,join_set_self hlt _,hpost.set hd.1.2 _⟩

theorem Linked.concat (h : Linked cells none (pre ++ [(a,x)])) (hd : (addresses (pre ++ [(a,x)])).Nodup)
    (y : δ) : Linked ((cells ++ [some (Cell.mk y none)]).set a (some ⟨x,some cells.length⟩)) none
      (pre ++ [(a,x),(cells.length,y)]) := by
  have hlt : a < cells.length := lt_of_join h.cell
  have hpre := (linked_append.mp h).1
  have hnot : a ∉ addresses pre := by
    rw [addresses_append,List.nodup_append] at hd
    intro hmem
    exact hd.2.2 a hmem a (List.mem_singleton_self a) rfl
  refine linked_append.mpr ⟨(hpre.push _).set hnot _,join_set_self ?_ _,?_,trivial⟩
  · rw [List.length_append]
    omega
  · rw [join_set_ne (Nat.ne_of_gt hlt)]
    exact join_append_last _

theorem Linked.nodup_concat (h : Linked cells stop c) (hd : (addresses c).Nodup) (y : δ) :
    (addresses (c ++ [(cells.length,y)])).Nodup := by
  rw [addresses_append]
  refine hd.append (List.nodup_singleton _) ?_
  intro b hb hnew
  rw [List.mem_singleton.mp hnew] at hb
  exact Nat.lt_irrefl _ (h.lt hb)

theorem exists_concat (h : (addresses c).getLast? = some a) : ∃ pre x, c = pre ++ [(a,x)] := by
  induction c using List.reverseRecOn with
  | nil => simp at h
  | append_singleton c cell _ =>
    rw [addresses_append,addresses_cons,addresses_nil,List.getLast?_append,List.getLast?_singleton] at h
    exact ⟨c,cell.2,by rw [← Option.some.inj h]⟩

end Linking

end Chain

end Trema.Library
