import Trema.Tremashark.QueueShape
import Trema.Library.StableSort

namespace Trema.Tremashark

open Library Chain Queue

variable {α : Type}

section Gathering

variable {q : Queue α} {garbage rest pre post : Chain (Option α)} {spent : Option α}
  {a a' : Nat} {d x y : α}

theorem gather_spec {room e : Nat} {acc : List Nat} {z : Option α}
    (h : Linked q.elements none ((e,z) :: rest)) :
    q.gather room e acc =
      if rest.length ≤ room then .ok (acc ++ addresses rest) else .error .outOfBounds := by
  induction rest generalizing room e acc z with
  | nil =>
    rw [List.length_nil,if_pos (Nat.zero_le _),addresses_nil,List.append_nil]
    cases room with
    | zero =>
      rw [gather,element_eq h.1]
      rfl
    | succ room =>
      rw [gather,element_eq h.1]
      rfl
  | cons cell rest ih =>
    cases room with
    | zero =>
      rw [gather,element_eq h.1,if_neg (by simp)]
      rfl
    | succ room =>
      rw [gather,element_eq h.1]
      refine (ih h.2).trans ?_
      simp

theorem slot_append (pre : Chain (Option α)) (cell : Nat × Option α) (post : Chain (Option α)) :
    slot (addresses (pre ++ cell :: post)) pre.length = .ok cell.1 := by
  rw [slot,addresses_append,addresses_cons,List.getElem?_append_right (length_addresses pre).le,
    length_addresses,Nat.sub_self]
  rfl

theorem dataAt_append (h : Shape q [] spent (pre ++ (a,some d) :: post)) :
    q.dataAt (addresses (pre ++ (a,some d) :: post)) pre.length = .ok d := by
  have hlinked := h.linked_rest
  rw [dataAt,slot_append,ok_bind,element_eq hlinked.cell]
  rfl

theorem setDataAt_append (pre : Chain (Option α)) {z : Option α} (h : Shape q [] spent (pre ++ (a,z) :: post)) (d : α) :
    ∃ q', q.setDataAt (addresses (pre ++ (a,z) :: post)) pre.length d = .ok q' ∧
      Shape q' [] spent (pre ++ (a,some d) :: post) ∧ q'.length = q.length := by
  have hlinked := h.linked_rest
  have hset := Linked.setData (show Linked q.elements none (((q.divider,spent) :: pre) ++ (a,z) :: post)
    from h.linked) h.nodup (some d)
  rw [Option.or_none] at hset
  refine ⟨{ q with elements := q.elements.set a (some ⟨some d,first post⟩) },?_,⟨hset,?_,h.head,?_⟩,rfl⟩
  · rw [setDataAt,slot_append,ok_bind,element_eq hlinked.cell,Option.or_none]
    rfl
  · have hnodup := h.nodup
    simpa using hnodup
  · have htail := h.tail
    simpa using htail

end Gathering

section Sorting

variable {q : Queue α} {rest pre post : Chain (Option α)} {spent : Option α} {compare : α → α → Bool}
  {a a' : Nat} {data x : α} {y : Option α} {ds live : List α}

-- What the steps of the sort give: the same elements in the same order, holding `data`.
structure Holding (q : Queue α) (spent : Option α) (elements : List Nat) (data : List (Option α))
    (length : Int32) : Prop where
  shape : ∃ rest, Shape q [] spent rest ∧ addresses rest = elements ∧ contents rest = data
  length : q.length = length

theorem concat_of_contents {cell : Nat × Option α} (h : contents (pre ++ [cell]) = ds.map some) :
    ∃ ds' x', ds = ds' ++ [x'] ∧ contents pre = ds'.map some ∧ cell.2 = some x' := by
  rw [contents_append,contents_cons,contents_nil] at h
  induction ds using List.reverseRecOn with
  | nil => simp at h
  | append_singleton ds x' _ =>
    rw [List.map_append] at h
    obtain ⟨hpre,hcell⟩ := List.append_inj' h rfl
    exact ⟨ds,x',rfl,hpre,List.head_eq_of_cons_eq hcell⟩

theorem split_contents (ds : List α) {d : α} {data : List (Option α)} (h : contents rest = ds.map some ++ some d :: data) :
    ∃ pre a post, rest = pre ++ (a,some d) :: post ∧ contents pre = ds.map some ∧ contents post = data := by
  obtain ⟨pre,tail,rfl,hpre,htail⟩ := List.map_eq_append_iff.mp h
  obtain ⟨⟨a,z⟩,post,rfl,rfl,hpost⟩ := List.map_eq_cons_iff.mp htail
  exact ⟨pre,a,post,rfl,hpre,hpost⟩

theorem length_of_contents (h : contents rest = ds.map some) : rest.length = ds.length := by
  rw [← length_contents,h,List.length_map]

theorem shift_turn (h : Shape q [] spent (pre ++ (a,some x) :: (a',y) :: post)) :
    ∃ q', (∀ {β : Type} (k : Queue α → Exec β), (do
        let previous ← q.dataAt (addresses (pre ++ (a,some x) :: (a',y) :: post)) pre.length
        let q ← q.setDataAt (addresses (pre ++ (a,some x) :: (a',y) :: post)) (pre.length + 1) previous
        k q) = k q') ∧
      Shape q' [] spent (pre ++ (a,some x) :: (a',some x) :: post) ∧ q'.length = q.length := by
  have hmid : pre ++ (a,some x) :: (a',y) :: post = (pre ++ [(a,some x)]) ++ (a',y) :: post := by simp
  have hread := dataAt_append h
  obtain ⟨q',hset,hshape,hlength⟩ := setDataAt_append _ (hmid ▸ h) x
  rw [← hmid,List.length_append,List.length_singleton] at hset
  rw [List.append_assoc,List.singleton_append] at hshape
  refine ⟨q',fun k => ?_,hshape,hlength⟩
  rw [hread,ok_bind,hset,ok_bind]

theorem shift_spec (h : Shape q [] spent (pre ++ (a,some x) :: (a',y) :: post))
    (hpre : contents pre = ds.map some) :
    ∃ q', (do
        let (j,q) ← shift compare (addresses (pre ++ (a,some x) :: (a',y) :: post)) data (pre.length + 1) q
        q.setDataAt (addresses (pre ++ (a,some x) :: (a',y) :: post)) j data) = .ok q' ∧
      Holding q' spent (addresses (pre ++ (a,some x) :: (a',y) :: post))
        ((insertBack compare ds data ++ [x]).map some ++ contents post) q.length := by
  induction pre using List.reverseRecOn generalizing q ds a a' x y post with
  | nil =>
    obtain rfl : ds = [] := by simpa using hpre.symm
    obtain ⟨q₁,hturn,hshape,hlength⟩ := shift_turn h
    obtain ⟨q₂,hlast,hshape₂,hlength₂⟩ := setDataAt_append [] hshape data
    refine ⟨q₂,?_,⟨_,hshape₂,rfl,rfl⟩,hlength₂.trans hlength⟩
    rw [shift,hturn]
    exact hlast
  | append_singleton pre cell ih =>
    obtain ⟨b,z⟩ := cell
    obtain ⟨ds,x',rfl,hfront,rfl⟩ := concat_of_contents hpre
    obtain ⟨q₁,hturn,hshape,hlength⟩ := shift_turn h
    rw [List.length_append,List.length_singleton] at hturn ⊢
    rw [shift,hturn]
    have hsame : addresses (pre ++ [(b,some x')] ++ (a,some x) :: (a',y) :: post) =
        addresses (pre ++ (b,some x') :: (a,some x) :: (a',some x) :: post) := by simp
    rw [List.append_assoc,List.singleton_append] at hshape
    simp only [hsame,dataAt_append hshape,ok_bind]
    cases hcompare : compare x' data with
    | true =>
      obtain ⟨q₂,hrun,⟨rest,hrest,haddr,hdata⟩,hlength₂⟩ := ih hshape hfront
      refine ⟨q₂,hrun,⟨rest,hrest,haddr,?_⟩,hlength₂.trans hlength⟩
      rw [hdata,insertBack_concat_after hcompare]
      simp
    | false =>
      rw [← List.singleton_append,← List.append_assoc] at hshape
      obtain ⟨q₂,hlast,hshape₂,hlength₂⟩ := setDataAt_append _ hshape data
      rw [List.append_assoc,List.singleton_append,List.length_append] at hlast
      refine ⟨q₂,hlast,⟨_,hshape₂,?_,?_⟩,hlength₂.trans hlength⟩
      · simp
      · rw [insertBack_concat_stay hcompare]
        simp [hfront]

theorem insertElement_spec (compare : α → α → Bool) {p : Nat} {d : α}
    (h : Shape q [] spent (pre ++ (p,some x) :: (a,some d) :: post)) (hpre : contents pre = ds.map some) :
    ∃ q', insertElement compare (addresses (pre ++ (p,some x) :: (a,some d) :: post)) q
        (pre.length + 1) = .ok q' ∧
      Holding q' spent (addresses (pre ++ (p,some x) :: (a,some d) :: post))
        ((insertBack compare (ds ++ [x]) d).map some ++ contents post) q.length := by
  have hmid : pre ++ (p,some x) :: (a,some d) :: post = (pre ++ [(p,some x)]) ++ (a,some d) :: post := by
    simp
  have hread := dataAt_append (hmid ▸ h)
  rw [← hmid,List.length_append,List.length_singleton] at hread
  rw [insertElement,hread,ok_bind,Nat.add_sub_cancel,dataAt_append h,ok_bind]
  cases hcompare : compare x d with
  | true =>
    obtain ⟨q',hrun,hholding⟩ := shift_spec h hpre
    refine ⟨q',hrun,?_⟩
    rwa [insertBack_concat_after hcompare]
  | false =>
    refine ⟨q,rfl,⟨_,h,rfl,?_⟩,rfl⟩
    rw [insertBack_concat_stay hcompare]
    simp [hpre]

theorem insertFrom_spec {done todo : List α} {elements : List Nat} (hdone : done ≠ [])
    (h : Holding q spent elements ((insertAll compare done ++ todo).map some) q.length) :
    ∃ q', insertFrom compare elements todo.length done.length q = .ok q' ∧
      Holding q' spent elements ((insertAll compare (done ++ todo)).map some) q.length := by
  induction todo generalizing q done with
  | nil =>
    refine ⟨q,rfl,?_⟩
    rwa [List.append_nil] at h ⊢
  | cons d todo ih =>
    obtain ⟨⟨rest,hshape,rfl,hdata⟩,_⟩ := h
    have hsorted : insertAll compare done ≠ [] := by
      intro hnil
      have hperm := insertAll_perm compare done
      rw [hnil] at hperm
      exact hdone hperm.nil_eq.symm
    obtain ⟨ds,x,hds⟩ := (List.eq_nil_or_concat' _).resolve_left hsorted
    have hlength : done.length = ds.length + 1 := by
      rw [← (insertAll_perm compare done).length_eq,hds,List.length_append,List.length_singleton]
    rw [hds,List.append_assoc,List.map_append,List.singleton_append,List.map_cons] at hdata
    obtain ⟨pre,p,tail,rfl,hpre,htail⟩ := split_contents ds hdata
    obtain ⟨mid,a,post,rfl,hmid,hpost⟩ := split_contents [] htail
    obtain rfl := List.map_eq_nil_iff.mp hmid
    obtain ⟨q₁,hrun,hholding⟩ := insertElement_spec compare hshape hpre
    rw [length_of_contents hpre,← hlength] at hrun
    rw [← hds,← insertAll_concat,hpost,← List.map_append] at hholding
    have hnext : (done ++ [d]).length = done.length + 1 := List.length_append
    obtain ⟨q₂,hrun₂,hholding₂⟩ := ih (List.append_ne_nil_of_right_ne_nil done (List.cons_ne_nil d []))
      ⟨hholding.shape,rfl⟩
    rw [hnext,List.append_assoc,List.singleton_append] at *
    refine ⟨q₂,?_,hholding₂.shape,hholding₂.length.trans hholding.length⟩
    rw [List.length_cons,insertFrom]
    simp only [List.nil_append]
    rw [hrun]
    exact hrun₂

theorem Represents.gather (h : Represents q live) :
    ∃ q' spent elements, collectGarbage q = .ok q' ∧
      Holding q' spent elements (live.map some) q.length ∧
      ∀ room, q'.gather room q'.head [] =
        if live.length ≤ room then .ok elements else .error .outOfBounds := by
  obtain ⟨_,garbage,spent,rest,hshape,hdata⟩ := h
  obtain ⟨q',hrun,hshape',hlength⟩ := collectGarbage_spec hshape
  have hhead : q'.divider = q'.head := Option.some.inj hshape'.head
  refine ⟨q',spent,addresses rest,hrun,⟨⟨rest,hshape',rfl,hdata⟩,hlength⟩,fun room => ?_⟩
  rw [← hhead,gather_spec hshape'.linked,length_of_contents hdata,List.nil_append]

theorem Represents.sort (h : Represents q live) (hlive : live.length < 2 ^ 31) (compare : α → α → Bool) :
    ∃ q', q.sortQueue compare = .ok q' ∧ Represents q' (insertAll compare live) ∧
      q'.length = q.length := by
  obtain ⟨q',spent,elements,hrun,hholding,hgather⟩ := h.gather
  have hlength : q'.length.toInt = live.length := by
    rw [hholding.length,h.length,Int32.toInt_ofNat_of_lt hlive]
  have hsorted : ∃ q'', insertFrom compare elements (live.length - 1) 1 q' = .ok q'' ∧
      Holding q'' spent elements ((insertAll compare live).map some) q'.length := by
    cases live with
    | nil => exact ⟨q',rfl,hholding.shape,rfl⟩
    | cons d live => exact insertFrom_spec (List.cons_ne_nil d []) ⟨hholding.shape,rfl⟩
  obtain ⟨q'',hinsert,⟨rest,hshape,_,hdata⟩,hlength''⟩ := hsorted
  have hsame : q''.length = q.length := hlength''.trans hholding.length
  refine ⟨q'',?_,⟨?_,[],spent,rest,hshape,hdata⟩,hsame⟩
  · rw [sortQueue,hrun,ok_bind]
    simp only [hlength,Int.toNat_natCast,hgather]
    rw [if_neg (Int.not_lt.mpr (Int.natCast_nonneg _)),if_pos le_rfl]
    exact hinsert
  · rw [hsame,h.length,(insertAll_perm compare live).length_eq]

-- The counter has wrapped: the array is too short for the elements, or has no length at all.
theorem Represents.sort_wrapped (h : Represents q live) (hlive : 2 ^ 31 ≤ live.length)
    (compare : α → α → Bool) : q.sortQueue compare = .error .outOfBounds := by
  obtain ⟨q',spent,elements,hrun,hholding,hgather⟩ := h.gather
  have hshort : ¬ live.length ≤ q'.length.toInt.toNat := by
    have := q'.length.toInt_lt
    omega
  rw [sortQueue,hrun,ok_bind]
  simp only [hgather,if_neg hshort]
  split
  · rfl
  · rfl

end Sorting

end Trema.Tremashark
