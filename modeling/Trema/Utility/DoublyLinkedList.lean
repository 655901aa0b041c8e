import Trema.Library.DoublyLinked
import Trema.Utility.Wrapper

namespace Trema.Utility

open Library Chain

variable {α ε : Type}

-- The data of an element is a pointer that may be null. The mutex that the elements of a list share is left out: only
-- delete_dlist frees it.
abbrev DlistElement (α : Type) := Node (Option α)

-- What xmalloc has given out; a freed element keeps its number.
abbrev Elements (α : Type) := List (Option (DlistElement α))

section Code

variable (m : Elements α)

def element (e : Nat) : Run ε (DlistElement α) :=
  match m[e]?.join with
  | none => .error .outOfBounds
  | some x => .ok x

-- A null element is a fatal error.
def nonNull (p : Option Nat) : Run ε Nat :=
  match p with
  | none => .error .aborted
  | some e => .ok e

def modify (e : Nat) (f : DlistElement α → DlistElement α) : Run ε (Elements α) := do
  let _ ← element m e
  pure (alter m e f)

def blank : DlistElement α := ⟨none,none,none⟩

def createDlist : Nat × Elements α := (m.length,m ++ [some blank])

-- insert_before_dlist and insert_after_dlist do the same on either side.
def insertBeside (side : Side) (e : Nat) (data : Option α) : Run ε (Nat × Elements α) := do
  let x ← element m e
  let (new,m) := createDlist m
  let m ← match x.link side with
    | none => pure m
    | some old => do
      let m ← modify m new fun n => n.setLink side (some old)
      modify m old fun n => n.setLink side.other (some new)
  let m ← modify m e fun n => n.setLink side (some new)
  let m ← modify m new fun n => { n.setLink side.other (some e) with data := data }
  pure (new,m)

def insertBeforeDlist (p : Option Nat) (data : Option α) : Run ε (Nat × Elements α) := do
  let e ← nonNull p
  insertBeside m .prev e data

def insertAfterDlist (p : Option Nat) (data : Option α) : Run ε (Nat × Elements α) := do
  let e ← nonNull p
  insertBeside m .next e data

def endFrom (side : Side) : Nat → Nat → Run ε Nat
  | 0, _ => .error .outOfFuel
  | fuel + 1, e => do
    let x ← element m e
    match x.link side with
    | none => pure e
    | some e' => endFrom side fuel e'

-- Every turn goes to an element that has not been met.
def getFirstElement (p : Option Nat) : Run ε Nat := do
  let e ← nonNull p
  endFrom m .prev (m.length + 1) e

def getLastElement (p : Option Nat) : Run ε Nat := do
  let e ← nonNull p
  endFrom m .next (m.length + 1) e

def findFrom [DecidableEq α] (side : Side) (data : Option α) : Nat → Option Nat → Run ε (Option Nat)
  | 0, _ => .error .outOfFuel
  | _ + 1, none => .ok none
  | fuel + 1, some e => do
    let x ← element m e
    if x.data = data then pure (some e) else findFrom side data fuel (x.link side)

def findElement [DecidableEq α] (p : Option Nat) (data : Option α) : Run ε (Option Nat) := do
  let e ← nonNull p
  match ← findFrom m .next data (m.length + 1) (some e) with
  | some found => pure (some found)
  | none => do
    let x ← element m e
    findFrom m .prev data (m.length + 1) x.prev

-- A change to the element that the pointer is to, if there is one.
def modifyNeighbour (p : Option Nat) (f : DlistElement α → DlistElement α) : Run ε (Elements α) :=
  match p with
  | none => .ok m
  | some e => modify m e f

def deleteDlistElement (p : Option Nat) : Run ε (Elements α) := do
  let e ← nonNull p
  let x ← element m e
  let m ← modifyNeighbour m x.prev fun n => { n with next := x.next }
  let m ← modifyNeighbour m x.next fun n => { n with prev := x.prev }
  pure (m.set e none)

def freeFrom : Nat → Option Nat → Elements α → Run ε (Elements α)
  | 0, _, _ => .error .outOfFuel
  | _ + 1, none, m => .ok m
  | fuel + 1, some e, m => do
    let x ← element m e
    freeFrom fuel x.next (m.set e none)

def deleteDlist (p : Option Nat) : Run ε (Elements α) := do
  let e ← nonNull p
  let first ← endFrom m .prev (m.length + 1) e
  freeFrom (m.length + 1) (some first) m

end Code

-- The lists in memory: apart from each other, and nothing else is allocated.
structure Holds (m : Elements α) (lists : List (Chain (Option α))) : Prop where
  linked : ∀ c ∈ lists, Doubly m none none c
  apart : (lists.flatMap addresses).Nodup
  live : ∀ e, m[e]?.join ≠ none → e ∈ lists.flatMap addresses

section Elements

variable {m : Elements α} {lists ls rs : List (Chain (Option α))} {c pre post : Chain (Option α)} {e : Nat}
  {x y : Option α}

theorem element_ok {n : DlistElement α} (h : m[e]?.join = some n) : (element m e : Run ε _) = .ok n := by
  rw [element,h]

theorem lt_of_live (h : m[e]?.join ≠ none) : e < m.length := by
  obtain ⟨n,hn⟩ := Option.ne_none_iff_exists'.mp h
  exact lt_of_join hn

@[simp] theorem nonNull_some (e : Nat) : (nonNull (some e) : Run ε Nat) = .ok e := rfl

theorem modify_ok (h : m[e]?.join ≠ none) (f : DlistElement α → DlistElement α) :
    (modify m e f : Run ε _) = .ok (alter m e f) := by
  obtain ⟨n,hn⟩ := Option.ne_none_iff_exists'.mp h
  rw [modify,element_ok hn]
  rfl

theorem Holds.at (h : Holds m (ls ++ c :: rs)) : Doubly m none none c ∧ (addresses c).Nodup ∧
    ∀ d ∈ ls ++ rs, ∀ b ∈ addresses d, b ∉ addresses c := by
  have hapart := h.apart
  rw [List.flatMap_append,List.flatMap_cons] at hapart
  have hrot := (List.perm_append_comm_assoc _ _ _).nodup_iff.mp hapart
  obtain ⟨hthis,_,hcross⟩ := List.nodup_append.mp hrot
  refine ⟨h.linked _ (by simp),hthis,fun d hd b hb hb' => hcross b hb' b ?_ rfl⟩
  rw [← List.flatMap_append]
  exact List.mem_flatMap.mpr ⟨d,hd,hb⟩

-- One list changes; what it takes in is new and what it gives up is freed.
theorem Holds.replace {m' : Elements α} {c' : Chain (Option α)} (h : Holds m (ls ++ c :: rs))
    (hlinked : Doubly m' none none c') (hd : (addresses c').Nodup)
    (hframe : ∀ b, b ∉ addresses c → b ∉ addresses c' → m'[b]?.join = m[b]?.join)
    (hfresh : ∀ b ∈ addresses c', b ∈ addresses c ∨ m.length ≤ b)
    (hgone : ∀ b ∈ addresses c, b ∉ addresses c' → m'[b]?.join = none) : Holds m' (ls ++ c' :: rs) := by
  obtain ⟨_,_,hcross⟩ := h.at
  have hother : ∀ d ∈ ls ++ rs, ∀ b ∈ addresses d, b ∉ addresses c ∧ b ∉ addresses c' := by
    intro d hd b hb
    refine ⟨hcross d hd b hb,fun hb' => ?_⟩
    have hmem : d ∈ ls ++ c :: rs := by
      rcases List.mem_append.mp hd with hd | hd
      · exact List.mem_append_left _ hd
      · exact List.mem_append_right _ (List.mem_cons_of_mem _ hd)
    have hlt := (h.linked d hmem).lt hb
    rcases hfresh b hb' with hold | hnew
    · exact hcross d hd b hb hold
    · omega
  have hapart := h.apart
  rw [List.flatMap_append,List.flatMap_cons] at hapart
  obtain ⟨_,hrest,_⟩ := List.nodup_append.mp ((List.perm_append_comm_assoc _ _ _).nodup_iff.mp hapart)
  refine ⟨?_,?_,?_⟩
  · intro d hmem
    rcases List.mem_append.mp hmem with hl | hr
    · have hdl : d ∈ ls ++ rs := List.mem_append_left _ hl
      exact (h.linked d (List.mem_append_left _ hl)).congr fun b hb =>
        hframe b (hother d hdl b hb).1 (hother d hdl b hb).2
    · rcases List.mem_cons.mp hr with rfl | hr
      · exact hlinked
      · have hdr : d ∈ ls ++ rs := List.mem_append_right _ hr
        exact (h.linked d (List.mem_append_right _ (List.mem_cons_of_mem _ hr))).congr fun b hb =>
          hframe b (hother d hdr b hb).1 (hother d hdr b hb).2
  · rw [List.flatMap_append,List.flatMap_cons]
    refine (List.perm_append_comm_assoc _ _ _).nodup_iff.mpr (List.nodup_append.mpr ⟨hd,hrest,?_⟩)
    rintro b hb _ hb' rfl
    rw [← List.flatMap_append] at hb'
    obtain ⟨d,hd,hbd⟩ := List.mem_flatMap.mp hb'
    exact (hother d hd b hbd).2 hb
  · intro b hlive
    by_cases hb' : b ∈ addresses c'
    · exact List.mem_flatMap.mpr ⟨c',by simp,hb'⟩
    · have hb : b ∉ addresses c := fun hb => hlive (hgone b hb hb')
      rw [hframe b hb hb'] at hlive
      obtain ⟨d,hd,hbd⟩ := List.mem_flatMap.mp (h.live b hlive)
      refine List.mem_flatMap.mpr ⟨d,?_,hbd⟩
      rcases List.mem_append.mp hd with hd | hd
      · exact List.mem_append_left _ hd
      · rcases List.mem_cons.mp hd with rfl | hd
        · exact absurd hbd hb
        · exact List.mem_append_right _ (List.mem_cons_of_mem _ hd)

theorem join_push (n : DlistElement α) (b : Nat) :
    (m ++ [some n])[b]?.join = if b = m.length then some n else m[b]?.join := by
  split
  · rename_i hb
    subst hb
    exact join_append_last _
  · rename_i hb
    by_cases hlt : b < m.length
    · exact join_append _ hlt
    · rw [List.getElem?_eq_none (by rw [List.length_append,List.length_singleton]; omega),
        List.getElem?_eq_none (by omega)]

theorem live_push (h : m[e]?.join ≠ none ∨ e = m.length) (n : DlistElement α) : (m ++ [some n])[e]?.join ≠ none := by
  rw [join_push]
  split
  · exact Option.some_ne_none _
  · rename_i hne
    exact h.resolve_right hne

def beside (side : Side) (far : Option Nat) (e : Nat) (data : Option α) : DlistElement α :=
  match side with
  | .prev => ⟨data,far,some e⟩
  | .next => ⟨data,some e,far⟩

-- What the insertion beside an element does to each element.
theorem insertBeside_effect (side : Side) {n : DlistElement α} (hnode : m[e]?.join = some n)
    (hother : ∀ o, n.link side = some o → m[o]?.join ≠ none ∧ o ≠ e) (y : Option α) :
    ∃ m', (insertBeside m side e y : Run ε _) = .ok (m.length,m') ∧ m'.length = m.length + 1 ∧
      m'[m.length]?.join = some (beside side (n.link side) e y) ∧
      ∀ b, b ≠ m.length → m'[b]?.join =
        if b = e then m[b]?.join.map fun z => z.setLink side (some m.length)
        else if n.link side = some b then m[b]?.join.map fun z => z.setLink side.other (some m.length)
        else m[b]?.join := by
  have hlive : m[e]?.join ≠ none := by
    rw [hnode]
    exact Option.some_ne_none _
  have hne : m.length ≠ e := (lt_of_live hlive).ne'
  cases hlink : n.link side with
  | none =>
    refine ⟨alter (alter (m ++ [some (blank : DlistElement α)]) e fun z => z.setLink side (some m.length)) m.length fun z =>
      { z.setLink side.other (some e) with data := y },?_,by simp [alter],?_,?_⟩
    · simp only [insertBeside,element_ok hnode,ok_bind,createDlist,hlink,pure_bind]
      rw [modify_ok (live_push (.inl hlive) _),ok_bind,modify_ok,ok_bind]
      · rfl
      · rw [Ne,alter_live]
        exact live_push (.inr rfl) _
    · rw [join_alter,if_pos rfl,join_alter,if_neg hne,join_push,if_pos rfl]
      cases side <;> rfl
    · intro b hb
      rw [join_alter,if_neg hb,join_alter,join_push,if_neg hb]
      split <;> rfl
  | some o =>
    obtain ⟨hlo,hoe⟩ := hother o hlink
    have hno : m.length ≠ o := (lt_of_live hlo).ne'
    refine ⟨alter (alter (alter (alter (m ++ [some (blank : DlistElement α)]) m.length fun z => z.setLink side (some o)) o fun z =>
      z.setLink side.other (some m.length)) e fun z => z.setLink side (some m.length)) m.length fun z =>
      { z.setLink side.other (some e) with data := y },?_,by simp [alter],?_,?_⟩
    · simp only [insertBeside,element_ok hnode,ok_bind,createDlist,hlink]
      rw [modify_ok (live_push (.inr rfl) _),ok_bind,modify_ok,ok_bind,modify_ok,ok_bind,modify_ok,ok_bind]
      · rfl
      · simp only [Ne,alter_live]
        exact live_push (.inr rfl) _
      · simp only [Ne,alter_live]
        exact live_push (.inl hlive) _
      · rw [Ne,alter_live]
        exact live_push (.inl hlo) _
    · rw [join_alter,if_pos rfl,join_alter,if_neg hne,join_alter,if_neg hno,join_alter,if_pos rfl,join_push,if_pos rfl]
      cases side <;> rfl
    · intro b hb
      rw [join_alter,if_neg hb,join_alter,join_alter,join_alter,if_neg hb,join_push,if_neg hb]
      by_cases hbe : b = e
      · rw [if_pos hbe,if_pos hbe,if_neg fun h => hoe (h.symm.trans hbe)]
      · rw [if_neg hbe,if_neg hbe]
        by_cases hbo : b = o
        · rw [if_pos hbo,if_pos (congrArg some hbo.symm)]
        · rw [if_neg hbo,if_neg fun h => hbo (Option.some.inj h).symm]

theorem live_of_mem (h : Doubly m none none c) {b : Nat} (hb : b ∈ addresses c) : m[b]?.join ≠ none := by
  obtain ⟨cell,hcell,rfl⟩ := List.mem_map.mp hb
  obtain ⟨pre,post,rfl⟩ := List.append_of_mem hcell
  rw [h.node]
  exact Option.some_ne_none _

theorem nodup_insert {n : Nat} (hd : (addresses (pre ++ post)).Nodup) (hn : n ∉ addresses (pre ++ post)) (y : Option α) :
    (addresses (pre ++ (n,y) :: post)).Nodup := by
  rw [addresses_append] at hd hn ⊢
  exact List.nodup_middle.mpr (List.nodup_cons.mpr ⟨hn,hd⟩)

theorem mem_insert {n b : Nat} (y : Option α) :
    b ∈ addresses (pre ++ (n,y) :: post) ↔ b = n ∨ b ∈ addresses (pre ++ post) := by
  simp only [addresses_append,addresses_cons,List.mem_append,List.mem_cons]
  tauto

theorem Holds.inserted {m' : Elements α} (h : Holds m (ls ++ (pre ++ post) :: rs))
    (hnew : m'[m.length]?.join = some ⟨y,last pre,first post⟩)
    (hsame : ∀ b, b ≠ m.length → m'[b]?.join =
      if last pre = some b then m[b]?.join.map fun n => { n with next := some m.length }
      else if first post = some b then m[b]?.join.map fun n => { n with prev := some m.length }
      else m[b]?.join) : Holds m' (ls ++ (pre ++ (m.length,y) :: post) :: rs) := by
  obtain ⟨hlinked,hd,_⟩ := h.at
  have hfresh : ∀ b ∈ addresses (pre ++ post), b ≠ m.length := fun b hb => (hlinked.lt hb).ne
  refine h.replace (hlinked.insert hd ?_ fun b hb => hsame b (hfresh b hb)) ?_ ?_ ?_ ?_
  · rw [hnew,Option.or_none,Option.or_none]
  · exact nodup_insert hd (fun hb => hfresh _ hb rfl) y
  · intro b hb hb'
    rw [mem_insert,not_or] at hb'
    rw [hsame b hb'.1,if_neg fun hlast => hb ?_,if_neg fun hfirst => hb ?_]
    · rw [addresses_append]
      exact List.mem_append_right _ (first_mem hfirst)
    · rw [addresses_append]
      exact List.mem_append_left _ (last_mem hlast)
  · intro b hb
    rcases (mem_insert y).mp hb with rfl | hb
    · exact .inr le_rfl
    · exact .inl hb
  · intro b hb hb'
    exact absurd ((mem_insert y).mpr (.inr hb)) hb'

theorem insertBefore_spec (h : Holds m (ls ++ (pre ++ (e,x) :: post) :: rs)) (y : Option α) :
    ∃ m', (insertBeforeDlist m (some e) y : Run ε _) = .ok (m.length,m') ∧ m'.length = m.length + 1 ∧
      Holds m' (ls ++ (pre ++ (m.length,y) :: (e,x) :: post) :: rs) := by
  obtain ⟨hlinked,hd,_⟩ := h.at
  obtain ⟨hpre,_⟩ := nodup_split hd
  have hnode := hlinked.node
  rw [Option.or_none,Option.or_none] at hnode
  have hother : ∀ o, last pre = some o → m[o]?.join ≠ none ∧ o ≠ e := by
    intro o ho
    have hmem := last_mem ho
    exact ⟨live_of_mem hlinked (by simp [hmem]),fun heq => hpre (heq ▸ hmem)⟩
  obtain ⟨m',hrun,hlength,hnew,hsame⟩ := insertBeside_effect .prev hnode hother y
  refine ⟨m',hrun,hlength,h.inserted hnew fun b hb => ?_⟩
  rw [hsame b hb,first_cons]
  by_cases hbe : b = e
  · subst hbe
    rw [if_pos rfl,if_neg fun hlast => hpre (last_mem hlast),if_pos rfl]
    rfl
  · rw [if_neg hbe,if_neg fun hfirst => hbe (Option.some.inj hfirst).symm]
    rfl

theorem insertAfter_spec (h : Holds m (ls ++ (pre ++ (e,x) :: post) :: rs)) (y : Option α) :
    ∃ m', (insertAfterDlist m (some e) y : Run ε _) = .ok (m.length,m') ∧ m'.length = m.length + 1 ∧
      Holds m' (ls ++ (pre ++ (e,x) :: (m.length,y) :: post) :: rs) := by
  obtain ⟨hlinked,hd,_⟩ := h.at
  obtain ⟨_,hpost,_⟩ := nodup_split hd
  have hnode := hlinked.node
  rw [Option.or_none,Option.or_none] at hnode
  have hother : ∀ o, first post = some o → m[o]?.join ≠ none ∧ o ≠ e := by
    intro o ho
    have hmem := first_mem ho
    exact ⟨live_of_mem hlinked (by simp [hmem]),fun heq => hpost (heq ▸ hmem)⟩
  obtain ⟨m',hrun,hlength,hnew,hsame⟩ := insertBeside_effect .next hnode hother y
  rw [List.append_cons pre (e,x) post] at h
  rw [List.append_cons pre (e,x) ((m.length,y) :: post)]
  refine ⟨m',hrun,hlength,h.inserted ?_ fun b hb => ?_⟩
  · rw [last_concat]
    exact hnew
  · rw [hsame b hb,last_concat]
    by_cases hbe : b = e
    · rw [if_pos hbe,if_pos (congrArg some hbe.symm)]
      rfl
    · rw [if_neg hbe,if_neg fun hlast => hbe (Option.some.inj hlast).symm]
      rfl

theorem modifyNeighbour_ok {p : Option Nat} (h : ∀ o, p = some o → m[o]?.join ≠ none)
    (f : DlistElement α → DlistElement α) : ∃ m', (modifyNeighbour m p f : Run ε _) = .ok m' ∧ m'.length = m.length ∧
      ∀ b, m'[b]?.join = if p = some b then m[b]?.join.map f else m[b]?.join := by
  cases p with
  | none => exact ⟨m,rfl,rfl,fun b => rfl⟩
  | some o =>
    refine ⟨_,modify_ok (h o rfl) f,List.length_set,fun b => ?_⟩
    rw [join_alter]
    by_cases hb : b = o
    · rw [if_pos hb,if_pos (congrArg some hb.symm)]
    · rw [if_neg hb,if_neg fun h => hb (Option.some.inj h).symm]

-- What the deletion of an element does to each element.
theorem delete_effect {n : DlistElement α} (hnode : m[e]?.join = some n)
    (hprev : ∀ o, n.prev = some o → m[o]?.join ≠ none) (hnext : ∀ o, n.next = some o → m[o]?.join ≠ none) :
    ∃ m', (deleteDlistElement m (some e) : Run ε _) = .ok m' ∧ m'.length = m.length ∧ m'[e]?.join = none ∧
      ∀ b, b ≠ e → m'[b]?.join =
        if n.next = some b then (if n.prev = some b then m[b]?.join.map fun z => { z with next := n.next }
          else m[b]?.join).map fun z => { z with prev := n.prev }
        else if n.prev = some b then m[b]?.join.map fun z => { z with next := n.next } else m[b]?.join := by
  have hlt := lt_of_join hnode
  obtain ⟨m₁,hrun₁,hlen₁,hm₁⟩ := modifyNeighbour_ok (ε := ε) hprev fun z => { z with next := n.next }
  have hnext₁ : ∀ o, n.next = some o → m₁[o]?.join ≠ none := by
    intro o ho
    rw [hm₁]
    split
    · exact fun h => hnext o ho (Option.map_eq_none_iff.mp h)
    · exact hnext o ho
  obtain ⟨m₂,hrun₂,hlen₂,hm₂⟩ := modifyNeighbour_ok (ε := ε) hnext₁ fun z => { z with prev := n.prev }
  refine ⟨m₂.set e none,?_,List.length_set.trans (hlen₂.trans hlen₁),join_set_self (hlen₂.trans hlen₁ ▸ hlt) _,fun b hb => ?_⟩
  · rw [deleteDlistElement,nonNull_some,ok_bind,element_ok hnode,ok_bind,hrun₁,ok_bind,hrun₂]
    rfl
  · rw [join_set_ne hb,hm₂,hm₁]

theorem delete_spec (h : Holds m (ls ++ (pre ++ (e,x) :: post) :: rs)) :
    ∃ m', (deleteDlistElement m (some e) : Run ε _) = .ok m' ∧ m'.length = m.length ∧ Holds m' (ls ++ (pre ++ post) :: rs) := by
  obtain ⟨hlinked,hd,_⟩ := h.at
  obtain ⟨hpre,hpost,hdrest,hcross⟩ := nodup_split hd
  have hnode := hlinked.node
  rw [Option.or_none,Option.or_none] at hnode
  have hother : ∀ o, o ∈ addresses (pre ++ post) → m[o]?.join ≠ none := by
    intro o ho
    refine live_of_mem hlinked ?_
    rw [mem_insert]
    exact .inr ho
  have hlast : ∀ o, last pre = some o → o ∈ addresses (pre ++ post) := fun o ho => by
    rw [addresses_append]
    exact List.mem_append_left _ (last_mem ho)
  have hfirst : ∀ o, first post = some o → o ∈ addresses (pre ++ post) := fun o ho => by
    rw [addresses_append]
    exact List.mem_append_right _ (first_mem ho)
  obtain ⟨m',hrun,hlength,hgone,hsame⟩ := delete_effect hnode (fun o ho => hother o (hlast o ho)) fun o ho => hother o (hfirst o ho)
  have hne : ∀ b ∈ addresses (pre ++ post), b ≠ e := by
    intro b hb heq
    rw [addresses_append,List.mem_append,heq] at hb
    exact hb.elim hpre hpost
  have hapart : ∀ b, first post = some b → ¬ last pre = some b := fun b hb hb' => hcross b (last_mem hb') (first_mem hb)
  refine ⟨m',hrun,hlength,h.replace (hlinked.remove hdrest fun b hb => ?_) hdrest ?_ ?_ ?_⟩
  · rw [hsame b (hne b hb),Option.or_none,Option.or_none]
    by_cases hf : first post = some b
    · rw [if_pos hf,if_neg (hapart b hf),if_neg (hapart b hf),if_pos hf]
    · rw [if_neg hf,if_neg hf]
  · intro b hb hb'
    rw [mem_insert,not_or] at hb
    rw [hsame b hb.1,if_neg fun hf => hb' (hfirst b hf),if_neg fun hl => hb' (hlast b hl)]
  · intro b hb
    exact .inl ((mem_insert x).mpr (.inr hb))
  · intro b hb hb'
    rcases (mem_insert x).mp hb with rfl | hb
    · exact hgone
    · exact absurd hb hb'

theorem create_spec (h : Holds m lists) : Holds (createDlist m).2 (lists ++ [[(m.length,none)]]) := by
  refine ⟨?_,?_,?_⟩
  · intro c hc
    rcases List.mem_append.mp hc with hc | hc
    · exact (h.linked c hc).push _
    · obtain rfl := List.mem_singleton.mp hc
      exact ⟨join_append_last _,trivial⟩
  · rw [List.flatMap_append,List.nodup_append]
    refine ⟨h.apart,by simp,?_⟩
    rintro b hb _ hb' rfl
    obtain ⟨c,hc,hbc⟩ := List.mem_flatMap.mp hb
    have hlt := (h.linked c hc).lt hbc
    have hb : b = m.length := by simpa using hb'
    omega
  · intro b hb
    rw [createDlist,join_push] at hb
    rw [List.flatMap_append,List.mem_append]
    split at hb
    · rename_i hb'
      exact .inr (by simp [hb'])
    · exact .inl (h.live b hb)

theorem endFrom_spec {side : Side} (h : Followed m side ((e,x) :: c)) {fuel : Nat} (hfuel : c.length < fuel) :
    (endFrom m side fuel e : Run ε _) = .ok ((last c).getD e) := by
  induction c generalizing e x fuel with
  | nil =>
    obtain ⟨⟨n,hn,_,hlink⟩,_⟩ := h
    cases fuel with
    | zero => cases hfuel
    | succ fuel =>
      rw [endFrom,element_ok hn,ok_bind,hlink]
      rfl
  | cons cell c ih =>
    obtain ⟨⟨n,hn,_,hlink⟩,hrest⟩ := h
    cases fuel with
    | zero => cases hfuel
    | succ fuel =>
      rw [endFrom,element_ok hn,ok_bind,hlink]
      refine (ih hrest (Nat.lt_of_succ_lt_succ hfuel)).trans ?_
      rw [last]
      cases last c <;> rfl

theorem findFrom_spec [DecidableEq α] {side : Side} (h : Followed m side c) (data : Option α) (fuel : Nat)
    (hfuel : c.length < fuel) : (findFrom m side data fuel (first c) : Run ε _) =
      .ok ((c.find? fun cell => cell.2 = data).map Prod.fst) := by
  induction c generalizing fuel with
  | nil =>
    cases fuel with
    | zero => cases hfuel
    | succ fuel => rfl
  | cons cell c ih =>
    obtain ⟨⟨n,hn,hdata,hlink⟩,hrest⟩ := h
    cases fuel with
    | zero => cases hfuel
    | succ fuel =>
      rw [first_cons,findFrom,element_ok hn,ok_bind,hdata,hlink]
      split
      · rename_i hfound
        rw [List.find?_cons_of_pos (by simpa using hfound)]
        rfl
      · rename_i hother
        rw [List.find?_cons_of_neg (by simpa using hother)]
        exact ih hrest fuel (Nat.lt_of_succ_lt_succ hfuel)

theorem freeFrom_spec (h : Followed m .next c) (hd : (addresses c).Nodup) (fuel : Nat) (hfuel : c.length < fuel) :
    ∃ m', (freeFrom fuel (first c) m : Run ε _) = .ok m' ∧ m'.length = m.length ∧
      ∀ b, m'[b]?.join = if b ∈ addresses c then none else m[b]?.join := by
  induction c generalizing m fuel with
  | nil =>
    cases fuel with
    | zero => cases hfuel
    | succ fuel => exact ⟨m,rfl,rfl,fun b => rfl⟩
  | cons cell c ih =>
    obtain ⟨⟨n,hn,_,hlink⟩,hrest⟩ := h
    obtain ⟨hnot,hd⟩ := List.nodup_cons.mp hd
    cases fuel with
    | zero => cases hfuel
    | succ fuel =>
      obtain ⟨m',hrun,hlength,hm'⟩ := ih (hrest.set hnot none) hd fuel (Nat.lt_of_succ_lt_succ hfuel)
      refine ⟨m',?_,hlength.trans List.length_set,fun b => ?_⟩
      · have hnext : n.next = first c := hlink
        rw [first_cons,freeFrom,element_ok hn,ok_bind,hnext]
        exact hrun
      · rw [hm']
        by_cases hb : b = cell.1
        · subst hb
          have hout : cell.1 ∉ addresses c := hnot
          have hin : cell.1 ∈ addresses (cell :: c) := List.mem_cons_self
          rw [if_neg hout,if_pos hin,join_set_self (lt_of_join hn)]
        · simp only [addresses_cons,List.mem_cons,hb,false_or,join_set_ne hb]

theorem followed_back (hlinked : Doubly m none none (pre ++ (e,x) :: post)) :
    Followed m .prev ((e,x) :: pre.reverse) := by
  have hback := hlinked.backward
  rw [List.reverse_append,List.reverse_cons,List.append_assoc,List.singleton_append] at hback
  exact hback.append

theorem last_reverse (c : Chain (Option α)) : last c.reverse = first c := by
  cases c with
  | nil => rfl
  | cons cell c => rw [List.reverse_cons,last_concat]; rfl

theorem getFirst_spec (h : Holds m (ls ++ (pre ++ (e,x) :: post) :: rs)) :
    (getFirstElement m (some e) : Run ε _) = .ok ((first pre).getD e) := by
  obtain ⟨hlinked,hd,_⟩ := h.at
  have hle := length_le_nodes hlinked hd
  rw [List.length_append] at hle
  rw [getFirstElement,nonNull_some,ok_bind,endFrom_spec (followed_back hlinked) (by rw [List.length_reverse]; omega),last_reverse]

theorem getLast_spec (h : Holds m (ls ++ (pre ++ (e,x) :: post) :: rs)) :
    (getLastElement m (some e) : Run ε _) = .ok ((last post).getD e) := by
  obtain ⟨hlinked,hd,_⟩ := h.at
  have hle := length_le_nodes hlinked hd
  rw [List.length_append,List.length_cons] at hle
  exact endFrom_spec hlinked.forward.append (by omega)

-- Forward from the element first, then back from the one in front of it.
theorem find_spec [DecidableEq α] (h : Holds m (ls ++ (pre ++ (e,x) :: post) :: rs)) (data : Option α) :
    (findElement m (some e) data : Run ε _) =
      .ok ((((e,x) :: post ++ pre.reverse).find? fun cell => cell.2 = data).map Prod.fst) := by
  obtain ⟨hlinked,hd,_⟩ := h.at
  have hle := length_le_nodes hlinked hd
  rw [List.length_append,List.length_cons] at hle
  have hnode := hlinked.node
  rw [Option.or_none,Option.or_none] at hnode
  have hforward := findFrom_spec (ε := ε) hlinked.forward.append data (m.length + 1)
    (by rw [List.length_cons]; omega)
  have hback := findFrom_spec (ε := ε) (followed_back hlinked).2 data (m.length + 1)
    (by rw [List.length_reverse]; omega)
  rw [first_cons] at hforward
  rw [findElement,nonNull_some,ok_bind,hforward,ok_bind,List.find?_append]
  cases hfound : ((e,x) :: post).find? fun cell => cell.2 = data with
  | some cell => rfl
  | none =>
    have hfirst : first pre.reverse = last pre := by rw [← last_reverse,List.reverse_reverse]
    rw [hfirst] at hback
    rw [Option.map_none,element_ok hnode]
    exact hback

theorem deleteDlist_spec (h : Holds m (ls ++ (pre ++ (e,x) :: post) :: rs)) :
    ∃ m', (deleteDlist m (some e) : Run ε _) = .ok m' ∧ m'.length = m.length ∧ Holds m' (ls ++ rs) := by
  obtain ⟨hlinked,hd,hcross⟩ := h.at
  have hle := length_le_nodes hlinked hd
  have hhead : first (pre ++ (e,x) :: post) = some ((first pre).getD e) := by
    rw [first_append]
    cases first pre <;> rfl
  obtain ⟨m',hrun,hlength,hm'⟩ := freeFrom_spec (ε := ε) hlinked.forward hd (m.length + 1) (by omega)
  have hfirst : (endFrom m .prev (m.length + 1) e : Run ε _) = .ok ((first pre).getD e) := getFirst_spec h
  rw [hhead] at hrun
  refine ⟨m',by rw [deleteDlist,nonNull_some,ok_bind,hfirst,ok_bind,hrun],hlength,?_,?_,?_⟩
  · intro d hmem
    refine (h.linked d ?_).congr fun b hb => ?_
    · rcases List.mem_append.mp hmem with hmem | hmem
      · exact List.mem_append_left _ hmem
      · exact List.mem_append_right _ (List.mem_cons_of_mem _ hmem)
    · rw [hm',if_neg (hcross d hmem b hb)]
  · have hapart := h.apart
    rw [List.flatMap_append,List.flatMap_cons] at hapart
    rw [List.flatMap_append]
    exact (List.nodup_append.mp ((List.perm_append_comm_assoc _ _ _).nodup_iff.mp hapart)).2.1
  · intro b hb
    rw [hm'] at hb
    split at hb
    · exact absurd rfl hb
    · rename_i hout
      have hold := h.live b hb
      rw [List.flatMap_append,List.flatMap_cons,List.mem_append,List.mem_append] at hold
      rw [List.flatMap_append,List.mem_append]
      rcases hold with hold | hold | hold
      · exact .inl hold
      · exact absurd hold hout
      · exact .inr hold

end Elements

end Trema.Utility
