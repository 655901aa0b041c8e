import Trema.Library.Keyed
import Trema.Library.Fuel
import Mathlib.Data.List.Nodup

namespace Trema.Library

variable {ε δ σ : Type}

-- A linked list: each cell's address and what it holds, from the first cell on.
abbrev Chain (δ : Type) := List (Nat × δ)

namespace Chain

def addresses (c : Chain δ) : List Nat := c.map Prod.fst

def contents (c : Chain δ) : List δ := c.map Prod.snd

def first : Chain δ → Option Nat
  | [] => none
  | cell :: _ => some cell.1

-- What a cell holds and the address of the next one; a freed address is no cell's.
def cellAt : Chain δ → Nat → Option (δ × Option Nat)
  | [], _ => none
  | cell :: rest, a => if cell.1 = a then some (cell.2,first rest) else cellAt rest a

def unlink (c : Chain δ) (a : Nat) : Chain δ := c.eraseP fun cell => cell.1 == a

def modify (p : δ → Bool) (f : δ → δ) (c : Chain δ) : Chain δ :=
  modifyFirst (fun cell => p cell.2) (fun cell => (cell.1,f cell.2)) c

section Cells

variable {c pre rest : Chain δ} {cell : Nat × δ} {a : Nat}

@[simp] theorem contents_nil : contents ([] : Chain δ) = [] := rfl

@[simp] theorem contents_cons (cell : Nat × δ) (c : Chain δ) :
    contents (cell :: c) = cell.2 :: contents c := rfl

@[simp] theorem contents_append (c d : Chain δ) : contents (c ++ d) = contents c ++ contents d :=
  List.map_append

theorem mem_contents (h : cell ∈ c) : cell.2 ∈ contents c := List.mem_map_of_mem h

theorem mem_addresses (h : cell ∈ c) : cell.1 ∈ addresses c := List.mem_map_of_mem h

theorem cellAt_append (hd : (addresses (pre ++ cell :: rest)).Nodup) :
    cellAt (pre ++ cell :: rest) cell.1 = some (cell.2,first rest) := by
  induction pre with
  | nil => exact if_pos rfl
  | cons head pre ih =>
    obtain ⟨hnot,hd⟩ := List.nodup_cons.mp hd
    rw [List.cons_append,cellAt,if_neg,ih hd]
    intro heq
    exact hnot (heq ▸ mem_addresses (by simp))

theorem unlink_append (hd : (addresses (pre ++ cell :: rest)).Nodup) :
    unlink (pre ++ cell :: rest) cell.1 = pre ++ rest := by
  induction pre with
  | nil => exact List.eraseP_cons_of_pos (beq_self_eq_true _)
  | cons head pre ih =>
    obtain ⟨hnot,hd⟩ := List.nodup_cons.mp hd
    have hne : head.1 ≠ cell.1 := fun heq => hnot (heq ▸ mem_addresses (by simp))
    rw [List.cons_append,unlink,List.eraseP_cons_of_neg (by simpa using hne)]
    exact congrArg _ (ih hd)

theorem unlink_sublist (c : Chain δ) (a : Nat) : (unlink c a).Sublist c := List.eraseP_sublist

theorem nodup_unlink (hd : (addresses c).Nodup) (a : Nat) : (addresses (unlink c a)).Nodup :=
  ((unlink_sublist c a).map Prod.fst).nodup hd

theorem unlink_before (pre : Chain δ) (ha : a ∉ addresses rest) :
    unlink (pre ++ rest) a = unlink pre a ++ rest := by
  have hrest : ∀ cell ∈ rest, ¬ (cell.1 == a) = true := by
    intro cell hmem heq
    exact ha (eq_of_beq heq ▸ mem_addresses hmem)
  rw [unlink,unlink,List.eraseP_append]
  split
  · rfl
  · rename_i hnone
    have hpre : ∀ cell ∈ pre, ¬ (cell.1 == a) = true := by
      intro cell hmem heq
      exact hnone (List.any_eq_true.mpr ⟨cell,hmem,heq⟩)
    rw [List.eraseP_of_forall_not hrest,List.eraseP_of_forall_not hpre]

theorem mem_unlink (h : cell ∈ c) (ha : cell.1 ≠ a) : cell ∈ unlink c a :=
  (List.mem_eraseP_of_neg (by simpa using ha)).mpr h

theorem contents_modify (p : δ → Bool) (f : δ → δ) (c : Chain δ) :
    contents (modify p f c) = modifyFirst p f (contents c) := by
  induction c with
  | nil => rfl
  | cons cell c ih =>
    rw [modify,modifyFirst,contents_cons,modifyFirst]
    split
    · rfl
    · exact congrArg _ ih

theorem addresses_modify (p : δ → Bool) (f : δ → δ) (c : Chain δ) :
    addresses (modify p f c) = addresses c := by
  induction c with
  | nil => rfl
  | cons cell c ih =>
    rw [modify,modifyFirst]
    split
    · rfl
    · exact congrArg (cell.1 :: ·) ih

theorem address_injective (hd : (addresses c).Nodup) {cell' : Nat × δ} (h : cell ∈ c) (h' : cell' ∈ c)
    (ha : cell.1 = cell'.1) : cell = cell' := List.inj_on_of_nodup_map hd h h' ha

theorem contents_unlink_find (p : δ → Bool) (hd : (addresses c).Nodup)
    (h : c.find? (fun x => p x.2) = some cell) :
    contents (unlink c cell.1) = (contents c).eraseP p := by
  obtain ⟨hp,pre,rest,rfl,hpre⟩ := List.find?_eq_some_iff_append.mp h
  have hskip : ∀ d ∈ contents pre, ¬ p d = true := by
    intro d hmem
    obtain ⟨x,hx,rfl⟩ := List.mem_map.mp hmem
    simpa using hpre x hx
  rw [unlink_append hd,contents_append,contents_append,List.eraseP_append_right _ hskip,
    contents_cons,List.eraseP_cons_of_pos hp]

theorem contents_unlink [DecidableEq δ] (hd : (addresses c).Nodup) (hn : (contents c).Nodup)
    (h : cell ∈ c) : contents (unlink c cell.1) = (contents c).erase cell.2 := by
  obtain ⟨pre,rest,rfl⟩ := List.append_of_mem h
  have hnot : cell.2 ∉ contents pre := by
    rw [contents_append,contents_cons] at hn
    exact fun hmem => (List.nodup_append.mp hn).2.2 _ hmem _ (by simp) rfl
  rw [unlink_append hd,contents_append,contents_append,List.erase_append_right _ hnot,
    contents_cons,List.erase_cons_head]

end Cells

section Walks

variable (chain : σ → Chain δ) (body : δ → σ → Run ε σ)

-- for (element = first; element != NULL;) { data = element->data; element = element->next; ... }
def walk : Nat → Option Nat → σ → Run ε σ
  | _, none, s => .ok s
  | 0, some _, _ => .error .outOfFuel
  | n + 1, some a, s =>
    match cellAt (chain s) a with
    | none => .error .outOfBounds
    | some (data,next) => body data s >>= walk n next

def visited (datas : List δ) (s : σ) : Run ε σ := datas.foldlM (fun s data => body data s) s

theorem visited_ok (f : δ → σ → σ) (datas : List δ) (s : σ) :
    visited (fun data s => (.ok (f data s) : Run ε σ)) datas s =
      .ok (datas.foldl (fun s data => f data s) s) := by
  induction datas generalizing s with
  | nil => rfl
  | cons data datas ih => exact ih _

-- The body may do what it likes to the cell it was given and to the ones before it.
def Spares (I : σ → Prop) : Prop :=
  ∀ s t pre cell rest, I s → chain s = pre ++ cell :: rest → body cell.2 s = .ok t →
    I t ∧ ∃ left, chain t = left ++ rest

variable {chain body}

theorem walk_eq {I : σ → Prop} (hdistinct : ∀ s, I s → (addresses (chain s)).Nodup)
    (hspares : Spares chain body I) {cells pre : Chain δ} {s : σ} {n : Nat} (hs : I s)
    (hc : chain s = pre ++ cells) (hn : cells.length ≤ n) :
    walk chain body n (first cells) s = visited body (contents cells) s := by
  induction cells generalizing pre s n with
  | nil =>
    cases n with
    | zero => rfl
    | succ n => rfl
  | cons cell rest ih =>
    obtain ⟨n,rfl⟩ : ∃ k, n = k + 1 := ⟨n - 1,by simp only [List.length_cons] at hn; omega⟩
    have hcell : cellAt (chain s) cell.1 = some (cell.2,first rest) := by
      rw [hc]
      exact cellAt_append (hc ▸ hdistinct s hs)
    simp only [first,walk,hcell,visited,contents_cons,List.foldlM_cons]
    cases hbody : body cell.2 s with
    | error e => rfl
    | ok t =>
      obtain ⟨ht,left,hleft⟩ := hspares s t pre cell rest hs hc hbody
      exact ih ht hleft (by simpa using hn)

theorem walk_all {I : σ → Prop} (hdistinct : ∀ s, I s → (addresses (chain s)).Nodup)
    (hspares : Spares chain body I) {s : σ} {n : Nat} (hs : I s) (hn : (chain s).length ≤ n) :
    walk chain body n (first (chain s)) s = visited body (contents (chain s)) s :=
  walk_eq hdistinct hspares hs (List.nil_append _).symm hn

end Walks

end Chain

end Trema.Library
