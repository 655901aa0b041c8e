import Trema.Library.Fuel
import Mathlib.Algebra.BigOperators.Group.List.Basic
import Mathlib.Algebra.Order.Ring.Nat

namespace Trema.Library

variable {ε σ : Type}

inductive Walk (elem : σ → Nat → Prop) (next : σ → Nat → σ) : σ → List Nat → σ → Prop
  | nil (s : σ) : Walk elem next s [] s
  | cons {s t : σ} {l : Nat} {ls : List Nat} (hl : elem s l)
      (rest : Walk elem next (next s l) ls t) : Walk elem next s (l :: ls) t

section Walks

variable {elem : σ → Nat → Prop} {next : σ → Nat → σ} {s t u : σ} {ls ks : List Nat}

theorem Walk.append (h : Walk elem next s ls t) (k : Walk elem next t ks u) :
    Walk elem next s (ls ++ ks) u := by
  induction h with
  | nil s => exact k
  | cons hl _ ih => exact .cons hl (ih k)

theorem Walk.split (h : Walk elem next s (ls ++ ks) u) :
    ∃ t, Walk elem next s ls t ∧ Walk elem next t ks u := by
  induction ls generalizing s with
  | nil => exact ⟨s,.nil s,h⟩
  | cons l ls ih =>
    cases h with
    | cons hl rest =>
      obtain ⟨t,ht,hu⟩ := ih rest
      exact ⟨t,.cons hl ht,hu⟩

theorem Walk.snoc {l : Nat} (h : Walk elem next s ls t) (hl : elem t l) :
    Walk elem next s (ls ++ [l]) (next t l) := h.append (.cons hl (.nil _))

theorem Walk.fold (h : Walk elem next s ls t) : t = ls.foldl next s := by
  induction h with
  | nil s => rfl
  | cons _ _ ih => exact ih

theorem Walk.mem {l : Nat} (h : Walk elem next s ls t) (hl : l ∈ ls) :
    ∃ pre u, Walk elem next s pre u ∧ elem u l := by
  induction h with
  | nil s => simp at hl
  | @cons s t k ks hk rest ih =>
    rcases List.mem_cons.mp hl with rfl | hmem
    · exact ⟨[],s,.nil s,hk⟩
    · obtain ⟨pre,u,hu,he⟩ := ih hmem
      exact ⟨k :: pre,u,.cons hk hu,he⟩

end Walks

section Reaching

variable {cond : σ → Bool} {body : Nat → σ → Run ε σ}
  {elem : σ → Nat → Prop} {next : σ → Nat → σ}

def Follows (cond : σ → Bool) (body : Nat → σ → Run ε σ) (elem : σ → Nat → Prop)
    (next : σ → Nat → σ) : Prop :=
  ∀ s t, Next cond body s t ↔ ∃ l, elem s l ∧ t = next s l

theorem Follows.reach (h : Follows cond body elem next) (s t : σ) :
    Reach cond body s t ↔ ∃ ls, Walk elem next s ls t := by
  constructor
  · intro hr
    induction hr with
    | refl => exact ⟨[],.nil s⟩
    | tail _ hab ih =>
      obtain ⟨ls,hls⟩ := ih
      obtain ⟨l,hl,rfl⟩ := (h _ _).mp hab
      exact ⟨ls ++ [l],hls.snoc hl⟩
  · rintro ⟨ls,hls⟩
    induction hls with
    | nil s => exact .refl
    | @cons s t l ls hl _ ih => exact .head ((h s _).mpr ⟨l,hl,rfl⟩) ih

theorem Follows.transGen (h : Follows cond body elem next) (s t : σ) :
    Relation.TransGen (Next cond body) s t ↔ ∃ ls, ls ≠ [] ∧ Walk elem next s ls t := by
  rw [Relation.TransGen.head'_iff]
  constructor
  · rintro ⟨u,hu,ht⟩
    obtain ⟨l,hl,rfl⟩ := (h _ _).mp hu
    obtain ⟨ls,hls⟩ := (h.reach _ _).mp ht
    exact ⟨l :: ls,by simp,.cons hl hls⟩
  · rintro ⟨ls,hne,hls⟩
    cases hls with
    | nil => exact absurd rfl hne
    | @cons _ _ l ls hl rest =>
      exact ⟨next s l,(h _ _).mpr ⟨l,hl,rfl⟩,(h.reach _ _).mpr ⟨ls,rest⟩⟩

end Reaching

end Trema.Library
