import Trema.Library.Fuel

namespace Trema.Library

variable {ε α β σ : Type} (P : ε → Prop)

-- The weakest precondition of a computation for "it ends without an error, or with one in P".
def FailsOnly (r : Run ε α) : Prop := ∀ e, r = .error (.rejected e) → P e

def RejectsOnly (f : Nat → Run ε α) : Prop := ∀ e, Yields f (.error (.rejected e)) → P e

variable {P}

@[simp] theorem failsOnly_ok (a : α) : FailsOnly P (.ok a : Run ε α) := fun _ h => by simp at h

@[simp] theorem failsOnly_rejected (e : ε) :
    FailsOnly P (.error (.rejected e) : Run ε α) ↔ P e := by
  simp [FailsOnly]

@[simp] theorem failsOnly_outOfBounds : FailsOnly P (.error .outOfBounds : Run ε α) :=
  fun _ h => by simp at h

theorem failsOnly_bind {x : Run ε α} {f : α → Run ε β} :
    FailsOnly P (x >>= f) ↔ FailsOnly P x ∧ ∀ a, x = .ok a → FailsOnly P (f a) := by
  cases x with
  | ok a => simp
  | error e => simp [FailsOnly]

theorem failsOnly_iff_ok {r : Run ε Unit} (h : FailsOnly (fun e => ¬ P e) r)
    (hf : r ≠ .error .outOfFuel) (ha : r ≠ .error .aborted) :
    FailsOnly P r ↔ (r ≠ .error .outOfBounds → r = .ok ()) := by
  cases r with
  | ok a => simp
  | error e =>
    cases e with
    | outOfFuel => exact absurd rfl hf
    | aborted => exact absurd rfl ha
    | outOfBounds => simp
    | rejected e => simpa using h

theorem rejectsOnly_const {r : Run ε α} : RejectsOnly P (fun _ => r) ↔ FailsOnly P r := by
  refine forall_congr' fun e => ⟨fun h hr => h ⟨by simp,0,hr⟩,fun h hr => h ?_⟩
  exact ((yields_const _ _).mp hr).1.symm

theorem rejectsOnly_bind {f : Nat → Run ε α} {g : Nat → α → Run ε β}
    (hf : Settled f) (hg : ∀ a, Settled (fun n => g n a)) :
    RejectsOnly P (fun n => f n >>= g n) ↔
      RejectsOnly P f ∧ ∀ a, Yields f (.ok a) → RejectsOnly P (fun n => g n a) := by
  simp only [RejectsOnly,yields_bind hf hg]
  constructor
  · intro h
    exact ⟨fun e he => h e (.inr ⟨_,he,rfl⟩),fun a ha e he => h e (.inl ⟨a,ha,he⟩)⟩
  · rintro ⟨hfirst,hrest⟩ e (⟨a,ha,he⟩ | ⟨d,hd,he⟩)
    · exact hrest a ha e he
    · injection he with he
      exact hfirst e (he ▸ hd)

theorem rejectsOnly_after {r : Run ε α} {g : Nat → α → Run ε β}
    (hg : ∀ a, Settled (fun n => g n a)) :
    RejectsOnly P (fun n => r >>= g n) ↔
      FailsOnly P r ∧ ∀ a, r = .ok a → RejectsOnly P (fun n => g n a) := by
  rw [rejectsOnly_bind (settled_const r) hg,rejectsOnly_const]
  refine and_congr_right fun _ => forall_congr' fun a => ⟨fun h ha => h (yields_ok ha),fun h ha => h ?_⟩
  exact ((yields_const _ _).mp ha).1.symm

theorem whileLoop_rejectsOnly {cond : σ → Bool} {body : Nat → σ → Run ε σ}
    (hb : ∀ s, Settled (fun n => body n s)) (s : σ) :
    RejectsOnly P (fun n => whileLoop cond (body n) n s) ↔
      ∀ t, Reach cond body s t → cond t = true → RejectsOnly P (fun n => body n t) := by
  constructor
  · intro h t ht hc e he
    exact h e ((whileLoop_yields_error hb s (by simp)).mpr ⟨t,ht,hc,he⟩)
  · intro h e he
    obtain ⟨t,ht,hc,hbody⟩ := (whileLoop_yields_error hb s (by simp)).mp he
    exact h t ht hc e hbody

end Trema.Library
