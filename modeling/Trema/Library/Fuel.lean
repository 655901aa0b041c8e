import Mathlib.Logic.Relation
import Mathlib.Data.Set.Finite.Basic
import Mathlib.Data.Fintype.Pigeonhole
import Mathlib.Tactic.Common

namespace Trema.Library

inductive Stop (ε : Type) where
  | outOfFuel
  | outOfBounds
  | aborted
  | rejected (error : ε)
deriving DecidableEq, Repr

abbrev Run (ε α : Type) := Except (Stop ε) α

variable {ε α β σ : Type}

@[simp] theorem ok_bind (a : α) (f : α → Run ε β) : (Except.ok a >>= f : Run ε β) = f a := rfl

@[simp] theorem error_bind (e : Stop ε) (f : α → Run ε β) :
    (Except.error e >>= f : Run ε β) = .error e := rfl

theorem pure_eq_ok (a : α) : (pure a : Run ε α) = .ok a := rfl

theorem bind_eq_ok {x : Run ε α} {f : α → Run ε β} {b : β} :
    (x >>= f) = .ok b ↔ ∃ a, x = .ok a ∧ f a = .ok b := by
  cases x with
  | error e => simp
  | ok a => simp

theorem bind_eq_error {x : Run ε α} {f : α → Run ε β} {e : Stop ε} :
    (x >>= f) = .error e ↔ x = .error e ∨ ∃ a, x = .ok a ∧ f a = .error e := by
  cases x with
  | error d => simp
  | ok a => simp

def Settled (f : Nat → Run ε α) : Prop :=
  ∀ n m, n ≤ m → f n ≠ .error .outOfFuel → f m = f n

def Terminates (f : Nat → Run ε α) : Prop := ∃ n, f n ≠ .error .outOfFuel

def Yields (f : Nat → Run ε α) (r : Run ε α) : Prop :=
  r ≠ .error .outOfFuel ∧ ∃ n, f n = r

def NoFault (f : Nat → Run ε α) : Prop := ∀ n, f n ≠ .error .outOfBounds

theorem terminates_iff (f : Nat → Run ε α) : Terminates f ↔ ∃ r, Yields f r := by
  constructor
  · rintro ⟨n,hn⟩
    exact ⟨f n,hn,n,rfl⟩
  · rintro ⟨r,hr,n,hn⟩
    exact ⟨n,by rw [hn]; exact hr⟩

theorem noFault_iff (f : Nat → Run ε α) : NoFault f ↔ ¬ Yields f (.error .outOfBounds) := by
  constructor
  · rintro h ⟨_,n,hn⟩
    exact h n hn
  · intro h n hn
    exact h ⟨by simp,n,hn⟩

theorem Settled.yields_eq {f : Nat → Run ε α} (hf : Settled f) {n : Nat} {r : Run ε α}
    (hr : Yields f r) (hn : f n ≠ .error .outOfFuel) : f n = r := by
  obtain ⟨hne,m,rfl⟩ := hr
  rcases Nat.le_total n m with h | h
  · exact (hf n m h hn).symm
  · exact hf m n h hne

theorem Settled.yields_unique {f : Nat → Run ε α} (hf : Settled f) {r s : Run ε α}
    (hr : Yields f r) (hs : Yields f s) : r = s := by
  obtain ⟨hne,n,rfl⟩ := hr
  exact hf.yields_eq hs hne

theorem Settled.eventually {f : Nat → Run ε α} (hf : Settled f) {r : Run ε α}
    (hr : Yields f r) : ∃ n, ∀ m, n ≤ m → f m = r := by
  obtain ⟨hne,n,hn⟩ := hr
  refine ⟨n,fun m hm => ?_⟩
  rw [hf n m hm (by rw [hn]; exact hne),hn]

def Safe (f : Nat → Run ε α) : Prop := Terminates f ∧ NoFault f

theorem Settled.safe {f : Nat → Run ε α} (hf : Settled f) {a : α} (h : Yields f (.ok a)) :
    Safe f := by
  refine ⟨(terminates_iff f).mpr ⟨_,h⟩,(noFault_iff f).mpr fun herr => ?_⟩
  have := hf.yields_unique h herr
  simp at this

theorem settled_const (r : Run ε α) : Settled (fun _ => r) := fun _ _ _ _ => rfl

theorem settled_ite {p : Prop} [Decidable p] {f g : Nat → Run ε α}
    (hf : Settled f) (hg : Settled g) : Settled (fun n => if p then f n else g n) := by
  split <;> assumption

theorem settled_bind {f : Nat → Run ε α} {g : Nat → α → Run ε β}
    (hf : Settled f) (hg : ∀ a, Settled (fun n => g n a)) :
    Settled (fun n => f n >>= g n) := by
  intro n m hnm hn
  have hfn : f n ≠ .error .outOfFuel := by
    intro h
    simp [h] at hn
  have hfm := hf n m hnm hfn
  cases h : f n with
  | error e => simp [hfm,h]
  | ok a =>
    simp only [h,ok_bind] at hn
    simp only [hfm,h,ok_bind]
    exact hg a n m hnm hn

theorem settled_inspect {f : Nat → Run ε α} {g : Nat → Run ε α → Run ε β} (hf : Settled f)
    (hg : ∀ r, Settled (fun n => g n r)) (hfuel : ∀ n, g n (.error .outOfFuel) = .error .outOfFuel) :
    Settled (fun n => g n (f n)) := by
  intro n m hnm hn
  have hdone : f n ≠ .error .outOfFuel := by
    intro h
    refine hn ?_
    simp only [h]
    exact hfuel n
  simp only [hf n m hnm hdone]
  exact hg (f n) n m hnm hn

@[simp] theorem yields_const (r s : Run ε α) :
    Yields (fun _ => r) s ↔ s = r ∧ r ≠ .error .outOfFuel := by
  constructor
  · rintro ⟨hs,_,rfl⟩
    exact ⟨rfl,hs⟩
  · rintro ⟨rfl,h⟩
    exact ⟨h,0,rfl⟩

theorem yields_ok {r : Run ε α} {a : α} (h : r = .ok a) : Yields (fun _ => r) (.ok a) :=
  ⟨by simp,0,h⟩

theorem yields_bind {f : Nat → Run ε α} {g : Nat → α → Run ε β}
    (hf : Settled f) (hg : ∀ a, Settled (fun n => g n a)) (r : Run ε β) :
    Yields (fun n => f n >>= g n) r ↔
      (∃ a, Yields f (.ok a) ∧ Yields (fun n => g n a) r) ∨
      (∃ e, Yields f (.error e) ∧ r = .error e) := by
  constructor
  · rintro ⟨hr,n,hn⟩
    cases h : f n with
    | error e =>
      simp only [h,error_bind] at hn
      subst hn
      exact .inr ⟨e,⟨by simpa using hr,n,h⟩,rfl⟩
    | ok a =>
      simp only [h,ok_bind] at hn
      exact .inl ⟨a,⟨by simp,n,h⟩,hr,n,hn⟩
  · rintro (⟨a,ha,hr⟩ | ⟨e,⟨he,n,hn⟩,rfl⟩)
    · obtain ⟨n,hn⟩ := hf.eventually ha
      obtain ⟨k,hk⟩ := (hg a).eventually hr
      refine ⟨hr.1,max n k,?_⟩
      simp only [hn _ (Nat.le_max_left n k)]
      exact hk _ (Nat.le_max_right n k)
    · exact ⟨by simpa using he,n,by simp [hn]⟩

section Lists

theorem mapM_range (l : List α) (f : Nat → Run ε β) (g : α → β)
    (h : ∀ i (hi : i < l.length), f i = .ok (g l[i])) : (List.range l.length).mapM f = .ok (l.map g) := by
  induction l generalizing f with
  | nil => rfl
  | cons a l ih =>
    have hrest := ih (fun i => f (i + 1)) fun i hi => h (i + 1) (Nat.succ_lt_succ hi)
    have hfirst := h 0 (Nat.succ_pos _)
    rw [List.length_cons,List.range_succ_eq_map,List.mapM_cons,hfirst,ok_bind,List.mapM_map]
    have hcomp : f ∘ Nat.succ = fun i => f (i + 1) := rfl
    rw [hcomp,hrest]
    rfl

variable {f : Nat → α → Run ε β} {l : List α}

theorem settled_mapM (hf : ∀ a, Settled (fun n => f n a)) (l : List α) : Settled (fun n => l.mapM (f n)) := by
  induction l with
  | nil => exact settled_const _
  | cons a l ih =>
    simp only [List.mapM_cons]
    exact settled_bind (hf a) fun b => settled_bind ih fun bs => settled_const _

theorem settled_push (hf : ∀ a, Settled (fun n => f n a)) (l : List α) (b : β) :
    Settled (fun n => l.mapM (f n) >>= fun bs => pure (b :: bs)) :=
  settled_bind (settled_mapM hf l) fun bs => settled_const (pure (b :: bs))

theorem yields_mapM (hf : ∀ a, Settled (fun n => f n a)) {g : α → β}
    (h : ∀ a ∈ l, Yields (fun n => f n a) (.ok (g a))) : Yields (fun n => l.mapM (f n)) (.ok (l.map g)) := by
  induction l with
  | nil => exact yields_ok rfl
  | cons a l ih =>
    simp only [List.mapM_cons]
    refine (yields_bind (hf a) (settled_push hf l) _).mpr (.inl ⟨g a,h a (by simp),?_⟩)
    exact (yields_bind (settled_mapM hf l) (fun bs => settled_const (pure (g a :: bs))) _).mpr
      (.inl ⟨l.map g,ih fun b hb => h b (by simp [hb]),yields_ok rfl⟩)

-- The first element that fails ends the traversal.
theorem yields_mapM_error (hf : ∀ a, Settled (fun n => f n a)) {g : α → β} {e : Stop ε}
    (h : ∀ a ∈ l, Yields (fun n => f n a) (.ok (g a)) ∨ Yields (fun n => f n a) (.error e))
    (hbad : ∃ a ∈ l, Yields (fun n => f n a) (.error e)) : Yields (fun n => l.mapM (f n)) (.error e) := by
  induction l with
  | nil => exact absurd hbad (by simp)
  | cons a l ih =>
    simp only [List.mapM_cons]
    refine (yields_bind (hf a) (settled_push hf l) _).mpr ?_
    rcases h a (by simp) with hgood | hfail
    · obtain ⟨b,hb,hfail⟩ := hbad
      rcases List.mem_cons.mp hb with rfl | hb
      · exact .inr ⟨e,hfail,rfl⟩
      · refine .inl ⟨g a,hgood,?_⟩
        exact (yields_bind (settled_mapM hf l) (fun bs => settled_const (pure (g a :: bs))) _).mpr
          (.inr ⟨e,ih (fun c hc => h c (by simp [hc])) ⟨b,hb,hfail⟩,rfl⟩)
    · exact .inr ⟨e,hfail,rfl⟩

end Lists

theorem terminates_const (r : Run ε α) :
    Terminates (fun _ => r) ↔ r ≠ .error .outOfFuel := by
  constructor
  · rintro ⟨_,h⟩
    exact h
  · exact fun h => ⟨0,h⟩

theorem terminates_bind {f : Nat → Run ε α} {g : Nat → α → Run ε β}
    (hf : Settled f) (hg : ∀ a, Settled (fun n => g n a)) :
    Terminates (fun n => f n >>= g n) ↔
      Terminates f ∧ ∀ a, Yields f (.ok a) → Terminates (fun n => g n a) := by
  simp only [terminates_iff,yields_bind hf hg]
  constructor
  · rintro ⟨r,⟨a,ha,hr⟩ | ⟨e,he,rfl⟩⟩
    · refine ⟨⟨_,ha⟩,fun b hb => ⟨r,?_⟩⟩
      have hab := hf.yields_unique ha hb
      injection hab with hab
      exact hab ▸ hr
    · refine ⟨⟨_,he⟩,fun b hb => ?_⟩
      have hab := hf.yields_unique he hb
      simp at hab
  · rintro ⟨⟨r,hr⟩,h⟩
    cases r with
    | error e => exact ⟨_,.inr ⟨e,hr,rfl⟩⟩
    | ok a =>
      obtain ⟨s,hs⟩ := h a hr
      exact ⟨s,.inl ⟨a,hr,hs⟩⟩

theorem terminates_after {r : Run ε α} {g : Nat → α → Run ε β}
    (hg : ∀ a, Settled (fun n => g n a)) :
    Terminates (fun n => r >>= g n) ↔
      r ≠ .error .outOfFuel ∧ ∀ a, r = .ok a → Terminates (fun n => g n a) := by
  rw [terminates_bind (settled_const r) hg,terminates_const]
  simp only [yields_const]
  constructor
  · rintro ⟨hr,h⟩
    exact ⟨hr,fun a ha => h a ⟨ha.symm,hr⟩⟩
  · rintro ⟨hr,h⟩
    exact ⟨hr,fun a ha => h a ha.1.symm⟩

theorem yields_after {r : Run ε α} {g : Nat → α → Run ε β}
    (hg : ∀ a, Settled (fun n => g n a)) (s : Run ε β) :
    Yields (fun n => r >>= g n) s ↔
      (∃ a, r = .ok a ∧ Yields (fun n => g n a) s) ∨
      (∃ e, e ≠ .outOfFuel ∧ r = .error e ∧ s = .error e) := by
  rw [yields_bind (settled_const r) hg]
  cases r with
  | error d =>
    simp only [yields_const]
    constructor
    · rintro (⟨a,⟨h,_⟩,_⟩ | ⟨e,⟨h,hd⟩,rfl⟩)
      · simp at h
      · exact .inr ⟨e,by rintro rfl; exact hd h.symm,h.symm,rfl⟩
    · rintro (⟨a,h,_⟩ | ⟨e,he,h,rfl⟩)
      · simp at h
      · exact .inr ⟨e,⟨h.symm,by rw [h]; simpa using he⟩,rfl⟩
  | ok a => simp

theorem noFault_const (r : Run ε α) : NoFault (fun _ => r) ↔ r ≠ .error .outOfBounds :=
  ⟨fun h => h 0,fun h _ => h⟩

theorem noFault_bind {f : Nat → Run ε α} {g : Nat → α → Run ε β}
    (hf : Settled f) (hg : ∀ a, Settled (fun n => g n a)) :
    NoFault (fun n => f n >>= g n) ↔
      NoFault f ∧ ∀ a, Yields f (.ok a) → NoFault (fun n => g n a) := by
  simp only [noFault_iff,yields_bind hf hg,not_or,not_exists,not_and]
  constructor
  · rintro ⟨hok,herr⟩
    exact ⟨fun h => herr _ h rfl,hok⟩
  · rintro ⟨herr,hok⟩
    refine ⟨hok,fun e he h => ?_⟩
    injection h with h
    exact herr (h ▸ he)

theorem noFault_after {r : Run ε α} {g : Nat → α → Run ε β}
    (hg : ∀ a, Settled (fun n => g n a)) :
    NoFault (fun n => r >>= g n) ↔
      r ≠ .error .outOfBounds ∧ ∀ a, r = .ok a → NoFault (fun n => g n a) := by
  rw [noFault_bind (settled_const r) hg,noFault_const]
  refine and_congr_right fun _ => forall_congr' fun a => ?_
  simp only [yields_const]
  constructor
  · rintro h rfl
    exact h ⟨rfl,by simp⟩
  · rintro h ⟨ha,_⟩
    exact h ha.symm

def whileLoop (cond : σ → Bool) (body : σ → Run ε σ) : Nat → σ → Run ε σ
  | 0, _ => .error .outOfFuel
  | n + 1, s => if cond s then body s >>= whileLoop cond body n else .ok s

section Loop

variable {cond : σ → Bool} {body : Nat → σ → Run ε σ}

theorem whileLoop_mono (hb : ∀ s, Settled (fun n => body n s)) {n m k l : Nat} (hnm : n ≤ m)
    (hkl : k ≤ l) (s : σ) (h : whileLoop cond (body n) k s ≠ .error .outOfFuel) :
    whileLoop cond (body m) l s = whileLoop cond (body n) k s := by
  induction k generalizing l s with
  | zero => exact absurd rfl h
  | succ k ih =>
    obtain ⟨l,rfl⟩ : ∃ j, l = j + 1 := ⟨l - 1,by omega⟩
    simp only [whileLoop] at h ⊢
    split
    · rename_i hc
      simp only [hc,if_true] at h
      have hbn : body n s ≠ .error .outOfFuel := by
        intro he
        apply h
        rw [he]
        rfl
      have hbm : body m s = body n s := hb s n m hnm hbn
      rw [hbm]
      cases ht : body n s with
      | error e => rfl
      | ok t =>
        simp only [ht,ok_bind] at h ⊢
        exact ih (by omega) t h
    · rfl

theorem settled_whileLoop (hb : ∀ s, Settled (fun n => body n s)) (s : σ) :
    Settled (fun n => whileLoop cond (body n) n s) :=
  fun _ _ hnm h => whileLoop_mono hb hnm hnm s h

def Next (cond : σ → Bool) (body : Nat → σ → Run ε σ) (s t : σ) : Prop :=
  cond s = true ∧ Yields (fun n => body n s) (.ok t)

abbrev Reach (cond : σ → Bool) (body : Nat → σ → Run ε σ) : σ → σ → Prop :=
  Relation.ReflTransGen (Next cond body)

def Final (cond : σ → Bool) (body : Nat → σ → Run ε σ) (t : σ) (r : Run ε σ) : Prop :=
  (cond t = false ∧ r = .ok t) ∨
    (cond t = true ∧ ∃ e, r = .error e ∧ Yields (fun n => body n t) (.error e))

theorem reach_of_whileLoop {n k : Nat} {s : σ} {r : Run ε σ} (hr : r ≠ .error .outOfFuel)
    (h : whileLoop cond (body n) k s = r) :
    ∃ t, Reach cond body s t ∧ Final cond body t r := by
  induction k generalizing s with
  | zero => exact absurd h.symm hr
  | succ k ih =>
    simp only [whileLoop] at h
    split at h
    · rename_i hc
      cases hb : body n s with
      | error e =>
        simp only [hb,error_bind] at h
        subst h
        exact ⟨s,.refl,.inr ⟨hc,e,rfl,by simpa using hr,n,hb⟩⟩
      | ok u =>
        simp only [hb,ok_bind] at h
        obtain ⟨t,ht,hf⟩ := ih h
        exact ⟨t,.head ⟨hc,by simp,n,hb⟩ ht,hf⟩
    · rename_i hc
      exact ⟨s,.refl,.inl ⟨by simpa using hc,h.symm⟩⟩

theorem whileLoop_of_reach (hb : ∀ s, Settled (fun n => body n s)) {s t : σ} {r : Run ε σ}
    (ht : Reach cond body s t) (hf : Final cond body t r) :
    ∃ n, ∀ m, n ≤ m → ∃ k, whileLoop cond (body m) k s = r := by
  induction ht using Relation.ReflTransGen.head_induction_on with
  | refl =>
    rcases hf with ⟨hc,rfl⟩ | ⟨hc,e,rfl,he⟩
    · exact ⟨0,fun m _ => ⟨1,by simp [whileLoop,hc]⟩⟩
    · obtain ⟨n,hn⟩ := (hb t).eventually he
      refine ⟨n,fun m hm => ⟨1,?_⟩⟩
      simp only [whileLoop,hc,if_true,hn m hm]
      rfl
  | @head a b hab _ ih =>
    obtain ⟨n,hn⟩ := ih
    obtain ⟨l,hl⟩ := (hb a).eventually hab.2
    refine ⟨max n l,fun m hm => ?_⟩
    obtain ⟨k,hk⟩ := hn m (le_trans (Nat.le_max_left n l) hm)
    refine ⟨k + 1,?_⟩
    simp only [whileLoop,hab.1,if_true,hl m (le_trans (Nat.le_max_right n l) hm)]
    exact hk

theorem whileLoop_yields (hb : ∀ s, Settled (fun n => body n s)) (s : σ) (r : Run ε σ) :
    Yields (fun n => whileLoop cond (body n) n s) r ↔
      r ≠ .error .outOfFuel ∧ ∃ t, Reach cond body s t ∧ Final cond body t r := by
  constructor
  · rintro ⟨hr,n,hn⟩
    exact ⟨hr,reach_of_whileLoop hr hn⟩
  · rintro ⟨hr,t,ht,hf⟩
    obtain ⟨n,hn⟩ := whileLoop_of_reach hb ht hf
    obtain ⟨k,hk⟩ := hn (max n 0) (Nat.le_max_left n 0)
    refine ⟨hr,max n k,?_⟩
    rw [← hk]
    exact whileLoop_mono hb (by omega) (by omega) s (by rw [hk]; exact hr)

theorem whileLoop_yields_ok (hb : ∀ s, Settled (fun n => body n s)) (s t : σ) :
    Yields (fun n => whileLoop cond (body n) n s) (.ok t) ↔
      Reach cond body s t ∧ cond t = false := by
  rw [whileLoop_yields hb]
  constructor
  · rintro ⟨_,u,hu,⟨hc,h⟩ | ⟨_,e,h,_⟩⟩
    · injection h with h
      exact ⟨h ▸ hu,h ▸ hc⟩
    · simp at h
  · rintro ⟨ht,hc⟩
    exact ⟨by simp,t,ht,.inl ⟨hc,rfl⟩⟩

theorem whileLoop_yields_error (hb : ∀ s, Settled (fun n => body n s)) (s : σ) {e : Stop ε}
    (he : e ≠ .outOfFuel) :
    Yields (fun n => whileLoop cond (body n) n s) (.error e) ↔
      ∃ t, Reach cond body s t ∧ cond t = true ∧ Yields (fun n => body n t) (.error e) := by
  rw [whileLoop_yields hb]
  constructor
  · rintro ⟨_,u,hu,⟨_,h⟩ | ⟨hc,f,h,hf⟩⟩
    · simp at h
    · injection h with h
      exact ⟨u,hu,hc,h ▸ hf⟩
  · rintro ⟨t,ht,hc,h⟩
    exact ⟨by simpa using he,t,ht,.inr ⟨hc,e,rfl,h⟩⟩

theorem whileLoop_noFault (hb : ∀ s, Settled (fun n => body n s)) (s : σ) :
    NoFault (fun n => whileLoop cond (body n) n s) ↔
      ∀ t, Reach cond body s t → cond t = true → NoFault (fun n => body n t) := by
  simp only [noFault_iff]
  rw [whileLoop_yields_error hb s (by simp)]
  simp only [not_exists,not_and]

theorem whileLoop_terminates (hb : ∀ s, Settled (fun n => body n s)) (s : σ) :
    Terminates (fun n => whileLoop cond (body n) n s) ↔
      ∃ t, Reach cond body s t ∧
        (cond t = false ∨ ∃ e, e ≠ .outOfFuel ∧ Yields (fun n => body n t) (.error e)) := by
  rw [terminates_iff]
  constructor
  · rintro ⟨r,hr⟩
    cases r with
    | ok t =>
      obtain ⟨ht,hc⟩ := (whileLoop_yields_ok hb s t).mp hr
      exact ⟨t,ht,.inl hc⟩
    | error e =>
      have he : e ≠ .outOfFuel := fun h => hr.1 (by rw [h])
      obtain ⟨t,ht,_,h⟩ := (whileLoop_yields_error hb s he).mp hr
      exact ⟨t,ht,.inr ⟨e,he,h⟩⟩
  · rintro ⟨t,ht,hc⟩
    cases hct : cond t with
    | false => exact ⟨.ok t,(whileLoop_yields_ok hb s t).mpr ⟨ht,hct⟩⟩
    | true =>
      rcases hc with hc | ⟨e,he,h⟩
      · simp [hct] at hc
      · exact ⟨.error e,(whileLoop_yields_error hb s he).mpr ⟨t,ht,hct,h⟩⟩

-- An invariant under which every turn of the loop succeeds and brings a measure down.
theorem whileLoop_measured {body : σ → Run ε σ} {I : σ → Prop} (measure : σ → Nat)
    (h : ∀ s, I s → cond s = true → ∃ t, body s = .ok t ∧ I t ∧ measure t < measure s) {s : σ}
    (hs : I s) {n : Nat} (hn : measure s < n) :
    ∃ t, whileLoop cond body n s = .ok t ∧ I t ∧ cond t = false := by
  induction n generalizing s with
  | zero => omega
  | succ n ih =>
    rw [whileLoop]
    cases hc : cond s with
    | false => exact ⟨s,rfl,hs,hc⟩
    | true =>
      obtain ⟨t,ht,hinv,hlt⟩ := h s hs hc
      obtain ⟨u,hu,hrest⟩ := ih hinv (by omega)
      exact ⟨u,by rw [if_pos rfl,ht]; exact hu,hrest⟩

theorem next_unique (hb : ∀ s, Settled (fun n => body n s)) {s t u : σ}
    (ht : Next cond body s t) (hu : Next cond body s u) : t = u := by
  have h := (hb s).yields_unique ht.2 hu.2
  injection h

theorem terminates_of_bounded (hb : ∀ s, Settled (fun n => body n s)) (s : σ)
    (hbody : ∀ t, Reach cond body s t → cond t = true → Terminates (fun n => body n t))
    (measure : σ → Nat) (bound : Nat) (hbound : ∀ t u, Reach cond body s t →
      Next cond body t u → measure t < bound ∧ measure t < measure u) :
    Terminates (fun n => whileLoop cond (body n) n s) := by
  rw [whileLoop_terminates hb]
  by_contra hno
  push Not at hno
  have step : ∀ t, Reach cond body s t → ∃ u, Next cond body t u := by
    intro t ht
    obtain ⟨hc,herr⟩ := hno t ht
    have hct : cond t = true := by simpa using hc
    obtain ⟨r,hr⟩ := (terminates_iff _).mp (hbody t ht hct)
    cases r with
    | ok u => exact ⟨u,hct,hr⟩
    | error e => exact absurd hr (herr e (fun h => hr.1 (by rw [h])))
  have climb : ∀ k, ∃ t, Reach cond body s t ∧ k ≤ measure t := by
    intro k
    induction k with
    | zero => exact ⟨s,.refl,by omega⟩
    | succ k ih =>
      obtain ⟨t,ht,hk⟩ := ih
      obtain ⟨u,hu⟩ := step t ht
      exact ⟨u,ht.tail hu,by have := (hbound t u ht hu).2; omega⟩
  obtain ⟨t,ht,hk⟩ := climb bound
  obtain ⟨u,hu⟩ := step t ht
  have := (hbound t u ht hu).1
  omega

theorem reach_comparable (hb : ∀ s, Settled (fun n => body n s)) {s t u : σ}
    (ht : Reach cond body s t) (hu : Reach cond body s u) :
    Reach cond body t u ∨ Reach cond body u t := by
  induction ht with
  | refl => exact .inl hu
  | @tail a b _ hab ih =>
    rcases ih with h | h
    · rcases Relation.ReflTransGen.cases_head h with rfl | ⟨c,hac,hcu⟩
      · exact .inr (.single hab)
      · rw [next_unique hb hab hac]
        exact .inl hcu
    · exact .inr (h.tail hab)

theorem not_terminates_of_stuck (hb : ∀ s, Settled (fun n => body n s)) {s t : σ}
    (ht : Reach cond body s t) (hc : cond t = true) (hstuck : ¬ Terminates (fun n => body n t)) :
    ¬ Terminates (fun n => whileLoop cond (body n) n s) := by
  intro hterm
  obtain ⟨u,hu,hend⟩ := (whileLoop_terminates hb s).mp hterm
  have hut : u ≠ t := by
    rintro rfl
    rcases hend with h | ⟨e,_,h⟩
    · simp [hc] at h
    · exact hstuck ((terminates_iff _).mpr ⟨_,h⟩)
  rcases reach_comparable hb ht hu with h | h
  · rcases Relation.ReflTransGen.cases_head h with rfl | ⟨v,hv,_⟩
    · exact hut rfl
    · exact hstuck ((terminates_iff _).mpr ⟨_,hv.2⟩)
  · rcases Relation.ReflTransGen.cases_head h with rfl | ⟨v,hv,_⟩
    · exact hut rfl
    · rcases hend with h | ⟨e,_,h⟩
      · simp [hv.1] at h
      · have := (hb u).yields_unique hv.2 h
        simp at this

theorem not_terminates_of_forever (hb : ∀ s, Settled (fun n => body n s)) {s t : σ}
    (P : σ → Prop) (ht : Reach cond body s t) (hP : P t)
    (hstep : ∀ u, P u → ∃ v, Next cond body u v ∧ P v) :
    ¬ Terminates (fun n => whileLoop cond (body n) n s) := by
  intro hterm
  obtain ⟨u,hu,hend⟩ := (whileLoop_terminates hb s).mp hterm
  have stuck : ∀ v, ¬ Next cond body u v := by
    rintro v ⟨hc,hv⟩
    rcases hend with h | ⟨e,_,h⟩
    · simp [hc] at h
    · have := (hb u).yields_unique hv h
      simp at this
  have stays : ∀ {v}, Reach cond body t v → P v := by
    intro v hv
    induction hv with
    | refl => exact hP
    | tail _ hab ih =>
      obtain ⟨w,hw,hPw⟩ := hstep _ ih
      exact next_unique hb hw hab ▸ hPw
  rcases reach_comparable hb ht hu with h | h
  · obtain ⟨v,hv,_⟩ := hstep u (stays h)
    exact stuck v hv
  · rcases Relation.ReflTransGen.cases_head h with rfl | ⟨v,hv,_⟩
    · obtain ⟨v,hv,_⟩ := hstep u hP
      exact stuck v hv
    · exact stuck v hv

theorem not_terminates_of_cycle (hb : ∀ s, Settled (fun n => body n s)) {s t : σ}
    (ht : Reach cond body s t) (hcycle : Relation.TransGen (Next cond body) t t) :
    ¬ Terminates (fun n => whileLoop cond (body n) n s) := by
  refine not_terminates_of_forever hb (fun u => Relation.TransGen (Next cond body) u u) ht hcycle ?_
  intro u hu
  obtain ⟨v,huv,hvu⟩ := Relation.TransGen.head'_iff.mp hu
  exact ⟨v,huv,Relation.TransGen.tail' hvu huv⟩

theorem terminates_of_acyclic (hb : ∀ s, Settled (fun n => body n s)) (s : σ)
    (hbody : ∀ t, Reach cond body s t → cond t = true → Terminates (fun n => body n t))
    (hfin : {t | Reach cond body s t}.Finite)
    (hacyc : ∀ t, Reach cond body s t → ¬ Relation.TransGen (Next cond body) t t) :
    Terminates (fun n => whileLoop cond (body n) n s) := by
  rw [whileLoop_terminates hb]
  by_contra hno
  push Not at hno
  have step : ∀ t : {t // Reach cond body s t}, ∃ u : {t // Reach cond body s t},
      Next cond body t.val u.val := by
    rintro ⟨t,ht⟩
    obtain ⟨hc,herr⟩ := hno t ht
    have hct : cond t = true := by simpa using hc
    obtain ⟨r,hr⟩ := (terminates_iff _).mp (hbody t ht hct)
    cases r with
    | ok u => exact ⟨⟨u,ht.tail ⟨hct,hr⟩⟩,hct,hr⟩
    | error e => exact absurd hr (herr e (fun h => hr.1 (by rw [h])))
  choose next hnext using step
  let path : Nat → {t // Reach cond body s t} := fun n => next^[n] ⟨s,.refl⟩
  have hsucc : ∀ n, Next cond body (path n).val (path (n + 1)).val := by
    intro n
    simpa only [path,Function.iterate_succ_apply'] using hnext (path n)
  have hpath : ∀ n k, Relation.TransGen (Next cond body) (path n).val (path (n + k + 1)).val := by
    intro n k
    induction k with
    | zero => exact .single (hsucc n)
    | succ k ih => exact ih.tail (hsucc (n + k + 1))
  have : Finite {t // Reach cond body s t} := hfin
  obtain ⟨i,j,hij,heq⟩ := Finite.exists_ne_map_eq_of_infinite path
  rcases Nat.lt_or_gt_of_ne hij with h | h
  · obtain ⟨k,rfl⟩ : ∃ k, j = i + k + 1 := ⟨j - i - 1,by omega⟩
    exact hacyc _ (path i).property (by simpa only [← heq] using hpath i k)
  · obtain ⟨k,rfl⟩ : ∃ k, i = j + k + 1 := ⟨i - j - 1,by omega⟩
    exact hacyc _ (path j).property (by simpa only [heq] using hpath j k)

end Loop

section Runs

variable {ρ : Type} (step : Nat → σ → ρ → Run ε σ)

-- Every input of a run meets a condition in the state that the ones before it lead to.
def FitsRun (Fits : σ → ρ → Prop) : σ → List ρ → Prop
  | _, [] => True
  | s, x :: xs => Fits s x ∧ ∀ t, Yields (fun n => step n s x) (.ok t) → FitsRun Fits t xs

-- Every step of a run returns, in a way that is asked for.
def ServesRun (Serves : σ → ρ → σ → Prop) : σ → List ρ → Prop
  | _, [] => True
  | s, x :: xs => ∃ t, Yields (fun n => step n s x) (.ok t) ∧ Serves s x t ∧ ServesRun Serves t xs

variable {step}

theorem serves_of_fits {Inv : σ → Prop} {Fits : σ → ρ → Prop} {Serves : σ → ρ → σ → Prop}
    (hstep : ∀ s x, Inv s → Fits s x → ∃ t, Yields (fun n => step n s x) (.ok t) ∧ Serves s x t ∧ Inv t)
    {s : σ} {xs : List ρ} (h : Inv s) (hfits : FitsRun step Fits s xs) : ServesRun step Serves s xs := by
  induction xs generalizing s with
  | nil => trivial
  | cons x xs ih =>
    obtain ⟨t,hrun,hserves,hinv⟩ := hstep s x h hfits.1
    exact ⟨t,hrun,hserves,ih hinv (hfits.2 t hrun)⟩

end Runs

end Trema.Library
