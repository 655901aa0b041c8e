import Trema.OpenFlow.Validate
import Trema.OpenFlow.Blocks
import Trema.Library.Walk

namespace Trema.OpenFlow

open Library Layout

theorem rejectIf_eq_ok {bad : Prop} [Decidable bad] {error : ValidationError} {u : Unit} :
    rejectIf bad error = .ok u ↔ ¬ bad := by
  unfold rejectIf
  split <;> simp_all

theorem rejectIf_eq_error {bad : Prop} [Decidable bad] {error : ValidationError}
    {e : Stop ValidationError} :
    rejectIf bad error = .error e ↔ bad ∧ e = .rejected error := by
  unfold rejectIf
  split <;> simp_all [eq_comm]

theorem onlyIf_eq_ok {c : Prop} [Decidable c] {act : Exec Unit} {u : Unit} :
    onlyIf c act = .ok u ↔ (c → act = .ok ()) := by
  unfold onlyIf
  split <;> simp_all

theorem skipIf_eq_ok {α : Type} {c : Prop} [Decidable c] {a b : α} {act : Exec α} :
    (if c then pure a else act) = .ok b ↔ c ∧ a = b ∨ ¬ c ∧ act = .ok b := by
  split <;> simp_all [pure,Except.pure]

theorem skipIf_eq_error {α : Type} {c : Prop} [Decidable c] {a : α} {act : Exec α}
    {e : Stop ValidationError} : (if c then pure a else act) = .error e ↔ ¬ c ∧ act = .error e := by
  split <;> simp_all [pure,Except.pure]

theorem onlyIf_eq_error {c : Prop} [Decidable c] {act : Exec Unit} {e : Stop ValidationError} :
    onlyIf c act = .error e ↔ c ∧ act = .error e := by
  unfold onlyIf
  split <;> simp_all

theorem dispatch_eq_ok {τ : Type} {type : Option τ} {unknown : ValidationError}
    {check : τ → Exec Unit} {u : Unit} :
    dispatch type unknown check = .ok u ↔ ∃ t, type = some t ∧ check t = .ok () := by
  cases type <;> simp [dispatch]

theorem dispatch_eq_error {τ : Type} {type : Option τ} {unknown : ValidationError}
    {check : τ → Exec Unit} {e : Stop ValidationError} :
    dispatch type unknown check = .error e ↔
      (type = none ∧ e = .rejected unknown) ∨ ∃ t, type = some t ∧ check t = .error e := by
  cases type <;> simp [dispatch,eq_comm]

structure Headed (message : Bytes) (type : OfpType) (minLength maxLength : Nat) : Prop where
  fits : 8 ≤ message.length
  version : validMessageVersion type.code (hostByte message 0) = true
  type : hostByte message 1 = type.code
  length : (be16 message 2).toNat = message.length
  lower : minLength ≤ message.length
  upper : message.length ≤ maxLength

theorem validateHeader_eq_ok {message : Bytes} {type : OfpType} {lo hi : Nat} {u : Unit} :
    validateHeader message type lo hi = .ok u ↔ Headed message type lo hi := by
  simp only [validateHeader,bind_eq_ok,rejectIf_eq_ok,byteAt_eq_ok,net16_eq_ok]
  constructor
  · rintro ⟨_,h8,v,⟨_,rfl⟩,_,hv,t,⟨_,rfl⟩,_,_,_,ht,l,⟨_,rfl⟩,_,hhi,_,hlo,_,hlt,_,hgt,_⟩
    exact ⟨by omega,by simpa using hv,by simpa using ht,by omega,by omega,by omega⟩
  · rintro ⟨h8,hv,ht,hl,hlo,hhi⟩
    have hcode : ¬ OfpType.queueGetConfigReply.code < type.code := by cases type <;> decide
    refine ⟨(),by omega,_,⟨by omega,rfl⟩,(),by simpa using hv,_,⟨by omega,rfl⟩,(),
      by simpa [ht] using hcode,(),by simpa using ht,_,⟨by omega,rfl⟩,(),by omega,(),by omega,(),
      by omega,(),by omega,by omega⟩

theorem Headed.validated {message : Bytes} {type : OfpType} {lo hi : Nat}
    (h : Headed message type lo hi) : validateHeader message type lo hi = .ok () :=
  validateHeader_eq_ok.mpr h

theorem validateHeader_eq_error {message : Bytes} {type : OfpType} {lo hi : Nat}
    {e : Stop ValidationError} (h : validateHeader message type lo hi = .error e) :
    ∃ r, e = .rejected r := by
  simp only [validateHeader,bind_eq_error,rejectIf_eq_error,rejectIf_eq_ok,byteAt_eq_error,
    net16_eq_error] at h
  rcases h with ⟨_,h⟩ | ⟨_,h8,h⟩
  · exact ⟨_,h⟩
  · rcases h with ⟨h,_⟩ | ⟨v,_,⟨_,h⟩ | ⟨_,_,h⟩⟩
    · omega
    · exact ⟨_,h⟩
    · rcases h with ⟨h,_⟩ | ⟨t,_,⟨_,h⟩ | ⟨_,_,⟨_,h⟩ | ⟨_,_,h⟩⟩⟩
      · omega
      · exact ⟨_,h⟩
      · exact ⟨_,h⟩
      · rcases h with ⟨h,_⟩ | ⟨l,_,⟨_,h⟩ | ⟨_,_,⟨_,h⟩ | ⟨_,_,⟨_,h⟩ | ⟨_,_,⟨_,h⟩ | ⟨_,_,_,h⟩⟩⟩⟩⟩
        · omega
        all_goals exact ⟨_,h⟩

theorem be16_drop (m : Bytes) (p off : Nat) : be16 (m.drop p) off = be16 m (p + off) := by
  rw [be16,be16,slice_drop]

theorem hostByte_drop (m : Bytes) (p off : Nat) :
    hostByte (m.drop p) off = hostByte m (p + off) := by
  rw [hostByte,hostByte,slice_drop]

theorem validateActionAs_eq_ok {type : ActionType} {n : Nat} {short long : ValidationError}
    {check : Bytes → Exec Unit} {m : Bytes} {p : Nat} :
    validateActionAs type n short long check m p = .ok () ↔
      p + readEnd (actionFields type) ≤ m.length ∧ be16 m p = type.code ∧
        (be16 m (p + 2)).toNat = n ∧ check (cells (actionFields type) (m.drop p)) = .ok () := by
  by_cases hin : p + readEnd (actionFields type) ≤ m.length
  · have hdrop : readEnd (actionFields type) ≤ (m.drop p).length := by
      rw [List.length_drop]
      omega
    have htype := host16_cells (actionFields_head type).1 hdrop
    have hlen := host16_cells (actionFields_head type).2 hdrop
    rw [be16_drop,Nat.add_zero] at htype
    rw [be16_drop] at hlen
    simp only [validateActionAs,convert_inside hin,ok_bind,bind_eq_ok,rejectIf_eq_ok,htype,hlen,
      ne_eq,not_not]
    constructor
    · rintro ⟨_,h1,_,h2,_,h3,h4⟩
      exact ⟨hin,h1,by omega,h4⟩
    · rintro ⟨_,h1,h2,h4⟩
      exact ⟨(),h1,(),by omega,(),by omega,h4⟩
  · constructor
    · intro h
      simp only [validateActionAs,bind_eq_ok,convert_eq_ok] at h
      exact absurd h.choose_spec.1.1 hin
    · exact fun h => absurd h.1 hin

def actionCheck : ActionType → Bytes → Exec Unit
  | .output, b => validatePhyPortNo (host16 b 4)
  | .setVlanVid, b => validateVlanVid (host16 b 4)
  | .setVlanPcp, b => validateVlanPcp (hostByte b 4)
  | .setNwTos, b => validateNwTos (hostByte b 4)
  | .enqueue, b => validatePhyPortNo (host16 b 4)
  | _, _ => .ok ()

theorem validateActionOf_eq_ok {t : ActionType} (ht : t ≠ .vendor) {m : Bytes} {p : Nat} :
    validateActionOf t m p = .ok () ↔
      p + readEnd (actionFields t) ≤ m.length ∧ be16 m p = t.code ∧
        (be16 m (p + 2)).toNat = size (actionFields t) ∧
        actionCheck t (cells (actionFields t) (m.drop p)) = .ok () := by
  cases t with
  | vendor => exact absurd rfl ht
  | _ => exact validateActionAs_eq_ok

theorem validateActionVendor_eq_ok {m : Bytes} {p : Nat} :
    validateActionVendor m p = .ok () ↔
      p + 4 ≤ m.length ∧ be16 m p = ActionType.vendor.code ∧ 8 ≤ (be16 m (p + 2)).toNat ∧
        (be16 m (p + 2)).toNat % 8 = 0 := by
  simp only [validateActionVendor,bind_eq_ok,net16_eq_ok,rejectIf_eq_ok,ne_eq,not_not]
  constructor
  · rintro ⟨_,⟨_,rfl⟩,_,h1,_,⟨h2,rfl⟩,_,h3,h4⟩
    exact ⟨by omega,h1,by omega,h4⟩
  · rintro ⟨h0,h1,h2,h3⟩
    exact ⟨_,⟨by omega,rfl⟩,(),h1,_,⟨by omega,rfl⟩,(),by omega,h3⟩

theorem validateAction_eq_ok {m : Bytes} {p : Nat} :
    validateAction m p = .ok () ↔ p + 4 ≤ m.length ∧ 8 ≤ (be16 m (p + 2)).toNat ∧
      ∃ t, ActionType.ofCode (be16 m p) = some t ∧ validateActionOf t m p = .ok () := by
  simp only [validateAction,bind_eq_ok,net16_eq_ok,rejectIf_eq_ok,dispatch_eq_ok]
  constructor
  · rintro ⟨_,⟨h0,rfl⟩,_,h1,_,⟨_,rfl⟩,h⟩
    exact ⟨by omega,by omega,h⟩
  · rintro ⟨h0,h1,h⟩
    exact ⟨_,⟨by omega,rfl⟩,(),by omega,_,⟨by omega,rfl⟩,h⟩

theorem validateQueueProperty_eq_ok {m : Bytes} {p : Nat} :
    validateQueueProperty m p = .ok () ↔ p + 4 ≤ m.length ∧
      ((be16 m p = ofpqtNone ∧ (be16 m (p + 2)).toNat = 8) ∨
        (be16 m p = ofpqtMinRate ∧ (be16 m (p + 2)).toNat = 16)) := by
  simp only [validateQueueProperty,bind_eq_ok,net16_eq_ok,rejectIf_eq_ok]
  have hsize : ∀ n (len : UInt16), validatePropertySize n len = .ok () ↔ len.toNat = n := by
    intro n len
    simp only [validatePropertySize,bind_eq_ok,rejectIf_eq_ok]
    constructor
    · rintro ⟨_,h1,h2⟩
      omega
    · intro h
      exact ⟨(),by omega,by omega⟩
  constructor
  · rintro ⟨_,⟨h0,rfl⟩,_,h1,_,⟨_,rfl⟩,h⟩
    refine ⟨by omega,?_⟩
    split at h
    · rename_i hp
      exact .inl ⟨hp,(hsize _ _).mp h⟩
    · split at h
      · rename_i hp
        exact .inr ⟨hp,(hsize _ _).mp h⟩
      · simp at h
  · rintro ⟨h0,⟨hp,hl⟩ | ⟨hp,hl⟩⟩
    · refine ⟨_,⟨by omega,rfl⟩,(),by omega,_,⟨by omega,rfl⟩,?_⟩
      rw [if_pos hp]
      exact (hsize _ _).mpr hl
    · refine ⟨_,⟨by omega,rfl⟩,(),by omega,_,⟨by omega,rfl⟩,?_⟩
      rw [if_neg (by rw [hp]; decide),if_pos hp]
      exact (hsize _ _).mpr hl

theorem actionBlock_of_accepted {m b : Bytes} {p : Nat} (hm : Holds m p b)
    (hok : validateAction m p = .ok ()) (hlen : (be16 m (p + 2)).toNat = b.length) :
    IsAction .net b := by
  obtain ⟨_,h8,t,ht,hof⟩ := validateAction_eq_ok.mp hok
  rw [hlen] at h8
  have htype : be16 m (p + 0) = be16 b 0 := hm.be16 (by omega)
  have hlen' : be16 m (p + 2) = be16 b 2 := hm.be16 (by omega)
  rw [Nat.add_zero] at htype
  refine ⟨t,⟨by rw [← ht,htype]; rfl,by rw [← hlen,hlen']; rfl,?_,?_⟩⟩
  · by_cases hv : t = .vendor
    · subst hv
      exact h8
    · have := ((validateActionOf_eq_ok hv).mp hof).2.2.1
      omega
  · intro hv
    have := ((validateActionOf_eq_ok hv).mp hof).2.2.1
    omega

theorem propertyBlock_of_accepted {m b : Bytes} {p : Nat} (hm : Holds m p b)
    (hok : validateQueueProperty m p = .ok ()) (hlen : (be16 m (p + 2)).toNat = b.length) :
    PropertyBlock .net b := by
  obtain ⟨_,hcases⟩ := validateQueueProperty_eq_ok.mp hok
  rw [hlen] at hcases
  have h8 : 8 ≤ b.length := by
    rcases hcases with ⟨_,h⟩ | ⟨_,h⟩ <;> omega
  have htype : be16 m (p + 0) = be16 b 0 := hm.be16 (by omega)
  have hlen' : be16 m (p + 2) = be16 b 2 := hm.be16 (by omega)
  rw [Nat.add_zero] at htype
  rw [htype] at hcases
  exact ⟨by rw [← hlen,hlen']; rfl,hcases⟩

end Trema.OpenFlow
