import Trema.Library.Fuel

namespace Trema.Timer

open Library

-- A signed sum that leaves time_t is undefined; `misplaced` is a call that the code does not make where it is.
inductive Fault where
  | overflow
  | misplaced
deriving DecidableEq, Repr

def timeMin : Int := -9223372036854775808
def timeMax : Int := 9223372036854775807

structure Timespec where
  tvSec : Int
  tvNsec : Int
  fits : timeMin ≤ tvSec ∧ tvSec ≤ timeMax
  normal : 0 ≤ tvNsec ∧ tvNsec < 1000000000
deriving DecidableEq, Repr

def seconds (sec : Int) (h : timeMin ≤ sec ∧ sec ≤ timeMax) : Timespec := ⟨sec,0,h,by decide⟩

def zero : Timespec := seconds 0 (by decide)

theorem two_representable : timeMin ≤ 2 ∧ 2 ≤ timeMax := by decide

theorem three_representable : timeMin ≤ 3 ∧ 3 ≤ timeMax := by decide

theorem four_representable : timeMin ≤ 4 ∧ 4 ≤ timeMax := by decide

section Macros

variable (a b : Timespec)

def timespec (sec nsec : Int) (h : 0 ≤ nsec ∧ nsec < 1000000000) : Run Fault Timespec :=
  if hsec : timeMin ≤ sec ∧ sec ≤ timeMax then .ok ⟨sec,nsec,hsec,h⟩ else .error (.rejected .overflow)

def validTimespec : Bool := 0 < a.tvSec || 0 < a.tvNsec

def addTimespec : Run Fault Timespec :=
  if h : 1000000000 ≤ a.tvNsec + b.tvNsec then
    timespec (a.tvSec + b.tvSec + 1) (a.tvNsec + b.tvNsec - 1000000000)
      ⟨by omega,by have ha := a.normal; have hb := b.normal; omega⟩
  else
    timespec (a.tvSec + b.tvSec) (a.tvNsec + b.tvNsec)
      ⟨by have ha := a.normal; have hb := b.normal; omega,by omega⟩

def subTimespec : Run Fault Timespec :=
  if h : a.tvNsec - b.tvNsec < 0 then
    timespec (a.tvSec - b.tvSec - 1) (a.tvNsec - b.tvNsec + 1000000000)
      ⟨by have ha := a.normal; have hb := b.normal; omega,by omega⟩
  else
    timespec (a.tvSec - b.tvSec) (a.tvNsec - b.tvNsec)
      ⟨by omega,by have ha := a.normal; have hb := b.normal; omega⟩

def timespecLessThen : Bool :=
  if a.tvSec = b.tvSec then a.tvNsec < b.tvNsec else a.tvSec < b.tvSec

def round : Timespec := ⟨0,999,by decide,by decide⟩

def timespecToMicroseconds : Run Fault Int := do
  let rounded ← addTimespec a round
  pure (Int32.ofInt (rounded.tvSec * 1000000 + rounded.tvNsec / 1000)).toInt

-- A time in nanoseconds.
def nanos : Int := a.tvSec * 1000000000 + a.tvNsec

end Macros

section Laws

variable {a b c : Timespec}

theorem timespec_nanos {sec nsec : Int} {h : 0 ≤ nsec ∧ nsec < 1000000000} (hc : timespec sec nsec h = .ok c) :
    nanos c = sec * 1000000000 + nsec := by
  unfold timespec at hc
  split at hc
  · obtain rfl := Except.ok.inj hc
    rfl
  · cases hc

theorem timespec_outcome (sec nsec : Int) (h : 0 ≤ nsec ∧ nsec < 1000000000) :
    (∃ c, timespec sec nsec h = .ok c) ∨ timespec sec nsec h = .error (.rejected .overflow) := by
  unfold timespec
  split
  · exact .inl ⟨_,rfl⟩
  · exact .inr rfl

theorem nanos_zero : nanos zero = 0 := rfl

theorem lessThen_iff : timespecLessThen a b = true ↔ nanos a < nanos b := by
  have ha := a.normal
  have hb := b.normal
  unfold timespecLessThen nanos
  split <;> simp only [decide_eq_true_eq] <;> omega

theorem not_lessThen_iff : timespecLessThen a b = false ↔ nanos b ≤ nanos a := by
  rw [← Bool.not_eq_true,lessThen_iff,Int.not_lt]

theorem valid_iff (h : 0 ≤ a.tvSec) : validTimespec a = true ↔ 0 < nanos a := by
  have ha := a.normal
  unfold validTimespec nanos
  rw [Bool.or_eq_true,decide_eq_true_eq,decide_eq_true_eq]
  omega

theorem nanos_nonneg (h : 0 ≤ a.tvSec) : 0 ≤ nanos a := by
  have ha := a.normal
  unfold nanos
  omega

theorem tvSec_nonneg (h : 0 ≤ nanos a) : 0 ≤ a.tvSec := by
  have ha := a.normal
  unfold nanos at h
  omega

theorem add_nanos (h : addTimespec a b = .ok c) : nanos c = nanos a + nanos b := by
  unfold addTimespec at h
  split at h
  · rw [timespec_nanos h]
    unfold nanos
    omega
  · rw [timespec_nanos h]
    unfold nanos
    omega

theorem add_outcome (a b : Timespec) :
    (∃ c, addTimespec a b = .ok c) ∨ addTimespec a b = .error (.rejected .overflow) := by
  unfold addTimespec
  split
  · exact timespec_outcome _ _ _
  · exact timespec_outcome _ _ _

-- A difference of times that are not negative stays in time_t.
theorem sub_nanos (hb : 0 ≤ nanos b) (hle : nanos b ≤ nanos a) :
    ∃ c, subTimespec a b = .ok c ∧ nanos c = nanos a - nanos b := by
  have ha := a.normal
  have hb' := b.normal
  have hfits := a.fits
  have hsec := tvSec_nonneg hb
  unfold timeMin timeMax at hfits
  unfold nanos at hle
  unfold subTimespec timespec timeMin timeMax
  split
  · rw [dif_pos (by omega)]
    refine ⟨_,rfl,?_⟩
    unfold nanos
    simp only
    omega
  · rw [dif_pos (by omega)]
    refine ⟨_,rfl,?_⟩
    unfold nanos
    simp only
    omega

-- Rounded up, and no int overflow below the cap.
theorem microseconds_ok (h : 0 ≤ nanos a) (hcap : nanos a ≤ 2147000000000) :
    timespecToMicroseconds a = .ok ((nanos a + 999) / 1000) := by
  have ha := a.normal
  have hsec := tvSec_nonneg h
  have hround : nanos round = 999 := rfl
  have hok : ∃ c, addTimespec a round = .ok c := by
    unfold nanos at hcap
    unfold addTimespec timespec timeMin timeMax round
    split
    · rw [dif_pos (by simp only; omega)]
      exact ⟨_,rfl⟩
    · rw [dif_pos (by simp only; omega)]
      exact ⟨_,rfl⟩
  obtain ⟨c,hc⟩ := hok
  have hsum := add_nanos hc
  have hnormal := c.normal
  rw [hround] at hsum
  have hvalue : c.tvSec * 1000000 + c.tvNsec / 1000 = (nanos a + 999) / 1000 := by
    rw [← hsum]
    unfold nanos
    omega
  unfold timespecToMicroseconds
  rw [hc,ok_bind,hvalue,Int32.toInt_ofInt_of_le (by omega) (by omega)]
  rfl

end Laws

end Trema.Timer
