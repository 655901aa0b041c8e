import Mathlib.Data.Nat.Bitwise
import Mathlib.Logic.Function.Iterate
import Mathlib.Tactic.Common

namespace Trema.OpenFlow

-- The next number of a block of 2 ^ k numbers, and then its first one again.
def advance (k x : Nat) : Nat := if x % 2 ^ k = 2 ^ k - 1 then x / 2 ^ k * 2 ^ k else x + 1

section Blocks

variable {j k b x : Nat}

theorem advance_block (hx : x < 2 ^ k) : advance k (b * 2 ^ k + x) = b * 2 ^ k + (x + 1) % 2 ^ k := by
  have hmod : (b * 2 ^ k + x) % 2 ^ k = x := by rw [Nat.mul_add_mod_self_right,Nat.mod_eq_of_lt hx]
  have hdiv : (b * 2 ^ k + x) / 2 ^ k = b := by
    rw [Nat.add_comm,Nat.add_mul_div_right _ _ (by omega),Nat.div_eq_of_lt hx,Nat.zero_add]
  rw [advance,hmod,hdiv]
  split
  · rename_i hlast
    rw [show x + 1 = 2 ^ k by omega,Nat.mod_self,Nat.add_zero]
  · rw [Nat.mod_eq_of_lt (by omega),Nat.add_assoc]

theorem iterate_advance (n : Nat) : (advance k)^[n] (b * 2 ^ k) = b * 2 ^ k + n % 2 ^ k := by
  induction n with
  | zero => rw [Nat.zero_mod]; rfl
  | succ n ih => rw [Function.iterate_succ_apply',ih,advance_block (Nat.mod_lt _ (Nat.two_pow_pos k)),Nat.mod_add_mod]

theorem and_high (hx : x < 2 ^ (j + k)) : x &&& ((2 ^ j - 1) <<< k) = x / 2 ^ k * 2 ^ k := by
  refine Nat.eq_of_testBit_eq fun i => ?_
  rw [Nat.testBit_and,Nat.testBit_shiftLeft,Nat.testBit_two_pow_sub_one,← Nat.shiftRight_eq_div_pow,
    ← Nat.shiftLeft_eq,Nat.testBit_shiftLeft,Nat.testBit_shiftRight]
  by_cases hi : k ≤ i
  · rw [Nat.add_sub_cancel' hi]
    by_cases hj : i - k < j
    · simp [hi,hj]
    · have hout : x.testBit i = false :=
        Nat.testBit_lt_two_pow (hx.trans_le (Nat.pow_le_pow_right (by omega) (by omega)))
      simp [hout]
  · simp [hi]

end Blocks

def initTransactionId (pid : UInt32) : UInt32 := pid <<< 16

def getTransactionId (transactionId : UInt32) : UInt32 :=
  if transactionId &&& 0xffff = 0xffff then transactionId &&& 0xffff0000 else transactionId + 1

def initCookie (pid : UInt32) : UInt64 := pid.toUInt64 <<< 48

def getCookie (cookie : UInt64) : UInt64 :=
  if cookie &&& 0x0000ffffffffffff = 0x0000ffffffffffff then cookie &&& 0xffff000000000000 else cookie + 1

theorem toNat_getTransactionId (x : UInt32) : (getTransactionId x).toNat = advance 16 x.toNat := by
  have hlow : (x &&& 0xffff).toNat = x.toNat % 2 ^ 16 := by
    rw [UInt32.toNat_and]
    exact Nat.and_two_pow_sub_one_eq_mod _ 16
  have hhigh : (x &&& 0xffff0000).toNat = x.toNat / 2 ^ 16 * 2 ^ 16 := by
    rw [UInt32.toNat_and]
    exact and_high (j := 16) (k := 16) x.toNat_lt
  have hlast : x &&& 0xffff = 0xffff ↔ x.toNat % 2 ^ 16 = 2 ^ 16 - 1 := by
    rw [← UInt32.toNat_inj,hlow]
    rfl
  rw [getTransactionId,advance]
  split
  · rename_i h
    rw [if_pos (hlast.mp h),hhigh]
  · rename_i h
    have hne := hlast.not.mp h
    have hlt := x.toNat_lt
    rw [if_neg hne,UInt32.toNat_add]
    exact Nat.mod_eq_of_lt (by simp only [UInt32.toNat_ofNat]; omega)

theorem toNat_getCookie (x : UInt64) : (getCookie x).toNat = advance 48 x.toNat := by
  have hlow : (x &&& 0x0000ffffffffffff).toNat = x.toNat % 2 ^ 48 := by
    rw [UInt64.toNat_and]
    exact Nat.and_two_pow_sub_one_eq_mod _ 48
  have hhigh : (x &&& 0xffff000000000000).toNat = x.toNat / 2 ^ 48 * 2 ^ 48 := by
    rw [UInt64.toNat_and]
    exact and_high (j := 16) (k := 48) x.toNat_lt
  have hlast : x &&& 0x0000ffffffffffff = 0x0000ffffffffffff ↔ x.toNat % 2 ^ 48 = 2 ^ 48 - 1 := by
    rw [← UInt64.toNat_inj,hlow]
    rfl
  rw [getCookie,advance]
  split
  · rename_i h
    rw [if_pos (hlast.mp h),hhigh]
  · rename_i h
    have hne := hlast.not.mp h
    have hlt := x.toNat_lt
    rw [if_neg hne,UInt64.toNat_add]
    exact Nat.mod_eq_of_lt (by simp only [UInt64.toNat_ofNat]; omega)

-- The n-th identifier that a process takes.
theorem transactionId_taken (pid : UInt32) (n : Nat) :
    (getTransactionId^[n] (initTransactionId pid)).toNat = pid.toNat % 2 ^ 16 * 2 ^ 16 + n % 2 ^ 16 := by
  have hinit : (initTransactionId pid).toNat = pid.toNat % 2 ^ 16 * 2 ^ 16 := by
    rw [initTransactionId,UInt32.toNat_shiftLeft,Nat.shiftLeft_eq]
    have hshift : (16 : UInt32).toNat % 32 = 16 := rfl
    rw [hshift]
    omega
  have hsemi : Function.Semiconj UInt32.toNat getTransactionId (advance 16) := toNat_getTransactionId
  rw [(hsemi.iterate_right n).eq,hinit,iterate_advance]

theorem cookie_taken (pid : UInt32) (n : Nat) :
    (getCookie^[n] (initCookie pid)).toNat = pid.toNat % 2 ^ 16 * 2 ^ 48 + n % 2 ^ 48 := by
  have hinit : (initCookie pid).toNat = pid.toNat % 2 ^ 16 * 2 ^ 48 := by
    rw [initCookie,UInt64.toNat_shiftLeft,Nat.shiftLeft_eq,UInt32.toNat_toUInt64]
    have hshift : (48 : UInt64).toNat % 64 = 48 := rfl
    rw [hshift]
    omega
  have hsemi : Function.Semiconj UInt64.toNat getCookie (advance 48) := toNat_getCookie
  rw [(hsemi.iterate_right n).eq,hinit,iterate_advance]

-- The n-th identifiers of a process lie in its block, and two identifiers are the same only in processes
-- whose ids agree in 16 bits, a whole number of blocks apart.
theorem identifiers_repeat_iff (pid pid' : UInt32) (n n' : Nat) :
    (getTransactionId^[n] (initTransactionId pid)).toNat = pid.toNat % 2 ^ 16 * 2 ^ 16 + n % 2 ^ 16 ∧
    (getCookie^[n] (initCookie pid)).toNat = pid.toNat % 2 ^ 16 * 2 ^ 48 + n % 2 ^ 48 ∧
    (getTransactionId^[n] (initTransactionId pid) = getTransactionId^[n'] (initTransactionId pid') ↔
      pid.toNat % 2 ^ 16 = pid'.toNat % 2 ^ 16 ∧ n % 2 ^ 16 = n' % 2 ^ 16) ∧
    (getCookie^[n] (initCookie pid) = getCookie^[n'] (initCookie pid') ↔
      pid.toNat % 2 ^ 16 = pid'.toNat % 2 ^ 16 ∧ n % 2 ^ 48 = n' % 2 ^ 48) := by
  refine ⟨transactionId_taken pid n,cookie_taken pid n,?_⟩
  rw [← UInt32.toNat_inj,← UInt64.toNat_inj,transactionId_taken,transactionId_taken,cookie_taken,cookie_taken]
  omega

end Trema.OpenFlow
