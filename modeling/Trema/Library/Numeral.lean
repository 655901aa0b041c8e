import Mathlib.Algebra.Order.Ring.Int
import Mathlib.Data.List.Basic
import Mathlib.Data.List.Induction
import Mathlib.Data.List.TakeWhile

namespace Trema.Library.Numeral

def digitValue (c : Char) : Nat :=
  if c.isDigit then c.toNat - 48
  else if c.isLower then c.toNat - 87
  else if c.isUpper then c.toNat - 55
  else 36

def isSpace (c : Char) : Bool := c = ' ' || 9 ≤ c.toNat && c.toNat ≤ 13

def valueOf (base : Nat) (digits : List Char) : Nat :=
  digits.foldl (fun n c => base * n + digitValue c) 0

-- The digits at the front, and what stands behind them.
def number (base : Nat) (s : List Char) : Option (Nat × List Char) :=
  let digits := s.takeWhile (digitValue · < base)
  if digits = [] then none else some (valueOf base digits,s.drop digits.length)

-- Base 0: the base is told by what the number begins with.
def magnitude (s : List Char) : Option (Nat × List Char) :=
  match s with
  | '0' :: x :: rest =>
    if x = 'x' ∨ x = 'X' then some ((number 16 rest).getD (0,x :: rest)) else number 8 s
  | ['0'] => number 8 s
  | _ => number 10 s

def longMin : Int := -9223372036854775808
def longMax : Int := 9223372036854775807

-- strtol( s, &endp, 0 ), with the text at `endp`
def strtol (s : List Char) : Int × List Char :=
  let t := s.dropWhile isSpace
  let signed : Int × List Char := match t with
    | '-' :: u => (-1,u)
    | '+' :: u => (1,u)
    | _ => (1,t)
  match magnitude signed.2 with
  | none => (0,s)
  | some (n,rest) => (max longMin (min longMax (signed.1 * n)),rest)

section Decimal

variable {c : Char} {ds : List Char}

theorem digitValue_of_isDigit (h : c.isDigit = true) : digitValue c = c.toNat - 48 := if_pos h

theorem toNat_of_isDigit (h : c.isDigit = true) : 48 ≤ c.toNat ∧ c.toNat ≤ 57 := by
  simp only [Char.isDigit,Bool.and_eq_true,decide_eq_true_eq,UInt32.le_iff_toNat_le] at h
  exact h

theorem digitValue_lt (h : c.isDigit = true) : digitValue c < 10 := by
  have hrange := toNat_of_isDigit h
  rw [digitValue_of_isDigit h]
  omega

theorem valueOf_concat (base : Nat) (ds : List Char) (c : Char) :
    valueOf base (ds ++ [c]) = base * valueOf base ds + digitValue c := by
  rw [valueOf,List.foldl_append]
  rfl

theorem valueOf_lt (h : ∀ c ∈ ds, c.isDigit = true) : valueOf 10 ds < 10 ^ ds.length := by
  induction ds using List.reverseRecOn with
  | nil => exact Nat.one_pos
  | append_singleton ds c ih =>
    have hfront := ih fun d hd => h d (List.mem_append_left _ hd)
    have hlast := digitValue_lt (h c (by simp))
    rw [valueOf_concat,List.length_append,List.length_singleton,Nat.pow_succ]
    omega

theorem valueOf_toDigits (n : Nat) : valueOf 10 (Nat.toDigits 10 n) = n := by
  have hdigit : ∀ c ∈ Nat.toDigits 10 n, c.isDigit = true :=
    fun c hc => Nat.isDigit_of_mem_toDigits (by decide) (by decide) hc
  have hvalue : valueOf 10 (Nat.toDigits 10 n) = Nat.ofDigitChars 10 (Nat.toDigits 10 n) 0 :=
    List.foldl_ext _ _ 0 fun m c hc => by
      rw [digitValue_of_isDigit (hdigit c hc)]
      rfl
  rw [hvalue,Nat.ofDigitChars_ten_toDigits]

theorem toDigits_head {n : Nat} (h : 0 < n) : (Nat.toDigits 10 n).head? ≠ some '0' := by
  induction n using Nat.strongRecOn with
  | ind n ih =>
    rw [Nat.toDigits_eq_if (by decide)]
    split
    · simpa using (Nat.ne_of_gt h)
    · have hsmall := ih (n / 10) (by omega) (by omega)
      cases hfront : Nat.toDigits 10 (n / 10) with
      | nil => exact absurd hfront Nat.toDigits_ne_nil
      | cons c front =>
        rw [hfront] at hsmall
        exact hsmall

theorem number_decimal (h : ∀ c ∈ ds, c.isDigit = true) (hne : ds ≠ []) :
    number 10 ds = some (valueOf 10 ds,[]) := by
  have hall : ds.takeWhile (digitValue · < 10) = ds :=
    List.takeWhile_eq_self_iff.mpr fun c hc => decide_eq_true (digitValue_lt (h c hc))
  rw [number,hall,if_neg hne,List.drop_length]

-- A number written in the usual way is read back whole.
theorem strtol_decimal (h : ∀ c ∈ ds, c.isDigit = true) (hne : ds ≠ []) (hhead : ds.head? ≠ some '0')
    (hsize : (valueOf 10 ds : Int) ≤ longMax) : strtol ds = ((valueOf 10 ds : Int),[]) := by
  cases ds with
  | nil => exact absurd rfl hne
  | cons c ds =>
    have hc := toNat_of_isDigit (h c List.mem_cons_self)
    have hnotspace : isSpace c = false := by
      have hblank : c ≠ ' ' := by
        rintro rfl
        revert hc
        decide
      simp [isSpace,hblank]
      omega
    have hzero : c ≠ '0' := by
      rintro rfl
      exact hhead rfl
    have hminus : c ≠ '-' := by
      rintro rfl
      revert hc
      decide
    have hplus : c ≠ '+' := by
      rintro rfl
      revert hc
      decide
    have hmagnitude : magnitude (c :: ds) = number 10 (c :: ds) := by
      unfold magnitude
      split
      · rename_i heq
        exact absurd (List.cons.inj heq).1 hzero
      · rename_i heq
        exact absurd (List.cons.inj heq).1 hzero
      · rfl
    have hsigned : (match c :: ds with
        | '-' :: u => ((-1,u) : Int × List Char)
        | '+' :: u => (1,u)
        | _ => (1,c :: ds)) = (1,c :: ds) := by
      split
      · rename_i heq
        exact absurd (List.cons.inj heq).1 hminus
      · rename_i heq
        exact absurd (List.cons.inj heq).1 hplus
      · rfl
    have hlow : longMin ≤ (valueOf 10 (c :: ds) : Int) := by
      unfold longMin
      omega
    have hskip : (c :: ds).dropWhile isSpace = c :: ds :=
      List.dropWhile_cons_of_neg (by rw [hnotspace]; decide)
    unfold strtol
    simp only [hskip,hsigned,hmagnitude,number_decimal h hne,one_mul,min_eq_right hsize,max_eq_right hlow]

end Decimal

end Trema.Library.Numeral
