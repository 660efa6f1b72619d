import TokenLedger.Text.Decimal

/-!
Numbers in scientific notation, and which of them are small enough to have a value.

A number keeps the leading digits that fit 64 bits, times a power of ten. Both factors are rounded
to 53 bits, and so is their product.
-/

set_option autoImplicit false

namespace TokenLedger.Text

/-- A natural number times a power of ten. -/
structure Scientific where
  significand : Nat
  exponent : Int
  deriving DecidableEq, Repr

namespace Scientific

/-- The least number that 64 bits do not hold. -/
def capacity : Nat := 18446744073709551616

/-- A significand with the digits after it that still fit 64 bits, and the digits left over. -/
def extend (significand : Nat) : List Char → Nat × List Char
  | [] => (significand, [])
  | c :: cs =>
      let extended := Nat.ofDigitChars 10 [c] significand
      if extended < capacity then extend extended cs else (significand, c :: cs)

/-- A number from its digits before and after the point. Digits left over before the point count
as zeros, those after it do not count. -/
def ofDigits (whole decimals : List Char) (exponent : Int) : Scientific :=
  let (leading, dropped) := extend 0 whole
  let (significand, ignored) := extend leading decimals
  ⟨significand, exponent + dropped.length - (decimals.length - ignored.length)⟩

/-- The nearest number of so many significant bits, of two equally near ones the even one. -/
def roundTo (bits n : Nat) : Nat :=
  let unit := 1 <<< (n.log2 + 1 - bits)
  let quotient := n / unit
  let twice := 2 * (n % unit)
  if twice < unit || twice = unit && quotient % 2 = 0 then quotient * unit
  else (quotient + 1) * unit

/-- The least number that is too large. -/
def limit : Nat := 1 <<< 1024

/-- Whether the value is below the limit. Powers of ten with a higher exponent exceed it by
themselves, and a significand of 64 bits is far below it. -/
def isBounded (number : Scientific) : Bool :=
  number.significand = 0 || number.exponent < 0 ||
    number.exponent ≤ 308 &&
      roundTo 53
          (roundTo 53 number.significand * roundTo 53 (Nat.pow 10 number.exponent.toNat)) <
        limit

theorem le_ofDigitChars (digits : List Char) (n : Nat) : n ≤ Nat.ofDigitChars 10 digits n := by
  induction digits generalizing n with
  | nil => simp [Nat.ofDigitChars]
  | cons c cs ih =>
      rw [Nat.ofDigitChars_cons]
      exact Nat.le_trans (by omega) (ih _)

theorem extend_of_lt (digits : List Char) (n : Nat)
    (fits : Nat.ofDigitChars 10 digits n < capacity) :
    extend n digits = (Nat.ofDigitChars 10 digits n, []) := by
  induction digits generalizing n with
  | nil => rfl
  | cons c cs ih =>
      have split : Nat.ofDigitChars 10 (c :: cs) n
          = Nat.ofDigitChars 10 cs (Nat.ofDigitChars 10 [c] n) := rfl
      rw [split] at fits ⊢
      have small := Nat.lt_of_le_of_lt (le_ofDigitChars cs _) fits
      simp only [extend, small, if_true, ih _ fits]

/-- An integer of 64 bits is kept as it is. -/
theorem ofDigits_digits {n : Nat} (fits : n < capacity) :
    ofDigits (Decimal.digits n) [] 0 = ⟨n, 0⟩ := by
  have value : Nat.ofDigitChars 10 (Decimal.digits n) 0 = n := Decimal.value_digits n
  have read := extend_of_lt (Decimal.digits n) 0 (by rw [value]; exact fits)
  simp [ofDigits, read, extend, value]

/-- Rounding at most doubles a number. -/
theorem roundTo_le (bits n : Nat) (positive : 0 < bits) : roundTo bits n ≤ 2 * n := by
  by_cases zero : n = 0
  · simp [zero, roundTo]
  · have unit_le : 1 <<< (n.log2 + 1 - bits) ≤ n := by
      rw [Nat.one_shiftLeft]
      exact Nat.le_trans (Nat.pow_le_pow_right (by decide) (by omega)) (Nat.log2_self_le zero)
    have quotient_le := Nat.div_mul_le_self n (1 <<< (n.log2 + 1 - bits))
    simp only [roundTo]
    split
    · omega
    · rw [Nat.succ_mul]; omega

theorem isBounded_of_lt {n : Nat} (fits : n < capacity) : isBounded ⟨n, 0⟩ = true := by
  have factor := roundTo_le 53 n (by decide)
  have product := roundTo_le 53 (roundTo 53 n) (by decide)
  have one : roundTo 53 1 = 1 := by decide
  have large : 4 * capacity ≤ limit := by decide +kernel
  have below : roundTo 53 (roundTo 53 n) < limit := by omega
  simp [isBounded, one, below]

end Scientific

end TokenLedger.Text
