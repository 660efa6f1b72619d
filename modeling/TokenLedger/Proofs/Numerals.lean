import TokenLedger.Text.Scientific

/-!
Digits of natural numbers: how many there are, which comes first, where they end, and how they are
read back.
-/

set_option autoImplicit false

namespace TokenLedger.Text.Decimal

variable {n width : Nat}

/-- Only zero has a leading zero. -/
theorem head?_digits_eq_zero_iff : (digits n).head? = some '0' ↔ n = 0 := by
  induction n using Nat.strongRecOn with
  | ind n inductionHypothesis =>
      unfold digits at *
      by_cases small : n < 10
      · simp [Nat.toDigits_of_lt_base small]
      · have first : (Nat.toDigits 10 n).head? = (Nat.toDigits 10 (n / 10)).head? := by
          obtain ⟨c, rest, split⟩ := List.exists_cons_of_ne_nil (Nat.toDigits_ne_nil (n := n / 10))
          rw [Nat.toDigits_of_base_le (by decide) (Nat.not_lt.mp small), split]
          rfl
        rw [first, inductionHypothesis (n / 10) (by omega)]
        omega

theorem digits_eq_zero_iff : digits n = ['0'] ↔ n = 0 := by
  constructor
  · intro same
    exact head?_digits_eq_zero_iff.mp (by rw [same]; rfl)
  · rintro rfl
    exact Nat.toDigits_zero 10

theorem length_padded (positive : 0 < width) (fits : n < Nat.pow 10 width) :
    (padded width n).length = width := by
  have short := (Nat.length_toDigits_le_iff (by decide) positive).mpr fits
  simp only [padded, digits, List.length_leftpad]
  omega

theorem padded_ne_nil : padded width n ≠ [] := by
  simp [padded, List.leftpad, digits_ne_nil]

theorem isDigit_of_mem_padded {c : Char} (member : c ∈ padded width n) : c.isDigit = true := by
  rcases List.mem_append.mp member with zero | digit
  · rw [List.eq_of_mem_replicate zero]
    rfl
  · exact isDigit_of_mem_digits digit

@[simp] theorem value_padded : value (padded width n) = n := by
  simp only [value, padded, List.leftpad, Nat.ofDigitChars_append, Nat.ofDigitChars_replicate_zero]
  exact value_digits n

section Runs

/-- A run of digits ends before the text. -/
def EndsRun (rest : List Char) : Prop := ∀ c ∈ rest.head?, c.isDigit = false

@[simp] theorem endsRun_cons {c : Char} {cs : List Char} :
    EndsRun (c :: cs) ↔ c.isDigit = false := by
  simp [EndsRun]

variable {ds rest : List Char} (digits : ∀ c ∈ ds, c.isDigit = true) (ends : EndsRun rest)

include digits ends

theorem takeWhile_run : (ds ++ rest).takeWhile Char.isDigit = ds := by
  rw [List.takeWhile_append_of_pos digits]
  cases rest with
  | nil => simp
  | cons c cs => simp [ends c rfl]

theorem dropWhile_run : (ds ++ rest).dropWhile Char.isDigit = rest := by
  rw [List.dropWhile_append_of_pos digits]
  cases rest with
  | nil => rfl
  | cons c cs => simp [ends c rfl]

end Runs

/-- Zeros at the end multiply by powers of ten. -/
theorem value_append_zeros (ds : List Char) (count : Nat) :
    value (ds ++ List.replicate count '0') = Nat.pow 10 count * value ds := by
  simp only [value, Nat.ofDigitChars_append]
  exact Nat.ofDigitChars_replicate_zero

end TokenLedger.Text.Decimal
