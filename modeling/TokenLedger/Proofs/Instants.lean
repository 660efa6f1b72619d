import TokenLedger.Instant.Text
import TokenLedger.Proofs.Numerals

/-!
The text of an instant is read as the instant.

Every field is written with a fixed number of digits, years of more than four digits apart, and a
character that is no digit follows it. So each reader stops where its field ends.
-/

set_option autoImplicit false

namespace TokenLedger.Instant

open Text Text.Decimal

section Fields

variable {ds rest : List Char} {c : Char} {n width : Nat}

theorem isBlank_of_isDigit (digit : c.isDigit = true) : isBlank c = false := by
  have low : 48 ≤ c.toNat := (Char.isDigit_iff_toNat.mp digit).1
  have high : c.toNat ≤ 57 := (Char.isDigit_iff_toNat.mp digit).2
  simp [isBlank, whiteSpaceRanges]
  omega

theorem skipBlanks_cons (visible : isBlank c = false) : skipBlanks (c :: rest) = c :: rest := by
  simp [skipBlanks, visible]

theorem skipBlanks_run (digits : ∀ c ∈ ds, c.isDigit = true) (nonempty : ds ≠ []) :
    skipBlanks (ds ++ rest) = ds ++ rest := by
  obtain ⟨c, cs, rfl⟩ := List.exists_cons_of_ne_nil nonempty
  exact skipBlanks_cons (isBlank_of_isDigit (digits c List.mem_cons_self))

theorem readDigits_run {most : Nat} (digits : ∀ c ∈ ds, c.isDigit = true) (nonempty : ds ≠ [])
    (short : ds.length ≤ most) (ends : EndsRun rest) :
    readDigits most (ds ++ rest) = some (value ds, rest) := by
  simp [readDigits, takeWhile_run digits ends, List.take_of_length_le short, nonempty]

/-- A field of two digits is read up to the character that follows it. -/
theorem readField_padded (fits : n < 100) (ends : EndsRun rest) :
    readField 2 (padded 2 n ++ rest) = some (n, rest) := by
  have digits : ∀ c ∈ padded 2 n, c.isDigit = true := fun _ => isDigit_of_mem_padded
  have length : (padded 2 n).length = 2 := length_padded (by decide) fits
  rw [readField, skipBlanks_run digits padded_ne_nil,
    readDigits_run digits padded_ne_nil (Nat.le_of_eq length) ends, value_padded]

theorem readMark_cons (visible : isBlank c = false) : readMark c (c :: rest) = some rest := by
  simp [readMark, skipBlanks_cons visible]

end Fields

section Years

variable {rest : List Char}

theorem readYear_unsigned {c : Char} (digit : c.isDigit = true) :
    readYear (c :: rest) = (readDigits 4 (c :: rest)).map fun (n, rest) => ((n : Int), rest) := by
  rw [readYear, skipBlanks_cons (isBlank_of_isDigit digit)]
  split
  next same =>
    rw [(List.cons.inj same).1] at digit
    exact absurd digit (by decide)
  next same =>
    rw [(List.cons.inj same).1] at digit
    exact absurd digit (by decide)
  next => rfl

theorem readYear_signed (c : Char) (sign : c = '-' ∨ c = '+') :
    readYear (c :: rest) = (readDigits rest.length rest).map fun (n, rest) =>
      (if c = '-' then -(n : Int) else n, rest) := by
  rcases sign with rfl | rfl <;> rfl

/-- The four digits of a usual year, and the sign and digits of any other, are read back. -/
theorem readYear_writeYear (year : Int) (ends : EndsRun rest) :
    readYear (writeYear year ++ rest) = some (year, rest) := by
  have read {n : Nat} (most : Nat) (short : (padded 4 n).length ≤ most) :
      readDigits most (padded 4 n ++ rest) = some (n, rest) := by
    rw [readDigits_run (fun _ => isDigit_of_mem_padded) padded_ne_nil short ends, value_padded]
  unfold writeYear
  split
  next usual =>
    have length : (padded 4 year.toNat).length = 4 :=
      length_padded (by decide) (by rw [show Nat.pow 10 4 = 10000 from rfl]; omega)
    have value : (year.toNat : Int) = year := Int.toNat_of_nonneg usual.1
    obtain ⟨c, cs, split⟩ := List.exists_cons_of_ne_nil (padded_ne_nil : padded 4 year.toNat ≠ [])
    have digit : c.isDigit = true := isDigit_of_mem_padded (by rw [split]; exact List.mem_cons_self)
    have digits := read 4 (Nat.le_of_eq length)
    rw [split, List.cons_append] at digits ⊢
    rw [readYear_unsigned digit, digits]
    simp [value]
  next unusual =>
    have digits := read (padded 4 year.natAbs ++ rest).length (n := year.natAbs) (by simp)
    rw [List.cons_append, readYear_signed _ (by split <;> simp), digits]
    by_cases negative : year < 0
    · have magnitude : -(year.natAbs : Int) = year := by omega
      simp only [if_pos negative, Option.map_some, if_true, magnitude]
    · have magnitude : (year.natAbs : Int) = year := by omega
      have plus : '+' ≠ '-' := by decide
      simp only [if_neg negative, Option.map_some, if_neg plus, magnitude]

end Years

section Fractions

variable {n nanosecond width : Nat}

theorem readFraction_padded (positive : 0 < width) (short : width ≤ 9)
    (fits : n < Nat.pow 10 width) (scaled : Nat.pow 10 (9 - width) * n = nanosecond) :
    readFraction ('.' :: padded width n ++ ['Z']) = some (nanosecond, ['Z']) := by
  have digits : ∀ c ∈ padded width n, c.isDigit = true := fun _ => isDigit_of_mem_padded
  have ends : EndsRun ['Z'] := by simp
  have length := length_padded positive fits
  simp [readFraction, takeWhile_run digits ends, dropWhile_run digits ends, padded_ne_nil,
    List.take_of_length_le (Nat.le_trans (Nat.le_of_eq length) short), List.rightpad,
    value_append_zeros, length, ← scaled]

theorem endsRun_writeFraction (nanosecond : Nat) :
    EndsRun (writeFraction nanosecond ++ ['Z']) := by
  unfold writeFraction
  split
  · simp
  · split
    · simp
    · split <;> simp

theorem readFraction_writeFraction (fits : nanosecond < 1000000000) :
    readFraction (writeFraction nanosecond ++ ['Z']) = some (nanosecond, ['Z']) := by
  unfold writeFraction
  split
  next zero =>
    rw [zero]
    rfl
  next =>
    split
    next milli =>
      have small : nanosecond / 1000000 < 1000 := by omega
      exact readFraction_padded (by decide) (by decide) small
        (Nat.mul_div_cancel' (Nat.dvd_of_mod_eq_zero milli))
    next =>
      split
      next micro =>
        have small : nanosecond / 1000 < 1000000 := by omega
        exact readFraction_padded (by decide) (by decide) small
          (Nat.mul_div_cancel' (Nat.dvd_of_mod_eq_zero micro))
      next => exact readFraction_padded (by decide) (by decide) fits (Nat.one_mul nanosecond)

end Fractions

theorem minutesEarlier?_zero (t : Instant) : t.minutesEarlier? 0 = some t := by
  have hour := t.hour.isLt
  have minute := t.minute.isLt
  have early : ¬ (t.hour.val * 60 + t.minute.val : Int) < 0 := by omega
  have late : ¬ 1440 ≤ (t.hour.val * 60 + t.minute.val : Int) := by omega
  have total : ((t.hour.val * 60 + t.minute.val : Int) % 1440).toNat =
      t.hour.val * 60 + t.minute.val := by
    omega
  have hours : (t.hour.val * 60 + t.minute.val) / 60 = t.hour.val := by omega
  have minutes : (t.hour.val * 60 + t.minute.val) % 60 = t.minute.val := by omega
  simp [minutesEarlier?, early, late, total, hours, minutes]

theorem daysInMonth_le (year : Int) (month : Nat) : daysInMonth year month ≤ 31 := by
  unfold daysInMonth
  split
  · split <;> decide
  all_goals decide

theorem readDate_write (date : Date) {rest : List Char} (ends : EndsRun rest) :
    readDate (writeYear date.year ++ '-' :: (padded 2 date.month ++
      '-' :: (padded 2 date.day ++ rest))) = some (date, rest) := by
  have valid := date.valid
  have month : date.month < 100 := Nat.lt_of_le_of_lt valid.2.1.2 (by decide)
  have day : date.day < 100 :=
    Nat.lt_of_le_of_lt (Nat.le_trans valid.2.2.2 (daysInMonth_le _ _)) (by decide)
  have mark : isBlank '-' = false := by decide
  simp [readDate, readYear_writeYear, readMark_cons mark, readField_padded month,
    readField_padded day ends]

/-- What is read in the text of an instant is the instant. -/
theorem ofString?_toString (t : Instant) : ofString? (toString t) = some t := by
  have hour : t.hour.val < 100 := Nat.lt_trans t.hour.isLt (by decide)
  have minute : t.minute.val < 100 := Nat.lt_trans t.minute.isLt (by decide)
  have second : t.second.val < 100 := Nat.lt_trans t.second.isLt (by decide)
  have mark : isBlank ':' = false := by decide
  have universal : readOffset ['Z'] = some (0, []) := rfl
  have finished : skipBlanks [] = [] := rfl
  have text : (toString t).toList = t.write := String.toList_ofList
  rw [ofString?, text]
  simp only [write, read?, List.append_assoc, List.cons_append, endsRun_cons, Char.reduceIsDigit,
    readDate_write, readField_padded hour, readField_padded minute,
    readField_padded second (endsRun_writeFraction _), readMark_cons mark,
    readFraction_writeFraction t.nanosecond.isLt, universal, finished, of?_self,
    Option.bind_eq_bind, Option.bind_some, ne_eq, not_true, if_false, minutesEarlier?_zero]

-- A leap second, to the millisecond, in a year of five digits.
example : toString (⟨⟨12018, 6, 30, by decide⟩, 23, 59, 60, 5000000⟩ : Instant) =
    "+12018-06-30T23:59:60.005Z" := by decide

end TokenLedger.Instant
