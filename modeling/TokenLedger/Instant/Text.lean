import TokenLedger.Instant
import TokenLedger.Text.Blank
import TokenLedger.Text.Decimal

/-!
The text of an instant, after RFC 3339.

Instants are written in universal time with as few digits of the second as lose
nothing, in groups of three. Reading is more liberal: fields may be short or have
blanks in front, years may carry a sign, and any offset below a day is taken off.
-/

set_option autoImplicit false

namespace TokenLedger.Instant

open Text

/-- Years of more or fewer than four digits carry a sign. -/
def writeYear (year : Int) : List Char :=
  if 0 ≤ year ∧ year ≤ 9999 then Decimal.padded 4 year.toNat
  else (if year < 0 then '-' else '+') :: Decimal.padded 4 year.natAbs

/-- Milli-, micro- or nanoseconds, whichever are the fewest digits that lose nothing. -/
def writeFraction (nanosecond : Nat) : List Char :=
  if nanosecond = 0 then []
  else if nanosecond % 1000000 = 0 then '.' :: Decimal.padded 3 (nanosecond / 1000000)
  else if nanosecond % 1000 = 0 then '.' :: Decimal.padded 6 (nanosecond / 1000)
  else '.' :: Decimal.padded 9 nanosecond

def write (t : Instant) : List Char :=
  writeYear t.date.year ++ '-' :: Decimal.padded 2 t.date.month ++
    '-' :: Decimal.padded 2 t.date.day ++ 'T' :: Decimal.padded 2 t.hour ++
    ':' :: Decimal.padded 2 t.minute ++ ':' :: Decimal.padded 2 t.second ++
    writeFraction t.nanosecond ++ ['Z']

instance : ToString Instant := ⟨fun t => String.ofList t.write⟩

/-- One to so many digits and what follows them. -/
def readDigits (most : Nat) (cs : List Char) : Option (Nat × List Char) :=
  let ds := (cs.takeWhile Char.isDigit).take most
  if ds.isEmpty then none else some (Decimal.value ds, cs.drop ds.length)

/-- A field of at most so many digits, after any blanks. -/
def readField (most : Nat) (cs : List Char) : Option (Nat × List Char) :=
  readDigits most (skipBlanks cs)

/-- What follows a mark, after any blanks. -/
def readMark (mark : Char) (cs : List Char) : Option (List Char) :=
  match skipBlanks cs with
  | c :: rest => if c = mark then some rest else none
  | [] => none

/-- A year has up to four digits, or a sign and any number of them. -/
def readYear (cs : List Char) : Option (Int × List Char) :=
  match skipBlanks cs with
  | '-' :: rest => (readDigits rest.length rest).map fun (n, rest) => (-(n : Int), rest)
  | '+' :: rest => (readDigits rest.length rest).map fun (n, rest) => ((n : Int), rest)
  | rest => (readDigits 4 rest).map fun (n, rest) => ((n : Int), rest)

def readDate (cs : List Char) : Option (Date × List Char) := do
  let (year, cs) ← readYear cs
  let cs ← readMark '-' cs
  let (month, cs) ← readField 2 cs
  let cs ← readMark '-' cs
  let (day, cs) ← readField 2 cs
  let date ← Date.of? year month day
  return (date, cs)

/-- Digits after a point count as nanoseconds; those past the ninth are dropped. -/
def readFraction : List Char → Option (Nat × List Char)
  | '.' :: rest =>
      let ds := rest.takeWhile Char.isDigit
      if ds.isEmpty then none
      else some (Decimal.value ((ds.take 9).rightpad 9 '0'), rest.dropWhile Char.isDigit)
  | rest => some (0, rest)

/-- Hours and minutes after a sign; colons and blanks between them are skipped. -/
def readDistance : List Char → Option (Nat × List Char)
  | h₁ :: h₂ :: rest =>
      match rest.dropWhile fun c => c = ':' || isBlank c with
      | m₁ :: m₂ :: rest =>
          if [h₁, h₂, m₁, m₂].all Char.isDigit && m₁ ≤ '5' then
            let minutes := Decimal.value [h₁, h₂] * 60 + Decimal.value [m₁, m₂]
            if minutes < 1440 then some (minutes, rest) else none
          else none
      | _ => none
  | _ => none

/-- The minutes by which the local time is ahead. -/
def readOffset (cs : List Char) : Option (Int × List Char) :=
  match skipBlanks cs with
  | 'Z' :: rest | 'z' :: rest => some (0, rest)
  | '+' :: rest => (readDistance rest).map fun (n, rest) => ((n : Int), rest)
  | '-' :: rest | '\u2212' :: rest => (readDistance rest).map fun (n, rest) => (-(n : Int), rest)
  | u :: t :: c :: rest =>
      if [u.toUpper, t.toUpper, c.toUpper] = ['U', 'T', 'C'] then some (0, rest) else none
  | _ => none

/-- A date, a `T` or a blank, a time of day and an offset. -/
def read? (cs : List Char) : Option Instant := do
  let (date, cs) ← readDate cs
  let cs ← match cs with
    | 'T' :: rest | 't' :: rest | ' ' :: rest => some rest
    | _ => none
  let (hour, cs) ← readField 2 cs
  let cs ← readMark ':' cs
  let (minute, cs) ← readField 2 cs
  let cs ← readMark ':' cs
  let (second, cs) ← readField 2 cs
  let (nanosecond, cs) ← readFraction cs
  let (offset, cs) ← readOffset cs
  if skipBlanks cs ≠ [] then none
  (← of? date hour minute second nanosecond).minutesEarlier? offset

def ofString? (text : String) : Option Instant := read? text.toList

end TokenLedger.Instant
