/-!
Dates of the proleptic Gregorian calendar, years before 1 counted as 0, -1 and so on.
-/

set_option autoImplicit false

namespace TokenLedger

def isLeapYear (year : Int) : Bool := year % 4 = 0 && (year % 100 ≠ 0 || year % 400 = 0)

def daysInMonth (year : Int) : Nat → Nat
  | 2 => if isLeapYear year then 29 else 28
  | 4 | 6 | 9 | 11 => 30
  | _ => 31

/-- The years that the calendar covers. -/
def firstYear : Int := -262143

def lastYear : Int := 262142

/-- The day exists in a year that the calendar covers. -/
def IsDate (year : Int) (month day : Nat) : Prop :=
  (firstYear ≤ year ∧ year ≤ lastYear) ∧ (1 ≤ month ∧ month ≤ 12) ∧
    1 ≤ day ∧ day ≤ daysInMonth year month

instance (year : Int) (month day : Nat) : Decidable (IsDate year month day) :=
  inferInstanceAs (Decidable ((firstYear ≤ year ∧ year ≤ lastYear) ∧ (1 ≤ month ∧ month ≤ 12) ∧
    1 ≤ day ∧ day ≤ daysInMonth year month))

structure Date where
  year : Int
  month : Nat
  day : Nat
  valid : IsDate year month day
  deriving DecidableEq, Repr

namespace Date

def of? (year : Int) (month day : Nat) : Option Date :=
  if valid : IsDate year month day then some ⟨year, month, day, valid⟩ else none

/-- The following day, unless the calendar ends. -/
def next? (date : Date) : Option Date :=
  of? date.year date.month (date.day + 1) <|> of? date.year (date.month + 1) 1 <|>
    of? (date.year + 1) 1 1

/-- The day before, unless the calendar begins. -/
def previous? (date : Date) : Option Date :=
  of? date.year date.month (date.day - 1) <|>
    of? date.year (date.month - 1) (daysInMonth date.year (date.month - 1)) <|>
    of? (date.year - 1) 12 31

@[simp] theorem of?_self (date : Date) : of? date.year date.month date.day = some date := by
  simp [of?, date.valid]

end Date

end TokenLedger
