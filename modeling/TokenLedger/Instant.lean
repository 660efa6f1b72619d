import TokenLedger.Date

/-!
Points in time, to the nanosecond and in universal time.
-/

set_option autoImplicit false

namespace TokenLedger

/-- A point in time. The second may be 60, which is a leap second at the end of its minute. -/
structure Instant where
  date : Date
  hour : Fin 24
  minute : Fin 60
  second : Fin 61
  nanosecond : Fin 1000000000
  deriving DecidableEq, Repr

namespace Instant

def of? (date : Date) (hour minute second nanosecond : Nat) : Option Instant :=
  if h : hour < 24 ∧ minute < 60 ∧ second < 61 ∧ nanosecond < 1000000000 then
    some ⟨date, ⟨hour, h.1⟩, ⟨minute, h.2.1⟩, ⟨second, h.2.2.1⟩, ⟨nanosecond, h.2.2.2⟩⟩
  else none

/-- The same clock reading so many minutes earlier; at most one day is crossed. -/
def minutesEarlier? (instant : Instant) (minutes : Int) : Option Instant := do
  let total : Int := instant.hour.val * 60 + instant.minute.val - minutes
  let date ←
    if total < 0 then instant.date.previous?
    else if 1440 ≤ total then instant.date.next?
    else some instant.date
  let ofDay := (total % 1440).toNat
  of? date (ofDay / 60) (ofDay % 60) instant.second instant.nanosecond

@[simp] theorem of?_self (t : Instant) :
    of? t.date t.hour t.minute t.second t.nanosecond = some t := by
  simp [of?]

end Instant

end TokenLedger
