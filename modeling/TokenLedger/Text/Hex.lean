/-!
Hexadecimal text: lower-case digits are written, both cases are read.
-/

set_option autoImplicit false

namespace TokenLedger.Text.Hex

/-- The digit of a number below sixteen. -/
def digit (n : Nat) : Char := Nat.digitChar n

/-- A byte as two digits, the high half first. -/
def byte (b : UInt8) : List Char := [digit (b.toNat / 16), digit (b.toNat % 16)]

def bytes (bs : List UInt8) : List Char := bs.flatMap byte

/-- The value of a digit of either case. -/
def value? (c : Char) : Option Nat :=
  if c.isDigit then some (c.toNat - '0'.toNat)
  else if 'a' ≤ c ∧ c ≤ 'f' then some (c.toNat - 'a'.toNat + 10)
  else if 'A' ≤ c ∧ c ≤ 'F' then some (c.toNat - 'A'.toNat + 10)
  else none

theorem value?_digit : ∀ {n : Nat}, n < 16 → value? (digit n) = some n := by decide

@[simp] theorem length_byte (b : UInt8) : (byte b).length = 2 := rfl

@[simp] theorem length_bytes (bs : List UInt8) : (bytes bs).length = 2 * bs.length := by
  induction bs with
  | nil => rfl
  | cons b rest inductionHypothesis =>
      simp only [bytes, List.flatMap_cons, List.length_append, length_byte, List.length_cons]
      simp only [bytes] at inductionHypothesis
      omega

end TokenLedger.Text.Hex
