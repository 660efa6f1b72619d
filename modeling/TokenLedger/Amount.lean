/-!
Amounts of the fungible currency: the integers that a signed 64-bit word holds.

An amount carries its bounds, so sums over accounts are taken in the integers and
the checked operations fail exactly where the exact result leaves the range.
-/

set_option autoImplicit false

namespace TokenLedger

/-- A signed 64-bit amount of currency. -/
structure Amount where
  val : Int
  lower : -9223372036854775808 ≤ val := by decide
  upper : val ≤ 9223372036854775807 := by decide
  deriving DecidableEq, Repr

namespace Amount

/-- The amount of that value, if it is in range. -/
def ofInt? (n : Int) : Option Amount :=
  if bounds : -9223372036854775808 ≤ n ∧ n ≤ 9223372036854775807 then
    some ⟨n, bounds.1, bounds.2⟩
  else none

def zero : Amount := ⟨0, by decide, by decide⟩

instance : Inhabited Amount := ⟨zero⟩

def add? (a b : Amount) : Option Amount := ofInt? (a.val + b.val)

def sub? (a b : Amount) : Option Amount := ofInt? (a.val - b.val)

def isPositive (a : Amount) : Bool := 0 < a.val

instance : ToString Amount := ⟨fun a => toString a.val⟩

instance : LE Amount := ⟨fun a b => a.val ≤ b.val⟩

instance : LT Amount := ⟨fun a b => a.val < b.val⟩

instance : DecidableLE Amount := fun a b => inferInstanceAs (Decidable (a.val ≤ b.val))

instance : DecidableLT Amount := fun a b => inferInstanceAs (Decidable (a.val < b.val))

@[ext] theorem ext {a b : Amount} (val : a.val = b.val) : a = b := by
  cases a; cases b; simp_all

theorem le_iff_val (a b : Amount) : a ≤ b ↔ a.val ≤ b.val := Iff.rfl

theorem lt_iff_val (a b : Amount) : a < b ↔ a.val < b.val := Iff.rfl

theorem ofInt?_eq_some_iff {n : Int} {a : Amount} : ofInt? n = some a ↔ n = a.val := by
  have lower := a.lower
  have upper := a.upper
  unfold ofInt?
  split <;> simp [Amount.ext_iff]
  omega

@[simp] theorem ofInt?_val (a : Amount) : ofInt? a.val = some a := ofInt?_eq_some_iff.mpr rfl

theorem add?_eq_some_iff {a b c : Amount} : a.add? b = some c ↔ a.val + b.val = c.val :=
  ofInt?_eq_some_iff

theorem sub?_eq_some_iff {a b c : Amount} : a.sub? b = some c ↔ a.val - b.val = c.val :=
  ofInt?_eq_some_iff

end Amount

end TokenLedger
