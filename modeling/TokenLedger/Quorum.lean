/-!
Weighted threshold rules.

A rule lists its members in strictly descending order of their identities, so every set
of members has one listing. It can be met if the weights together reach the threshold.
-/

set_option autoImplicit false

namespace TokenLedger

/-- A member of a threshold rule has an identity and a weight. -/
class Weighted (μ : Type) (ι : outParam Type) where
  identity : μ → ι
  weight : μ → UInt32

namespace Weighted

variable {μ ι : Type} [Weighted μ ι] [LT ι] [DecidableLT ι]

/-- The rest of a listing, after the identity named last and with the weight so far. -/
def completes (threshold : UInt32) : Option ι → UInt64 → List μ → Bool
  | _, total, [] => threshold.toUInt64 ≤ total
  | last, total, member :: rest =>
      last.all (fun previous => identity member < previous) && weight member != 0 &&
        completes threshold (some (identity member)) (total + (weight member).toUInt64) rest

/-- Members in strictly descending order, none without weight, that reach the threshold. -/
def wellFormed (threshold : UInt32) (members : List μ) : Bool :=
  completes threshold none 0 members

end Weighted

end TokenLedger
