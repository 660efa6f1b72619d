import TokenLedger.Identifier
import TokenLedger.Quorum

/-!
Permissions of a domain: the groups that may act on it and what each counts.
-/

set_option autoImplicit false

namespace TokenLedger

/-- A reference to a group and what its consent counts. -/
structure GroupWeight where
  id : GroupId
  weight : UInt32
  deriving DecidableEq, Repr

instance : Weighted GroupWeight GroupId := ⟨GroupWeight.id, GroupWeight.weight⟩

/-- A reference to the owner of the token at hand. -/
def GroupWeight.owner (weight : UInt32) : GroupWeight := ⟨.owner, weight⟩

structure Permission where
  name : Name
  threshold : UInt32
  groups : List GroupWeight
  deriving DecidableEq, Repr

/-- The groups can bring up the threshold, which may be zero. -/
def Permission.isValid (permission : Permission) : Bool :=
  Weighted.wellFormed permission.threshold permission.groups

/-- The three permissions of a domain. -/
inductive Slot where
  | issue
  | transfer
  | manage
  deriving DecidableEq, Repr

namespace Slot

/-- The name that the permission must carry. -/
def name : Slot → String
  | .issue => "issue"
  | .transfer => "transfer"
  | .manage => "manage"

/-- The name as it opens a sentence. -/
def title : Slot → String
  | .issue => "Issue"
  | .transfer => "Transfer"
  | .manage => "Manage"

/-- Issuing and transferring always need consent. Managing may not: a domain whose manage
threshold is zero can never be changed. -/
def needsThreshold : Slot → Bool
  | .issue | .transfer => true
  | .manage => false

/-- Only a transfer concerns a token that has an owner to ask. -/
def allowsOwner : Slot → Bool
  | .transfer => true
  | .issue | .manage => false

def all : List Slot := [.issue, .transfer, .manage]

end Slot

end TokenLedger
