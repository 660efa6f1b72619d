import TokenLedger.Check

/-!
Groups that a domain action defines or refers to.

Every group that a permission refers to comes from exactly one place: the store, or the
definitions that the action brings along.
-/

set_option autoImplicit false

namespace TokenLedger

/-- A group is stored or defined along with the action, but not both. -/
def resolveGroup (defined : List Group) (id : GroupId) : Check Unit := do
  let stored : Bool ← Check.query (.existsGroup id)
  let inline := defined.any fun group => group.id = id
  Check.emit (.resolving id stored inline)
  Check.ensure (stored != inline) (.unresolvedGroup id)

/-- Every reference is resolved in order. The owner needs no group but must be allowed. -/
def Permission.resolve (permission : Permission) (defined : List Group) (allowsOwner : Bool) :
    Check Unit :=
  permission.groups.forM fun reference =>
    if reference.id.isOwner then Check.ensure allowsOwner (.ownerNotAllowed permission.name)
    else resolveGroup defined reference.id

/-- Definitions are valid, carry the identifiers that their keys give, and come once each. The
first argument lists the identifiers defined before. -/
def checkDefinitions : List GroupId → List Group → Except Failure Unit
  | _, [] => .ok ()
  | earlier, group :: rest => do
      ensure group.isValid (.invalidGroup group.id)
      ensure group.idMatchesKey (.forgedGroupId group.id group.key)
      ensure (group.id ∉ earlier) (.repeatedGroup group.id)
      checkDefinitions (group.id :: earlier) rest

/-- Definitions add groups, so none of them may be stored yet. -/
def checkAbsent (defined : List Group) : Check Unit :=
  defined.forM fun group => do
    let stored : Bool ← Check.query (.existsGroup group.id)
    Check.ensure (!stored) (.groupExists group.id)

end TokenLedger
