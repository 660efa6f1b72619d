import TokenLedger.Plan.Groups

/-!
Plans to create and to update domains.
-/

set_option autoImplicit false

namespace TokenLedger

/-- The permission carries the name of its slot and can be met, without consent only where the
slot needs none. -/
def Slot.check (slot : Slot) (permission : Permission) : Except Failure Unit := do
  ensure (permission.name.text = slot.name) (.misnamedPermission slot permission.name)
  ensure ((!slot.needsThreshold || permission.threshold != 0) && permission.isValid)
    (.invalidPermission slot)

def NewDomain.plan (action : NewDomain) (time : Instant) : Check Plan := do
  let known : Bool ← Check.query (.existsDomain action.name)
  Check.ensure (!known) (.domainExists action.name)
  Check.ofExcept (checkDefinitions [] action.groups)
  Check.ensure (!action.name.isEmpty) .emptyDomainName
  Slot.all.forM fun slot => Check.ofExcept (slot.check (action.permission slot))
  Slot.all.forM fun slot => (action.permission slot).resolve action.groups slot.allowsOwner
  checkAbsent action.groups
  let domain : Domain := {
    name := action.name
    issuer := action.issuer
    issueTime := time
    issue := action.issue
    transfer := action.transfer
    manage := action.manage
  }
  return .newDomain domain action.groups

/-- The domain with the permission that the action gives for a slot, if it gives one. -/
def UpdateDomain.amend (action : UpdateDomain) (domain : Domain) (slot : Slot) : Check Domain :=
  match action.permission? slot with
  | none => return domain
  | some permission => do
      Check.ofExcept (slot.check permission)
      permission.resolve action.groups slot.allowsOwner
      return domain.withPermission permission slot

def UpdateDomain.plan (action : UpdateDomain) : Check Plan := do
  let known : Bool ← Check.query (.existsDomain action.name)
  Check.ensure known (.noDomainToUpdate action.name)
  Check.ofExcept (checkDefinitions [] action.groups)
  Check.ensure (!action.name.isEmpty) .emptyDomainName
  let stored : Domain ← Check.query (.readDomain action.name)
  let domain ← Slot.all.foldlM action.amend stored
  checkAbsent action.groups
  return .updateDomain domain action.groups

end TokenLedger
