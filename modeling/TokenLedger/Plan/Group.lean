import TokenLedger.Check

/-!
Plans to update groups. Groups come into being along with domains; an update keeps the
identifier and the key.
-/

set_option autoImplicit false

namespace TokenLedger

def UpdateGroup.plan (action : UpdateGroup) : Check Plan := do
  let known : Bool ← Check.query (.existsGroup action.id)
  Check.ensure known (.noGroup action.id)
  Check.ensure (!action.keys.isEmpty) .noKeys
  let stored : Group ← Check.query (.readGroup action.id)
  let updated : Group := { stored with threshold := action.threshold, keys := action.keys }
  Check.ensure updated.isValid .invalidUpdatedGroup
  return .updateGroup updated

end TokenLedger
