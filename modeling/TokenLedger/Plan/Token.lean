import TokenLedger.Check

/-!
Plans to issue tokens and to transfer them.
-/

set_option autoImplicit false

namespace TokenLedger

/-- Names are not empty, come once each, and are not issued yet. The second argument lists the
names before. -/
def checkTokenNames (domain : Name) : List Name → List Name → Check Unit
  | _, [] => return
  | earlier, name :: rest => do
      Check.ensure (!name.isEmpty) .emptyTokenName
      Check.ensure (name ∉ earlier) (.repeatedToken domain name)
      let issued : Bool ← Check.query (.existsToken domain name)
      Check.ensure (!issued) (.tokenExists domain name)
      checkTokenNames domain (name :: earlier) rest

def IssueTokens.plan (action : IssueTokens) : Check Plan := do
  let known : Bool ← Check.query (.existsDomain action.domain)
  Check.ensure known (.noDomainToIssueIn action.domain)
  Check.ensure (!action.owner.isEmpty) .emptyOwner
  checkTokenNames action.domain [] action.names
  return .issueTokens (action.names.map fun name => ⟨action.domain, name, action.owner⟩)

def TransferToken.plan (action : TransferToken) : Check Plan := do
  let issued : Bool ← Check.query (.existsToken action.domain action.name)
  Check.ensure issued (.noToken action.domain action.name)
  return .transferToken action.domain action.name action.owner

end TokenLedger
