import TokenLedger.Store.Call

/-!
Plans: what an action that was found in order is about to write.
-/

set_option autoImplicit false

namespace TokenLedger

inductive Plan where
  | newDomain (domain : Domain) (groups : List Group)
  | updateDomain (domain : Domain) (groups : List Group)
  | issueTokens (tokens : List Token)
  | transferToken (domain name : Name) (owner : List PublicKey)
  | updateGroup (group : Group)
  | newAccount (account : Account)
  | updateOwner (account : Account)
  /-- Both accounts as they are after the transfer. -/
  | transferBalance (source target : Account)
  deriving DecidableEq, Repr

/-- The writes of a plan in the order in which they are made. -/
def Plan.writes : Plan → List Write
  | .newDomain domain groups => .addDomain domain :: groups.map Write.addGroup
  | .updateDomain domain groups => .updateDomain domain :: groups.map Write.addGroup
  | .issueTokens tokens => [.issueTokens tokens]
  | .transferToken domain name owner => [.transferToken domain name owner]
  | .updateGroup group => [.updateGroup group]
  | .newAccount account => [.addAccount account]
  | .updateOwner account => [.updateAccount account]
  | .transferBalance source target => [.updateAccount source, .updateAccount target]

end TokenLedger
