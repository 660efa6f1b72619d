import TokenLedger.Action
import TokenLedger.Failure
import TokenLedger.Plan

/-!
Events of the log: what is noted, at which level, in which words and with which fields.
-/

set_option autoImplicit false

namespace TokenLedger

/-- The value of a field of an event. -/
inductive Field where
  | text (value : String)
  | number (value : Int)
  | flag (value : Bool)
  deriving DecidableEq, Repr

inductive Event where
  | applying (action : ActionKind)
  /-- The JSON text of the action about to be applied, as it is. -/
  | payload (action : ActionKind) (json : String)
  | unauthorized (scope : Scope)
  | resolving (group : GroupId) (stored inline : Bool)
  | readAccounts (source : Name) (sourceBalance targetBalance : Amount)
  | rejected (level : LogLevel) (action : ActionKind) (failure : Failure)
  /-- The plan is about to be carried out. -/
  | committing (plan : Plan)
  | wrote (write : Write)
  | commitFailed (action : ActionKind) (failure : Failure)
  | applied (action : ActionKind)
  deriving DecidableEq, Repr

namespace Event

def level : Event → LogLevel
  | .applying _ | .unauthorized _ | .resolving _ _ _ | .readAccounts _ _ _ => .debug
  | .payload _ _ | .wrote _ => .trace
  | .rejected level _ _ => level
  | .committing _ | .applied _ => .info
  | .commitFailed _ _ => .error

def planMessage : Plan → String
  | .newDomain _ _ => "Creating domain"
  | .updateDomain _ _ => "Updating domain"
  | .issueTokens _ => "Issuing tokens"
  | .transferToken _ _ _ => "Transferring token"
  | .updateGroup _ => "Updating group"
  | .newAccount _ => "Creating account"
  | .updateOwner _ => "Updating account owner"
  | .transferBalance _ _ => "Transferring balance"

def writeMessage : Write → String
  | .addDomain _ => "add domain"
  | .updateDomain _ => "update domain"
  | .addGroup _ => "add group"
  | .updateGroup _ => "update group"
  | .issueTokens _ => "issue tokens"
  | .transferToken _ _ _ => "transfer token"
  | .addAccount _ => "add account"
  | .updateAccount _ => "update account"

def message : Event → String
  | .applying _ => "Applying action"
  | .payload _ _ => "Action payload"
  | .unauthorized _ => "Authorization missing"
  | .resolving _ _ _ => "Resolving group reference"
  | .readAccounts _ _ _ => "Read transfer accounts"
  | .rejected _ _ _ => "Action rejected"
  | .committing plan => planMessage plan
  | .wrote write => writeMessage write
  | .commitFailed _ _ => "Commit failed after validation"
  | .applied _ => "Action applied"

def domainField (name : Name) : String × Field := ("domain", .text name.text)

def groupField (id : GroupId) : String × Field := ("group_id", .text (toString id))

def tokenField (name : Name) : String × Field := ("token", .text name.text)

def accountField (name : Name) : String × Field := ("account", .text name.text)

def actionField (action : ActionKind) : String × Field := ("action", .text action.name)

def errorField (failure : Failure) : String × Field := ("error", .text (toString failure))

def countField {α : Type} (items : List α) : String × Field := ("count", .number items.length)

def planFields : Plan → List (String × Field)
  | .newDomain domain groups | .updateDomain domain groups =>
      [domainField domain.name, countField groups]
  | .issueTokens tokens => [countField tokens]
  | .transferToken domain name _ => [domainField domain, tokenField name]
  | .updateGroup group => [groupField group.id, countField group.keys]
  | .newAccount account => [accountField account.name, ("amount", .number account.balance.val)]
  | .updateOwner account => [accountField account.name, countField account.owner]
  | .transferBalance source target =>
      [accountField source.name, ("to", .text target.name.text),
        ("from_balance", .number source.balance.val), ("to_balance", .number target.balance.val)]

def writeFields : Write → List (String × Field)
  | .addDomain domain | .updateDomain domain => [domainField domain.name]
  | .addGroup group | .updateGroup group => [groupField group.id]
  | .issueTokens tokens => [countField tokens]
  | .transferToken domain name _ => [domainField domain, tokenField name]
  | .addAccount account | .updateAccount account => [accountField account.name]

/-- The fields of an event with their values. The payload is the bare JSON text: the wrapper that a
log puts around it, which marks it as present and quotes it with escapes, is left out. -/
def fields : Event → List (String × Field)
  | .applying action | .applied action => [actionField action]
  | .payload action json => [actionField action, ("payload", .text json)]
  | .unauthorized scope => [("scope", .text (toString scope))]
  | .resolving group stored inline =>
      [groupField group, ("in_db", .flag stored), ("in_action", .flag inline)]
  | .readAccounts source sourceBalance targetBalance =>
      [accountField source, ("from_balance", .number sourceBalance.val),
        ("to_balance", .number targetBalance.val)]
  | .rejected _ action failure | .commitFailed action failure =>
      [actionField action, errorField failure]
  | .committing plan => planFields plan
  | .wrote write => writeFields write

end Event

end TokenLedger
