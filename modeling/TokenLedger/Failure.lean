import TokenLedger.Config
import TokenLedger.Permission

/-!
Why an action fails, and the wording of it.

An action is rejected for a reason of its own, or the store fails, or the configuration
is unusable. Only a rejection is the action's fault, so only a rejection is marked with
the action that was submitted.
-/

set_option autoImplicit false

namespace TokenLedger

/-- How a call to the store fails. The text names the record, or tells the problem. -/
inductive StoreError where
  | notFound (record : String)
  | alreadyExists (record : String)
  | storage (problem : String)
  deriving DecidableEq, Repr

def StoreError.message : StoreError → String
  | .notFound record => s!"Record not found: {record}"
  | .alreadyExists record => s!"Record already exists: {record}"
  | .storage problem => s!"Storage error: {problem}"

/-- The reasons for which actions are rejected. -/
inductive Reason where
  | unauthorized
  | domainExists (name : Name)
  | noDomainToUpdate (name : Name)
  | noDomainToIssueIn (name : Name)
  | emptyDomainName
  | misnamedPermission (slot : Slot) (given : Name)
  | invalidPermission (slot : Slot)
  | ownerNotAllowed (permission : Name)
  | unresolvedGroup (id : GroupId)
  | invalidGroup (id : GroupId)
  | forgedGroupId (id : GroupId) (key : PublicKey)
  | repeatedGroup (id : GroupId)
  | groupExists (id : GroupId)
  | noGroup (id : GroupId)
  | noKeys
  | invalidUpdatedGroup
  | emptyOwner
  | emptyTokenName
  | repeatedToken (domain name : Name)
  | tokenExists (domain name : Name)
  | noToken (domain name : Name)
  | emptyAccountName
  | accountExists (name : Name)
  | noAccount (name : Name)
  | amountNotPositive
  | transferToSelf (name : Name)
  | insufficientBalance (name : Name)
  | balanceOverflow
  | stated (message : String)
  deriving DecidableEq, Repr

def Reason.message : Reason → String
  | .unauthorized => "Authorized information doesn't match"
  | .domainExists name => s!"Domain {name} already existed"
  | .noDomainToUpdate name => s!"Domain {name} is not existed"
  | .noDomainToIssueIn name => s!"Domain {name} not existed"
  | .emptyDomainName => "Domain name shouldn't be empty"
  | .misnamedPermission slot given =>
      s!"Name of {slot.name} permission is not valid, provided: {given}"
  | .invalidPermission slot =>
      if slot.needsThreshold then
        s!"{slot.title} permission not valid, " ++
          "either threshold is not valid or exist duplicate or unordered keys"
      else s!"{slot.title} permission not valid, maybe exist duplicate keys"
  | .ownerNotAllowed permission => s!"Owner group is not allowed in {permission} permission"
  | .unresolvedGroup id =>
      s!"Group {id} is not valid, may already be defined or not provide defines"
  | .invalidGroup id =>
      s!"Group {id} is not valid, either threshold is not valid or exist duplicate or unordered key"
  | .forgedGroupId id key => s!"Group id and key are not match, id: {id}, key: {key}"
  | .repeatedGroup id => s!"Group {id} is defined more than once"
  | .groupExists id => s!"Group {id} already existed"
  | .noGroup id => s!"Group {id} not existed"
  | .noKeys => "Group must contains at least one key"
  | .invalidUpdatedGroup =>
      "Updated group is not valid, " ++
        "either threshold is not valid or exist duplicate or unordered keys"
  | .emptyOwner => "Owner cannot be empty"
  | .emptyTokenName => "Token name shouldn't be empty"
  | .repeatedToken domain name => s!"Token {domain}-{name} is issued more than once"
  | .tokenExists domain name => s!"Token {domain}-{name} already existed"
  | .noToken domain name => s!"Token {domain}-{name} not existed"
  | .emptyAccountName => "Account name shouldn't be empty"
  | .accountExists name => s!"Account {name} already existed"
  | .noAccount name => s!"Account {name} don't exist"
  | .amountNotPositive => "Transfer amount must be positive"
  | .transferToSelf name => s!"Account {name} cannot transfer to itself"
  | .insufficientBalance name => s!"Account {name} don't have enough balance left"
  | .balanceOverflow => "Operations resulted in overflow results"
  | .stated message => message

/-- An action as it was submitted: its name and its JSON text. -/
structure Submission where
  action : String
  payload : String
  deriving DecidableEq, Repr

structure Rejection where
  reason : Reason
  /-- What was rejected, once that is known. -/
  submission : Option Submission
  deriving DecidableEq, Repr

/-- The name of the rejected action, empty until it is known. -/
def Rejection.action (rejection : Rejection) : String :=
  (rejection.submission.map Submission.action).getD ""

inductive Failure where
  | rejected (rejection : Rejection)
  | store (error : StoreError)
  | config (error : ConfigError)
  deriving DecidableEq, Repr

namespace Failure

/-- A rejection of an action that is not named yet. -/
def ofReason (reason : Reason) : Failure := .rejected ⟨reason, none⟩

/-- Mark a rejection with what was submitted. Other failures are not the action's fault. -/
def submittedAs (failure : Failure) (submission : Submission) : Failure :=
  match failure with
  | .rejected rejection => .rejected { rejection with submission := some submission }
  | other => other

def isRejection : Failure → Bool
  | .rejected _ => true
  | _ => false

def message : Failure → String
  | .rejected rejection => rejection.reason.message
  | .store error => error.message
  | .config error => error.message

instance : ToString Failure where
  toString
    | .rejected rejection =>
        s!"Action validation error: [{rejection.action}] {rejection.reason.message}"
    | .store error => s!"Token database error: {error.message}"
    | .config error => s!"Configuration error: {error.message}"

end Failure

/-- Nothing, if the condition holds, and else a rejection for that reason. -/
def ensure (condition : Bool) (reason : Reason) : Except Failure Unit :=
  if condition then .ok () else .error (.ofReason reason)

end TokenLedger
