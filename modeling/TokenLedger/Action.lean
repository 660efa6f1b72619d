import TokenLedger.Record
import TokenLedger.Scope

/-!
The actions that change the ledger, each with its name on the chain and the one scope
that it must be authorized for.
-/

set_option autoImplicit false

namespace TokenLedger

/-- Create a domain with its permissions, and the groups defined along with it. -/
structure NewDomain where
  name : Name
  issuer : PublicKey
  issue : Permission
  transfer : Permission
  manage : Permission
  groups : List Group
  deriving DecidableEq, Repr

/-- Replace the permissions that are given, and define groups along with them. -/
structure UpdateDomain where
  name : Name
  issue : Option Permission
  transfer : Option Permission
  manage : Option Permission
  groups : List Group
  deriving DecidableEq, Repr

/-- Issue tokens of these names to one owner. -/
structure IssueTokens where
  domain : Name
  names : List Name
  owner : List PublicKey
  deriving DecidableEq, Repr

/-- Hand a token to a new owner. -/
structure TransferToken where
  domain : Name
  name : Name
  owner : List PublicKey
  deriving DecidableEq, Repr

/-- Replace the keys of a group and its threshold. -/
structure UpdateGroup where
  id : GroupId
  threshold : UInt32
  keys : List KeyWeight
  deriving DecidableEq, Repr

/-- Open an account. -/
structure NewAccount where
  name : Name
  owner : List PublicKey
  deriving DecidableEq, Repr

/-- Hand an account to a new owner. -/
structure UpdateOwner where
  name : Name
  owner : List PublicKey
  deriving DecidableEq, Repr

/-- Move an amount from one account to another. -/
structure TransferBalance where
  source : Name
  target : Name
  amount : Amount
  deriving DecidableEq, Repr

inductive ActionKind where
  | newDomain
  | updateDomain
  | issueTokens
  | transferToken
  | updateGroup
  | newAccount
  | updateOwner
  | transferBalance
  deriving DecidableEq, Repr

namespace ActionKind

/-- The name on the chain. -/
def name : ActionKind → String
  | .newDomain => "newdomain"
  | .updateDomain => "updatedomain"
  | .issueTokens => "issuetoken"
  | .transferToken => "transfer"
  | .updateGroup => "updategroup"
  | .newAccount => "newaccount"
  | .updateOwner => "updateowner"
  | .transferBalance => "transferevt"

def all : List ActionKind :=
  [.newDomain, .updateDomain, .issueTokens, .transferToken, .updateGroup, .newAccount,
    .updateOwner, .transferBalance]

def ofName? (name : String) : Option ActionKind := all.find? fun kind => kind.name = name

@[simp] theorem ofName?_name (kind : ActionKind) : ofName? kind.name = some kind := by
  cases kind <;> decide

end ActionKind

inductive Action where
  | newDomain (action : NewDomain)
  | updateDomain (action : UpdateDomain)
  | issueTokens (action : IssueTokens)
  | transferToken (action : TransferToken)
  | updateGroup (action : UpdateGroup)
  | newAccount (action : NewAccount)
  | updateOwner (action : UpdateOwner)
  | transferBalance (action : TransferBalance)
  deriving DecidableEq, Repr

namespace UpdateDomain

/-- The permission given for a slot, if any. -/
def permission? (action : UpdateDomain) : Slot → Option Permission
  | .issue => action.issue
  | .transfer => action.transfer
  | .manage => action.manage

end UpdateDomain

namespace NewDomain

def permission (action : NewDomain) : Slot → Permission
  | .issue => action.issue
  | .transfer => action.transfer
  | .manage => action.manage

end NewDomain

namespace Action

def kind : Action → ActionKind
  | .newDomain _ => .newDomain
  | .updateDomain _ => .updateDomain
  | .issueTokens _ => .issueTokens
  | .transferToken _ => .transferToken
  | .updateGroup _ => .updateGroup
  | .newAccount _ => .newAccount
  | .updateOwner _ => .updateOwner
  | .transferBalance _ => .transferBalance

/-- The scope that the action must be authorized for. -/
def scope : Action → Scope
  | .newDomain action => .newDomain action.name
  | .updateDomain action => .domainManage action.name
  | .issueTokens action => .domainIssue action.domain
  | .transferToken action => .token action.domain action.name
  | .updateGroup action => .group action.id
  | .newAccount action => .account action.name
  | .updateOwner action => .account action.name
  | .transferBalance action => .account action.source

end Action

end TokenLedger
