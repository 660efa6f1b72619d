import TokenLedger.Action
import TokenLedger.Json.Records

/-!
JSON forms of actions. The text of an action does not tell its kind, so an action is read
as one of a kind that is known.
-/

set_option autoImplicit false

namespace TokenLedger

open JsonForm (toJson ofJson? required orElse)

instance : JsonForm NewDomain where
  toJson action := .object [
    ("name", toJson action.name),
    ("issuer", toJson action.issuer),
    ("issue", toJson action.issue),
    ("transfer", toJson action.transfer),
    ("manage", toJson action.manage),
    ("groups", toJson action.groups)]
  ofJson? json := do
    let [name, issuer, issue, transfer, manage, groups] ←
      json.fields? ["name", "issuer", "issue", "transfer", "manage", "groups"] | none
    return ⟨← required name, ← required issuer, ← required issue, ← required transfer,
      ← required manage, ← orElse [] groups⟩

instance : JsonForm UpdateDomain where
  toJson action := .object [
    ("name", toJson action.name),
    ("issue", toJson action.issue),
    ("transfer", toJson action.transfer),
    ("manage", toJson action.manage),
    ("groups", toJson action.groups)]
  ofJson? json := do
    let [name, issue, transfer, manage, groups] ←
      json.fields? ["name", "issue", "transfer", "manage", "groups"] | none
    return ⟨← required name, ← orElse none issue, ← orElse none transfer, ← orElse none manage,
      ← orElse [] groups⟩

instance : JsonForm IssueTokens where
  toJson action := .object [
    ("domain", toJson action.domain),
    ("names", toJson action.names),
    ("owner", toJson action.owner)]
  ofJson? json := do
    let [domain, names, owner] ← json.fields? ["domain", "names", "owner"] | none
    return ⟨← required domain, ← required names, ← required owner⟩

instance : JsonForm TransferToken where
  toJson action := .object [
    ("domain", toJson action.domain),
    ("name", toJson action.name),
    ("to", toJson action.owner)]
  ofJson? json := do
    let [domain, name, owner] ← json.fields? ["domain", "name", "to"] | none
    return ⟨← required domain, ← required name, ← required owner⟩

instance : JsonForm UpdateGroup where
  toJson action := .object [
    ("id", toJson action.id),
    ("threshold", toJson action.threshold),
    ("keys", toJson action.keys)]
  ofJson? json := do
    let [id, threshold, keys] ← json.fields? ["id", "threshold", "keys"] | none
    return ⟨← required id, ← required threshold, ← required keys⟩

instance : JsonForm NewAccount where
  toJson action := .object [("name", toJson action.name), ("owner", toJson action.owner)]
  ofJson? json := do
    let [name, owner] ← json.fields? ["name", "owner"] | none
    return ⟨← required name, ← required owner⟩

instance : JsonForm UpdateOwner where
  toJson action := .object [("name", toJson action.name), ("owner", toJson action.owner)]
  ofJson? json := do
    let [name, owner] ← json.fields? ["name", "owner"] | none
    return ⟨← required name, ← required owner⟩

instance : JsonForm TransferBalance where
  toJson action := .object [
    ("from", toJson action.source),
    ("to", toJson action.target),
    ("amount", toJson action.amount)]
  ofJson? json := do
    let [source, target, amount] ← json.fields? ["from", "to", "amount"] | none
    return ⟨← required source, ← required target, ← required amount⟩

namespace Action

def toJson : Action → Json
  | .newDomain action => JsonForm.toJson action
  | .updateDomain action => JsonForm.toJson action
  | .issueTokens action => JsonForm.toJson action
  | .transferToken action => JsonForm.toJson action
  | .updateGroup action => JsonForm.toJson action
  | .newAccount action => JsonForm.toJson action
  | .updateOwner action => JsonForm.toJson action
  | .transferBalance action => JsonForm.toJson action

/-- An action of a known kind. -/
def ofJson? (json : Json) : ActionKind → Option Action
  | .newDomain => (JsonForm.ofJson? json).map Action.newDomain
  | .updateDomain => (JsonForm.ofJson? json).map Action.updateDomain
  | .issueTokens => (JsonForm.ofJson? json).map Action.issueTokens
  | .transferToken => (JsonForm.ofJson? json).map Action.transferToken
  | .updateGroup => (JsonForm.ofJson? json).map Action.updateGroup
  | .newAccount => (JsonForm.ofJson? json).map Action.newAccount
  | .updateOwner => (JsonForm.ofJson? json).map Action.updateOwner
  | .transferBalance => (JsonForm.ofJson? json).map Action.transferBalance

def encode (action : Action) : String := action.toJson.write

def decode? (kind : ActionKind) (text : String) : Option Action :=
  (Json.read? text).bind fun json => ofJson? json kind

end Action

end TokenLedger
