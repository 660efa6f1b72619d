import TokenLedger.Json.Form
import TokenLedger.Record

/-!
JSON forms of the records of the ledger and of their parts.
-/

set_option autoImplicit false

namespace TokenLedger

open JsonForm (toJson required)

instance : JsonForm GroupWeight where
  toJson member := .object [("id", toJson member.id), ("weight", toJson member.weight)]
  ofJson? json := do
    let [id, weight] ← json.fields? ["id", "weight"] | none
    return ⟨← required id, ← required weight⟩

instance : JsonForm KeyWeight where
  toJson member := .object [("key", toJson member.key), ("weight", toJson member.weight)]
  ofJson? json := do
    let [key, weight] ← json.fields? ["key", "weight"] | none
    return ⟨← required key, ← required weight⟩

instance : JsonForm Permission where
  toJson permission := .object [
    ("name", toJson permission.name),
    ("threshold", toJson permission.threshold),
    ("groups", toJson permission.groups)]
  ofJson? json := do
    let [name, threshold, groups] ← json.fields? ["name", "threshold", "groups"] | none
    return ⟨← required name, ← required threshold, ← required groups⟩

instance : JsonForm Group where
  toJson group := .object [
    ("id", toJson group.id),
    ("key", toJson group.key),
    ("threshold", toJson group.threshold),
    ("keys", toJson group.keys)]
  ofJson? json := do
    let [id, key, threshold, keys] ← json.fields? ["id", "key", "threshold", "keys"] | none
    return ⟨← required id, ← required key, ← required threshold, ← required keys⟩

instance : JsonForm Domain where
  toJson domain := .object [
    ("name", toJson domain.name),
    ("issuer", toJson domain.issuer),
    ("issue_time", toJson domain.issueTime),
    ("issue", toJson domain.issue),
    ("transfer", toJson domain.transfer),
    ("manage", toJson domain.manage)]
  ofJson? json := do
    let [name, issuer, issueTime, issue, transfer, manage] ←
      json.fields? ["name", "issuer", "issue_time", "issue", "transfer", "manage"] | none
    return ⟨← required name, ← required issuer, ← required issueTime, ← required issue,
      ← required transfer, ← required manage⟩

instance : JsonForm Token where
  toJson token := .object [
    ("domain", toJson token.domain),
    ("name", toJson token.name),
    ("owner", toJson token.owner)]
  ofJson? json := do
    let [domain, name, owner] ← json.fields? ["domain", "name", "owner"] | none
    return ⟨← required domain, ← required name, ← required owner⟩

instance : JsonForm Account where
  toJson account := .object [
    ("name", toJson account.name),
    ("creator", toJson account.creator),
    ("create_time", toJson account.createTime),
    ("balance", toJson account.balance),
    ("frozen_balance", toJson account.frozenBalance),
    ("owner", toJson account.owner)]
  ofJson? json := do
    let [name, creator, createTime, balance, frozenBalance, owner] ←
      json.fields? ["name", "creator", "create_time", "balance", "frozen_balance", "owner"] | none
    return ⟨← required name, ← required creator, ← required createTime, ← required balance,
      ← required frozenBalance, ← required owner⟩

end TokenLedger
