import TokenLedger.Config
import TokenLedger.Json.Form
import TokenLedger.Scope

/-!
JSON forms of scopes, log levels and configurations.
-/

set_option autoImplicit false

namespace TokenLedger

open JsonForm (toJson required orElse)

namespace Scope

/-- The member that tells which scope it is. -/
def tag : String := "kind"

def ofFields? (json : Json) : String → Option Scope
  | "new_domain" => do
      let [name] ← json.fields? ["name"] | none
      return .newDomain (← required name)
  | "domain_issue" => do
      let [domain] ← json.fields? ["domain"] | none
      return .domainIssue (← required domain)
  | "domain_manage" => do
      let [domain] ← json.fields? ["domain"] | none
      return .domainManage (← required domain)
  | "token" => do
      let [domain, name] ← json.fields? ["domain", "name"] | none
      return .token (← required domain) (← required name)
  | "group" => do
      let [id] ← json.fields? ["id"] | none
      return .group (← required id)
  | "account" => do
      let [name] ← json.fields? ["name"] | none
      return .account (← required name)
  | _ => none

end Scope

/-- A scope is told by a member of its own, or by the first item of an array. It is read as a
whole, so all of it must be plain. -/
instance : JsonForm Scope where
  toJson
    | .newDomain name => .object [(Scope.tag, toJson "new_domain"), ("name", toJson name)]
    | .domainIssue domain => .object [(Scope.tag, toJson "domain_issue"), ("domain", toJson domain)]
    | .domainManage domain =>
        .object [(Scope.tag, toJson "domain_manage"), ("domain", toJson domain)]
    | .token domain name =>
        .object [(Scope.tag, toJson "token"), ("domain", toJson domain), ("name", toJson name)]
    | .group id => .object [(Scope.tag, toJson "group"), ("id", toJson id)]
    | .account name => .object [(Scope.tag, toJson "account"), ("name", toJson name)]
  ofJson? json :=
    if json.isPlain then
      match json with
      | .array (.string kind :: rest) => Scope.ofFields? (.array rest) kind
      | .object members => do
          let [kind] ← Json.fields? [Scope.tag] json | none
          Scope.ofFields? (.object members) (← required kind)
      | _ => none
    else none

/-- A level is its name, or an object whose one member has that name and no value. -/
instance : JsonForm LogLevel where
  toJson level := toJson level.name
  ofJson?
    | .string name | .object [(name, .null)] => LogLevel.ofName? name
    | _ => none

instance : JsonForm Config where
  toJson config := .object [
    ("system_account", toJson config.systemAccount),
    ("initial_balance", toJson config.initialBalance),
    ("rejection_log_level", toJson config.rejectionLevel)]
  ofJson? json := do
    let [systemAccount, initialBalance, rejectionLevel] ←
      json.fields? ["system_account", "initial_balance", "rejection_log_level"] | none
    return ⟨← orElse Config.standard.systemAccount systemAccount,
      ← orElse Config.standard.initialBalance initialBalance,
      ← orElse Config.standard.rejectionLevel rejectionLevel⟩

end TokenLedger
