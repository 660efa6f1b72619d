import TokenLedger.Permission

/-!
Scopes of authority: what an action must be authorized for.

A scope is shown as a pair of texts. Different scopes may be shown alike; authority is
always looked up by the scope itself.
-/

set_option autoImplicit false

namespace TokenLedger

inductive Scope where
  | newDomain (name : Name)
  | domainIssue (domain : Name)
  | domainManage (domain : Name)
  | token (domain name : Name)
  | group (id : GroupId)
  | account (name : Name)
  deriving DecidableEq, Repr

namespace Scope

/-- The kinds that are words of their own, in place of the name of a domain. -/
def domainKind : String := "domain"

def groupKind : String := "group"

def accountKind : String := "account"

/-- The first text of the pair. -/
def kind : Scope → String
  | .newDomain _ => domainKind
  | .domainIssue domain | .domainManage domain | .token domain _ => domain.text
  | .group _ => groupKind
  | .account _ => accountKind

/-- The second text of the pair. -/
def key : Scope → String
  | .newDomain name | .token _ name | .account name => name.text
  | .domainIssue _ => Slot.issue.name
  | .domainManage _ => Slot.manage.name
  | .group id => id.text

instance : ToString Scope := ⟨fun scope => s!"({scope.kind}, {scope.key})"⟩

end Scope

/-- A set of scopes that have been authorized. -/
structure AuthorizedScopes where
  scopes : List Scope
  deriving Repr

namespace AuthorizedScopes

def none : AuthorizedScopes := ⟨[]⟩

instance : Inhabited AuthorizedScopes := ⟨none⟩

def insert (authorized : AuthorizedScopes) (scope : Scope) : AuthorizedScopes :=
  if scope ∈ authorized.scopes then authorized else ⟨scope :: authorized.scopes⟩

def contains (authorized : AuthorizedScopes) (scope : Scope) : Bool :=
  scope ∈ authorized.scopes

@[simp] theorem contains_none (scope : Scope) : none.contains scope = false := rfl

@[simp] theorem contains_insert (authorized : AuthorizedScopes) (scope other : Scope) :
    (authorized.insert scope).contains other = (other = scope || authorized.contains other) := by
  unfold insert contains
  by_cases present : scope ∈ authorized.scopes
  · by_cases same : other = scope <;> simp [present, same]
  · simp [present]

end AuthorizedScopes

end TokenLedger
