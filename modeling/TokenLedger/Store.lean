import TokenLedger.Failure
import TokenLedger.Store.Call
import TokenLedger.Store.Table

/-!
The store of a ledger: four tables, of domains, groups, tokens and accounts.

A store answers queries and performs writes. It fails only where a record that a call
needs is missing, or one that it is to add is there.
-/

set_option autoImplicit false

namespace TokenLedger

instance : Keyed Domain Name := ⟨Domain.name⟩

instance : Keyed Group GroupId := ⟨Group.id⟩

instance : Keyed Token TokenKey := ⟨Token.key⟩

instance : Keyed Account Name := ⟨Account.name⟩

structure Store where
  domains : Table Domain
  groups : Table Group
  tokens : Table Token
  accounts : Table Account
  deriving DecidableEq

namespace Store

def empty : Store := ⟨.empty, .empty, .empty, .empty⟩

instance : Inhabited Store := ⟨empty⟩

/-- The words by which errors name records. -/
def domainLabel (name : Name) : String := s!"domain {name}"

def groupLabel (id : GroupId) : String := s!"group {id}"

def tokenLabel (domain name : Name) : String := s!"token {domain}-{name}"

def accountLabel (name : Name) : String := s!"account {name}"

/-- A record that has to be there. -/
def found {α : Type} (label : String) : Option α → Except StoreError α
  | some record => .ok record
  | none => .error (.notFound label)

def ask (store : Store) : (query : Query) → Except StoreError query.Answer
  | .existsDomain name => .ok (store.domains.contains name)
  | .readDomain name => found (domainLabel name) (store.domains.get? name)
  | .existsGroup id => .ok (store.groups.contains id)
  | .readGroup id => found (groupLabel id) (store.groups.get? id)
  | .existsToken domain name => .ok (store.tokens.contains ⟨domain, name⟩)
  | .readToken domain name => found (tokenLabel domain name) (store.tokens.get? ⟨domain, name⟩)
  | .existsAccount name => .ok (store.accounts.contains name)
  | .readAccount name => found (accountLabel name) (store.accounts.get? name)

/-- The first token of a batch that is filed already or comes twice in the batch. -/
def collision? (tokens : Table Token) (earlier : List TokenKey) : List Token → Option Token
  | [] => none
  | token :: rest =>
      if tokens.contains token.key || token.key ∈ earlier then some token
      else collision? tokens (token.key :: earlier) rest

/-- A batch of tokens is issued as a whole or not at all. -/
def issue (store : Store) (batch : List Token) : Except StoreError Store :=
  match collision? store.tokens [] batch with
  | some token => .error (.alreadyExists (tokenLabel token.domain token.name))
  | none => .ok { store with tokens := batch.foldl Table.insert store.tokens }

def perform (store : Store) : Write → Except StoreError Store
  | .addDomain domain =>
      if store.domains.contains domain.name then
        .error (.alreadyExists (domainLabel domain.name))
      else .ok { store with domains := store.domains.insert domain }
  | .updateDomain domain =>
      if store.domains.contains domain.name then
        .ok { store with domains := store.domains.insert domain }
      else .error (.notFound (domainLabel domain.name))
  | .addGroup group =>
      if store.groups.contains group.id then .error (.alreadyExists (groupLabel group.id))
      else .ok { store with groups := store.groups.insert group }
  | .updateGroup group =>
      if store.groups.contains group.id then
        .ok { store with groups := store.groups.insert group }
      else .error (.notFound (groupLabel group.id))
  | .issueTokens batch => store.issue batch
  | .transferToken domain name owner =>
      match store.tokens.get? ⟨domain, name⟩ with
      | some token => .ok { store with tokens := store.tokens.insert { token with owner } }
      | none => .error (.notFound (tokenLabel domain name))
  | .addAccount account =>
      if store.accounts.contains account.name then
        .error (.alreadyExists (accountLabel account.name))
      else .ok { store with accounts := store.accounts.insert account }
  | .updateAccount account =>
      if store.accounts.contains account.name then
        .ok { store with accounts := store.accounts.insert account }
      else .error (.notFound (accountLabel account.name))

/-- The tokens of a domain in the order of their names. -/
def tokensIn (store : Store) (domain : Name) : List Token :=
  store.tokens.toList.filter fun token => token.domain = domain

/-- The sum of all balances, added up in the order of the accounts; none if a partial sum is out
of range. -/
def totalBalance? (store : Store) : Option Amount :=
  store.accounts.toList.foldlM (fun total account => total.add? account.balance) Amount.zero

/-- Stores with the same look-ups are the same. -/
theorem ext_get? {s t : Store} (domains : ∀ name, s.domains.get? name = t.domains.get? name)
    (groups : ∀ id, s.groups.get? id = t.groups.get? id)
    (tokens : ∀ key, s.tokens.get? key = t.tokens.get? key)
    (accounts : ∀ name, s.accounts.get? name = t.accounts.get? name) : s = t := by
  have sameDomains := Table.ext_get? domains
  have sameGroups := Table.ext_get? groups
  have sameTokens := Table.ext_get? tokens
  have sameAccounts := Table.ext_get? accounts
  cases s; cases t; simp_all

end Store

end TokenLedger
