import Mathlib.Data.Finmap
import TokenLedger.Proofs.Writes

/-!
The store as four finite maps.

A map files a record under the key that it is told, whatever is written in the record. The store
keeps no keys besides those in its records, and still answers every call as four such maps do, one
for each kind of record (`Store.Matches.ask`, `Store.Matches.perform`).
-/

set_option autoImplicit false

namespace TokenLedger

/-- Four finite maps that know nothing of one another. -/
structure Maps where
  domains : Finmap fun _ : Name => Domain
  groups : Finmap fun _ : GroupId => Group
  tokens : Finmap fun _ : TokenKey => Token
  accounts : Finmap fun _ : Name => Account

namespace Maps

def empty : Maps := ⟨∅, ∅, ∅, ∅⟩

section Filing

variable {α κ : Type} [DecidableEq κ]

/-- File a record under a key that must be free. The label names the record if it is not. -/
def add (map : Finmap fun _ : κ => α) (label : String) (key : κ) (record : α) :
    Except StoreError (Finmap fun _ : κ => α) :=
  if key ∈ map then .error (.alreadyExists label) else .ok (map.insert key record)

/-- Change the record that must be filed under a key. -/
def change (map : Finmap fun _ : κ => α) (label : String) (key : κ) (revise : α → α) :
    Except StoreError (Finmap fun _ : κ => α) :=
  match map.lookup key with
  | some record => .ok (map.insert key (revise record))
  | none => .error (.notFound label)

end Filing

/-- Tokens are added one after the other. If one of them fails, none is added. -/
def addTokens (map : Finmap fun _ : TokenKey => Token) (batch : List Token) :
    Except StoreError (Finmap fun _ : TokenKey => Token) :=
  batch.foldlM (fun map token => add map (Store.tokenLabel token.domain token.name) token.key token)
    map

def ask (maps : Maps) : (query : Query) → Except StoreError query.Answer
  | .existsDomain name => .ok (decide (name ∈ maps.domains))
  | .readDomain name => Store.found (Store.domainLabel name) (maps.domains.lookup name)
  | .existsGroup id => .ok (decide (id ∈ maps.groups))
  | .readGroup id => Store.found (Store.groupLabel id) (maps.groups.lookup id)
  | .existsToken domain name => .ok (decide (⟨domain, name⟩ ∈ maps.tokens))
  | .readToken domain name =>
      Store.found (Store.tokenLabel domain name) (maps.tokens.lookup ⟨domain, name⟩)
  | .existsAccount name => .ok (decide (name ∈ maps.accounts))
  | .readAccount name => Store.found (Store.accountLabel name) (maps.accounts.lookup name)

def perform (maps : Maps) : Write → Except StoreError Maps
  | .addDomain domain =>
      (add maps.domains (Store.domainLabel domain.name) domain.name domain).map
        fun domains => { maps with domains }
  | .updateDomain domain =>
      (change maps.domains (Store.domainLabel domain.name) domain.name fun _ => domain).map
        fun domains => { maps with domains }
  | .addGroup group =>
      (add maps.groups (Store.groupLabel group.id) group.id group).map
        fun groups => { maps with groups }
  | .updateGroup group =>
      (change maps.groups (Store.groupLabel group.id) group.id fun _ => group).map
        fun groups => { maps with groups }
  | .issueTokens batch => (addTokens maps.tokens batch).map fun tokens => { maps with tokens }
  | .transferToken domain name owner =>
      (change maps.tokens (Store.tokenLabel domain name) ⟨domain, name⟩
        fun token => { token with owner }).map fun tokens => { maps with tokens }
  | .addAccount account =>
      (add maps.accounts (Store.accountLabel account.name) account.name account).map
        fun accounts => { maps with accounts }
  | .updateAccount account =>
      (change maps.accounts (Store.accountLabel account.name) account.name fun _ => account).map
        fun accounts => { maps with accounts }

end Maps

section Tables

variable {α κ : Type} [Keyed α κ] [LT κ] [DecidableEq κ]

/-- The table holds the records of the map. -/
def Table.Matches (table : Table α) (map : Finmap fun _ : κ => α) : Prop :=
  ∀ key, map.lookup key = table.get? key

namespace Table.Matches

variable {table : Table α} {map : Finmap fun _ : κ => α}

theorem mem_iff (same : table.Matches map) {key : κ} : key ∈ map ↔ table.contains key = true := by
  rw [← Finmap.lookup_isSome, same key]
  rfl

theorem decide_mem (same : table.Matches map) (key : κ) :
    decide (key ∈ map) = table.contains key := by
  rw [Bool.eq_iff_iff, decide_eq_true_iff, same.mem_iff]

theorem empty : (Table.empty : Table α).Matches ∅ := fun _ => rfl

variable [LE κ] [Std.IsLinearOrder κ] [Std.LawfulOrderLT κ] [DecidableLT κ]

theorem insert (same : table.Matches map) (record : α) :
    (table.insert record).Matches (map.insert (Keyed.key record) record) := by
  intro key
  rw [get?_insert]
  split
  case isTrue here => rw [← here, Finmap.lookup_insert]
  case isFalse elsewhere => rw [Finmap.lookup_insert_of_ne _ (Ne.symm elsewhere), same key]

end Table.Matches

end Tables

/-- Both come out well, with results that are related, or both fail with the same error. -/
inductive Alike {α β : Type} (related : α → β → Prop) :
    Except StoreError α → Except StoreError β → Prop where
  | ok {a : α} {b : β} (results : related a b) : Alike related (.ok a) (.ok b)
  | error (error : StoreError) : Alike related (.error error) (.error error)

theorem Alike.map {α β γ δ : Type} {related : α → β → Prop} {related' : γ → δ → Prop}
    {first : Except StoreError α} {second : Except StoreError β}
    (alike : Alike related first second) (f : α → γ) (g : β → δ)
    (kept : ∀ a b, related a b → related' (f a) (g b)) :
    Alike related' (first.map f) (second.map g) := by
  cases alike with
  | ok results => exact .ok (kept _ _ results)
  | error error => exact .error error

section Filing

variable {α κ : Type} [Keyed α κ] [LT κ] [DecidableEq κ] [LE κ] [Std.IsLinearOrder κ]
  [Std.LawfulOrderLT κ] [DecidableLT κ] {table : Table α} {map : Finmap fun _ : κ => α}

theorem Table.Matches.add (same : table.Matches map) (label : String) (record : α) :
    Alike Table.Matches
      (if table.contains (Keyed.key record) then .error (.alreadyExists label)
        else .ok (table.insert record))
      (Maps.add map label (Keyed.key record) record) := by
  simp only [Maps.add, same.mem_iff]
  split
  · exact .error _
  · exact .ok (same.insert record)

theorem Table.Matches.replace (same : table.Matches map) (label : String) (record : α) :
    Alike Table.Matches
      (if table.contains (Keyed.key record) then .ok (table.insert record)
        else .error (.notFound label))
      (Maps.change map label (Keyed.key record) fun _ => record) := by
  cases found : table.get? (Keyed.key record) with
  | none =>
      simp only [Maps.change, same (Keyed.key record), Table.contains, found]
      exact .error _
  | some stored =>
      simp only [Maps.change, same (Keyed.key record), Table.contains, found]
      exact .ok (same.insert record)

/-- A change that leaves the key of the record alone is made by filing the record again. -/
theorem Table.Matches.change (same : table.Matches map) (label : String) (key : κ)
    (revise : α → α) (named : ∀ record, Keyed.key (revise record) = Keyed.key record) :
    Alike Table.Matches
      (match table.get? key with
        | some record => .ok (table.insert (revise record))
        | none => .error (.notFound label))
      (Maps.change map label key revise) := by
  cases found : table.get? key with
  | none =>
      simp only [Maps.change, same key, found]
      exact .error _
  | some record =>
      simp only [Maps.change, same key, found]
      have inserted := same.insert (revise record)
      rw [named record, Table.key_of_get? found] at inserted
      exact .ok inserted

end Filing

/-- Whether a token collides is seen in the table and the keys that came earlier, or in the table
with the earlier tokens in it. -/
theorem Table.Matches.addTokens {table now : Table Token} {map : Finmap fun _ : TokenKey => Token}
    {earlier : List TokenKey} (same : now.Matches map)
    (grown : ∀ key, now.contains key = (table.contains key || decide (key ∈ earlier)))
    (batch : List Token) :
    Alike Table.Matches
      (match Store.collision? table earlier batch with
        | some token => .error (.alreadyExists (Store.tokenLabel token.domain token.name))
        | none => .ok (batch.foldl Table.insert now))
      (Maps.addTokens map batch) := by
  induction batch generalizing now map earlier with
  | nil => exact .ok same
  | cons token rest inductionHypothesis =>
      have filed := same.add (Store.tokenLabel token.domain token.name) token
      simp only [key_token, grown] at filed
      simp only [Maps.addTokens, List.foldlM_cons, List.foldl_cons]
      generalize Maps.add map _ _ _ = added at filed ⊢
      cases collides : (table.contains token.key || decide (token.key ∈ earlier)) with
      | true =>
          simp only [collides, if_true, Store.collision?] at filed ⊢
          cases filed
          exact .error _
      | false =>
          simp only [collides, Bool.false_eq_true, if_false, Store.collision?] at filed ⊢
          cases filed with
          | ok results =>
              refine inductionHypothesis results ?_
              intro key
              by_cases here : token.key = key
              · simp [here]
              · simp [here, Ne.symm here, grown]

/-- Each table holds the records of the map of its kind. -/
structure Store.Matches (store : Store) (maps : Maps) : Prop where
  domains : store.domains.Matches maps.domains
  groups : store.groups.Matches maps.groups
  tokens : store.tokens.Matches maps.tokens
  accounts : store.accounts.Matches maps.accounts

namespace Store.Matches

variable {store : Store} {maps : Maps}

theorem empty : Store.empty.Matches .empty :=
  ⟨Table.Matches.empty, Table.Matches.empty, Table.Matches.empty, Table.Matches.empty⟩

theorem ask (same : store.Matches maps) (query : Query) : store.ask query = maps.ask query := by
  cases query with
  | existsDomain name => simp only [Store.ask, Maps.ask, same.domains.decide_mem]
  | readDomain name => simp only [Store.ask, Maps.ask, same.domains name]
  | existsGroup id => simp only [Store.ask, Maps.ask, same.groups.decide_mem]
  | readGroup id => simp only [Store.ask, Maps.ask, same.groups id]
  | existsToken domain name => simp only [Store.ask, Maps.ask, same.tokens.decide_mem]
  | readToken domain name => simp only [Store.ask, Maps.ask, same.tokens ⟨domain, name⟩]
  | existsAccount name => simp only [Store.ask, Maps.ask, same.accounts.decide_mem]
  | readAccount name => simp only [Store.ask, Maps.ask, same.accounts name]

section Parts

variable (same : store.Matches maps)
include same

theorem withDomains {tables : Except StoreError (Table Domain)}
    {maps' : Except StoreError (Finmap fun _ : Name => Domain)}
    (alike : Alike Table.Matches tables maps') :
    Alike Store.Matches (tables.map fun domains => { store with domains })
      (maps'.map fun domains => { maps with domains }) :=
  alike.map _ _ fun _ _ domains => ⟨domains, same.groups, same.tokens, same.accounts⟩

theorem withGroups {tables : Except StoreError (Table Group)}
    {maps' : Except StoreError (Finmap fun _ : GroupId => Group)}
    (alike : Alike Table.Matches tables maps') :
    Alike Store.Matches (tables.map fun groups => { store with groups })
      (maps'.map fun groups => { maps with groups }) :=
  alike.map _ _ fun _ _ groups => ⟨same.domains, groups, same.tokens, same.accounts⟩

theorem withTokens {tables : Except StoreError (Table Token)}
    {maps' : Except StoreError (Finmap fun _ : TokenKey => Token)}
    (alike : Alike Table.Matches tables maps') :
    Alike Store.Matches (tables.map fun tokens => { store with tokens })
      (maps'.map fun tokens => { maps with tokens }) :=
  alike.map _ _ fun _ _ tokens => ⟨same.domains, same.groups, tokens, same.accounts⟩

theorem withAccounts {tables : Except StoreError (Table Account)}
    {maps' : Except StoreError (Finmap fun _ : Name => Account)}
    (alike : Alike Table.Matches tables maps') :
    Alike Store.Matches (tables.map fun accounts => { store with accounts })
      (maps'.map fun accounts => { maps with accounts }) :=
  alike.map _ _ fun _ _ accounts => ⟨same.domains, same.groups, same.tokens, accounts⟩

end Parts

theorem perform (same : store.Matches maps) (write : Write) :
    Alike Store.Matches (store.perform write) (maps.perform write) := by
  cases write with
  | addDomain domain =>
      have filed := same.withDomains (same.domains.add (domainLabel domain.name) domain)
      rwa [apply_ite (Except.map _)] at filed
  | updateDomain domain =>
      have filed := same.withDomains (same.domains.replace (domainLabel domain.name) domain)
      rwa [apply_ite (Except.map _)] at filed
  | addGroup group =>
      have filed := same.withGroups (same.groups.add (groupLabel group.id) group)
      rwa [apply_ite (Except.map _)] at filed
  | updateGroup group =>
      have filed := same.withGroups (same.groups.replace (groupLabel group.id) group)
      rwa [apply_ite (Except.map _)] at filed
  | issueTokens batch =>
      have fresh (key : TokenKey) : store.tokens.contains key =
          (store.tokens.contains key || decide (key ∈ ([] : List TokenKey))) := by simp
      have filed := same.withTokens (same.tokens.addTokens fresh batch)
      simp only [Store.perform, issue]
      cases collides : collision? store.tokens [] batch <;> rwa [collides] at filed
  | transferToken domain name owner =>
      have filed := same.withTokens (same.tokens.change (tokenLabel domain name) ⟨domain, name⟩
        (fun token => { token with owner }) fun _ => rfl)
      simp only [Store.perform]
      cases found : store.tokens.get? ⟨domain, name⟩ <;> rwa [found] at filed
  | addAccount account =>
      have filed := same.withAccounts (same.accounts.add (accountLabel account.name) account)
      rwa [apply_ite (Except.map _)] at filed
  | updateAccount account =>
      have filed := same.withAccounts (same.accounts.replace (accountLabel account.name) account)
      rwa [apply_ite (Except.map _)] at filed

end Store.Matches

end TokenLedger
