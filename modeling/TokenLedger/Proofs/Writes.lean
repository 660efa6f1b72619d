import TokenLedger.Store

/-!
What a write does to a store that takes it.

`Store.Accepts` says when a write goes through and `Store.written` what it leaves behind,
so `Store.perform` is one by way of the other (`perform_eq_ok_iff`). A write changes nothing
but the entries under its own keys (`lookup?_written`).
-/

set_option autoImplicit false

namespace TokenLedger

section Distinct

variable {κ : Type} {earlier keys : List κ} {key : κ}

/-- The keys come once each, and none of them came earlier. -/
def Distinct (earlier keys : List κ) : Prop := (∀ key ∈ keys, key ∉ earlier) ∧ keys.Nodup

@[simp] theorem distinct_nil : Distinct earlier [] := ⟨nofun, .nil⟩

@[simp] theorem distinct_nil_left : Distinct [] keys ↔ keys.Nodup := by
  simp [Distinct]

theorem distinct_cons_iff :
    Distinct earlier (key :: keys) ↔ key ∉ earlier ∧ Distinct (key :: earlier) keys := by
  constructor
  · rintro ⟨fresh, distinct⟩
    have ⟨once, rest⟩ := List.nodup_cons.mp distinct
    refine ⟨fresh key List.mem_cons_self, ?_, rest⟩
    intro other member seen
    rcases List.mem_cons.mp seen with rfl | seen
    · exact once member
    · exact fresh other (List.mem_cons_of_mem _ member) seen
  · rintro ⟨first, fresh, rest⟩
    refine ⟨?_, List.nodup_cons.mpr ⟨?_, rest⟩⟩
    · intro other member seen
      rcases List.mem_cons.mp member with rfl | member
      · exact first seen
      · exact fresh other member (List.mem_cons_of_mem _ seen)
    · intro again
      exact fresh key again List.mem_cons_self

end Distinct

namespace Table

variable {α κ : Type} [Keyed α κ] [LT κ] [LE κ] [Std.IsLinearOrder κ] [Std.LawfulOrderLT κ]
  [DecidableLT κ] [DecidableEq κ]

@[simp] theorem contains_insert (table : Table α) (record : α) (k : κ) :
    (table.insert record).contains k = (Keyed.key record = k || table.contains k) := by
  by_cases same : Keyed.key record = k <;> simp [contains, same]

/-- Of two records with the same key the later one stays. -/
theorem insert_insert (table : Table α) {record other : α}
    (same : Keyed.key record = Keyed.key other) :
    (table.insert record).insert other = table.insert other := by
  apply ext_get?
  intro k
  simp only [get?_insert, same]
  split <;> rfl

/-- A batch leaves alone what none of its records is filed under. -/
theorem get?_foldl_insert_of_forall_ne (table : Table α) (batch : List α) {k : κ}
    (others : ∀ record ∈ batch, Keyed.key record ≠ k) :
    (batch.foldl insert table).get? k = table.get? k := by
  induction batch generalizing table with
  | nil => rfl
  | cons record rest inductionHypothesis =>
      have ⟨first, later⟩ := List.forall_mem_cons.mp others
      rw [List.foldl_cons, inductionHypothesis (table.insert record) later]
      simp [first]

/-- Of records with different keys none replaces another. -/
theorem get?_foldl_insert_of_mem (table : Table α) {batch : List α} {record : α}
    (distinct : (batch.map Keyed.key).Nodup) (member : record ∈ batch) :
    (batch.foldl insert table).get? (Keyed.key record) = some record := by
  induction batch generalizing table with
  | nil => exact absurd member List.not_mem_nil
  | cons first rest inductionHypothesis =>
      obtain ⟨once, distinct⟩ := List.nodup_cons.mp distinct
      rw [List.foldl_cons]
      rcases List.mem_cons.mp member with rfl | later
      · rw [get?_foldl_insert_of_forall_ne]
        · simp
        · intro other listed same
          exact once (List.mem_map.mpr ⟨other, listed, same⟩)
      · exact inductionHypothesis _ distinct later

/-- What is found after a batch was in it or was there before. -/
theorem mem_or_get?_of_get?_foldl_insert (table : Table α) {batch : List α} {k : κ} {record : α}
    (found : (batch.foldl insert table).get? k = some record) :
    record ∈ batch ∨ table.get? k = some record := by
  induction batch generalizing table with
  | nil => exact .inr found
  | cons first rest inductionHypothesis =>
      rcases inductionHypothesis _ found with later | there
      · exact .inl (List.mem_cons_of_mem _ later)
      · rw [get?_insert] at there
        split at there
        · cases there
          exact .inl List.mem_cons_self
        · exact .inr there

end Table

@[simp] theorem key_domain (domain : Domain) : Keyed.key domain = domain.name := rfl

@[simp] theorem key_group (group : Group) : Keyed.key group = group.id := rfl

@[simp] theorem key_token (token : Token) : Keyed.key token = token.key := rfl

@[simp] theorem key_account (account : Account) : Keyed.key account = account.name := rfl

/-- What a record is found under, whatever its kind. -/
inductive RecordKey where
  | domain (name : Name)
  | group (id : GroupId)
  | token (key : TokenKey)
  | account (name : Name)
  deriving DecidableEq, Repr

/-- A record of any kind. -/
inductive Entry where
  | domain (domain : Domain)
  | group (group : Group)
  | token (token : Token)
  | account (account : Account)
  deriving DecidableEq, Repr

/-- The keys that a write is about. -/
def Write.keys : Write → List RecordKey
  | .addDomain domain | .updateDomain domain => [.domain domain.name]
  | .addGroup group | .updateGroup group => [.group group.id]
  | .issueTokens batch => batch.map fun token => .token token.key
  | .transferToken domain name _ => [.token ⟨domain, name⟩]
  | .addAccount account | .updateAccount account => [.account account.name]

namespace Store

def lookup? (store : Store) : RecordKey → Option Entry
  | .domain name => (store.domains.get? name).map .domain
  | .group id => (store.groups.get? id).map .group
  | .token key => (store.tokens.get? key).map .token
  | .account name => (store.accounts.get? name).map .account

section Entries

variable {store other : Store}

@[simp] theorem lookup?_domain_iff {name : Name} {domain : Domain} :
    store.lookup? (.domain name) = some (.domain domain) ↔
      store.domains.get? name = some domain := by
  simp [lookup?]

@[simp] theorem lookup?_group_iff {id : GroupId} {group : Group} :
    store.lookup? (.group id) = some (.group group) ↔ store.groups.get? id = some group := by
  simp [lookup?]

@[simp] theorem lookup?_token_iff {key : TokenKey} {token : Token} :
    store.lookup? (.token key) = some (.token token) ↔ store.tokens.get? key = some token := by
  simp [lookup?]

@[simp] theorem lookup?_account_iff {name : Name} {account : Account} :
    store.lookup? (.account name) = some (.account account) ↔
      store.accounts.get? name = some account := by
  simp [lookup?]

theorem lookup?_domain_congr {name : Name} :
    store.lookup? (.domain name) = other.lookup? (.domain name) ↔
      store.domains.get? name = other.domains.get? name :=
  Option.map_inj_right fun _ _ => Entry.domain.inj

theorem lookup?_group_congr {id : GroupId} :
    store.lookup? (.group id) = other.lookup? (.group id) ↔
      store.groups.get? id = other.groups.get? id :=
  Option.map_inj_right fun _ _ => Entry.group.inj

theorem lookup?_token_congr {key : TokenKey} :
    store.lookup? (.token key) = other.lookup? (.token key) ↔
      store.tokens.get? key = other.tokens.get? key :=
  Option.map_inj_right fun _ _ => Entry.token.inj

theorem lookup?_account_congr {name : Name} :
    store.lookup? (.account name) = other.lookup? (.account name) ↔
      store.accounts.get? name = other.accounts.get? name :=
  Option.map_inj_right fun _ _ => Entry.account.inj

end Entries

/-- The store takes the write: what is to be added is not there, and what is to be replaced is. -/
def Accepts (store : Store) : Write → Prop
  | .addDomain domain => store.domains.contains domain.name = false
  | .updateDomain domain => store.domains.contains domain.name = true
  | .addGroup group => store.groups.contains group.id = false
  | .updateGroup group => store.groups.contains group.id = true
  | .issueTokens batch =>
      (∀ token ∈ batch, store.tokens.contains token.key = false) ∧ (batch.map Token.key).Nodup
  | .transferToken domain name _ => store.tokens.contains ⟨domain, name⟩ = true
  | .addAccount account => store.accounts.contains account.name = false
  | .updateAccount account => store.accounts.contains account.name = true

/-- The store once the write is made. -/
def written (store : Store) : Write → Store
  | .addDomain domain | .updateDomain domain =>
      { store with domains := store.domains.insert domain }
  | .addGroup group | .updateGroup group => { store with groups := store.groups.insert group }
  | .issueTokens batch => { store with tokens := batch.foldl Table.insert store.tokens }
  | .transferToken domain name owner =>
      match store.tokens.get? ⟨domain, name⟩ with
      | some token => { store with tokens := store.tokens.insert { token with owner } }
      | none => store
  | .addAccount account | .updateAccount account =>
      { store with accounts := store.accounts.insert account }

theorem collision?_eq_none_iff {tokens : Table Token} {earlier : List TokenKey}
    {batch : List Token} :
    collision? tokens earlier batch = none ↔
      (∀ token ∈ batch, tokens.contains token.key = false) ∧
        Distinct earlier (batch.map Token.key) := by
  induction batch generalizing earlier with
  | nil => simp [collision?]
  | cons token rest inductionHypothesis =>
      rw [List.forall_mem_cons, List.map_cons, distinct_cons_iff]
      unfold collision?
      by_cases stored : tokens.contains token.key = true
      · simp [stored]
      · by_cases seen : token.key ∈ earlier
        · simp [seen]
        · simp [stored, seen, inductionHypothesis]

theorem perform_eq_ok_iff {store after : Store} {write : Write} :
    store.perform write = .ok after ↔ store.Accepts write ∧ store.written write = after := by
  cases write with
  | addDomain domain | addGroup group | addAccount account =>
      simp only [perform, Accepts, written]
      split <;> simp_all
  | updateDomain domain | updateGroup group | updateAccount account =>
      simp only [perform, Accepts, written]
      split <;> simp_all
  | issueTokens batch =>
      have accepted :
          collision? store.tokens [] batch = none ↔ store.Accepts (.issueTokens batch) := by
        rw [collision?_eq_none_iff]
        simp [Accepts]
      simp only [perform, issue, written, ← accepted]
      cases collision? store.tokens [] batch <;> simp
  | transferToken domain name owner =>
      simp only [perform, Accepts, written, Table.contains]
      cases store.tokens.get? ⟨domain, name⟩ <;> simp

/-- A write is confined to its own keys. -/
theorem lookup?_written (store : Store) {write : Write} {key : RecordKey}
    (elsewhere : key ∉ write.keys) : (store.written write).lookup? key = store.lookup? key := by
  cases write with
  | addDomain domain | updateDomain domain =>
      cases key <;> simp_all [Write.keys, lookup?, written, eq_comm]
  | addGroup group | updateGroup group =>
      cases key <;> simp_all [Write.keys, lookup?, written, eq_comm]
  | addAccount account | updateAccount account =>
      cases key <;> simp_all [Write.keys, lookup?, written, eq_comm]
  | issueTokens batch =>
      cases key with
      | token key =>
          have others : ∀ token ∈ batch, Keyed.key token ≠ key := fun token member same =>
            elsewhere (List.mem_map.mpr ⟨token, member, congrArg RecordKey.token same⟩)
          simp only [lookup?, written,
            Table.get?_foldl_insert_of_forall_ne store.tokens batch others]
      | domain name | group id | account name => rfl
  | transferToken domain name owner =>
      simp only [written]
      cases found : store.tokens.get? ⟨domain, name⟩ with
      | none => rfl
      | some token =>
          have here : (⟨token.domain, token.name⟩ : TokenKey) = ⟨domain, name⟩ :=
            Table.key_of_get? found
          cases key with
          | token key =>
              have other : (⟨domain, name⟩ : TokenKey) ≠ key := by
                simpa [Write.keys, eq_comm] using elsewhere
              simp [lookup?, Token.key, here, other]
          | domain name | group id | account name => rfl

end Store

end TokenLedger
