import Mathlib.Algebra.BigOperators.Group.Finset.Basic
import TokenLedger.Proofs.Journal

/-!
The tokens of a store, domain by domain.

Looking through all tokens for those of a domain finds exactly the ones that can be read under the
name of that domain, each once and in the order of their names. Nothing else could be found: a map
that is told its keys may hold a record under a key that the record does not carry, but no calls
bring that about (`Session.tokens_listed`).
-/

set_option autoImplicit false

namespace TokenLedger

namespace Store

variable (store : Store) {domain : Name} {token : Token}

theorem mem_tokensIn_iff :
    token ∈ store.tokensIn domain ↔ token ∈ store.tokens.toList ∧ token.domain = domain := by
  simp [tokensIn]

theorem mem_tokensIn_iff_get? :
    token ∈ store.tokensIn domain ↔
      token.domain = domain ∧ store.tokens.get? ⟨domain, token.name⟩ = some token := by
  rw [mem_tokensIn_iff, Table.mem_toList_iff, and_comm]
  refine and_congr_right fun same => ?_
  subst same
  rfl

theorem ascending_tokensIn (domain : Name) :
    (store.tokensIn domain).Pairwise fun a b => a.name < b.name := by
  refine (store.tokens.ascending.filter _).imp_of_mem ?_
  intro a b first second before
  have same : a.domain = b.domain :=
    (store.mem_tokensIn_iff.mp first).2.trans (store.mem_tokensIn_iff.mp second).2.symm
  rcases TokenKey.lt_iff.mp before with domains | ⟨-, names⟩
  · have less : a.domain < b.domain := domains
    rw [same] at less
    exact absurd less Std.lt_irrefl
  · exact names

/-- How many tokens a domain has is how often it is named by a token. -/
theorem length_tokensIn (domain : Name) :
    (store.tokensIn domain).length = (store.tokens.toList.map Token.domain).count domain := by
  rw [tokensIn, ← List.countP_eq_length_filter, List.count, List.countP_map]
  rfl

/-- Each token is counted in one domain. -/
theorem sum_length_tokensIn {domains : Finset Name}
    (all : ∀ token ∈ store.tokens.toList, token.domain ∈ domains) :
    ∑ domain ∈ domains, (store.tokensIn domain).length = store.tokens.size := by
  have named : ∀ domain ∈ (store.tokens.toList.map Token.domain : Multiset Name),
      domain ∈ domains := by
    intro domain listed
    obtain ⟨token, member, rfl⟩ := List.mem_map.mp (Multiset.mem_coe.mp listed)
    exact all token member
  simp only [length_tokensIn, ← Multiset.coe_count]
  rw [Multiset.sum_count_eq_card named, Multiset.coe_card, List.length_map, Table.size]

end Store

/-- A table holds as many records as the map that it matches holds keys. -/
theorem Table.Matches.card_keys {α κ : Type} [Keyed α κ] [LT κ] [DecidableEq κ] [LE κ]
    [Std.IsLinearOrder κ] [Std.LawfulOrderLT κ] {table : Table α} {map : Finmap fun _ : κ => α}
    (same : table.Matches map) : map.keys.card = table.size := by
  have distinct : (table.toList.map Keyed.key).Nodup := by
    refine List.pairwise_map.mpr (table.ascending.imp ?_)
    intro a b before same
    exact Std.lt_irrefl (same ▸ before)
  have keys : map.keys = (table.toList.map Keyed.key).toFinset := by
    ext key
    rw [Finmap.mem_keys, same.mem_iff, contains_iff, List.mem_toFinset, List.mem_map]
    exact exists_congr fun record => get?_eq_some_iff
  rw [keys, List.toFinset_card_of_nodup distinct, List.length_map, size]

/-- What listing tokens by their domains comes to. -/
structure Session.ListsTokens (session : Session) (maps : Maps) : Prop where
  ascending : ∀ domain, (session.store.tokensIn domain).Pairwise fun a b => a.name < b.name
  read_iff : ∀ domain token, token ∈ session.store.tokensIn domain ↔
    token.domain = domain ∧ session.store.ask (.readToken domain token.name) = .ok token
  /-- The map is told its keys, and the tokens found are all that name the domain, under whatever
  key. -/
  filed_iff : ∀ domain token, token ∈ session.store.tokensIn domain ↔
    token.domain = domain ∧ ∃ key, maps.tokens.lookup key = some token
  /-- No domain with a token may be left out of those that are added up. -/
  total : ∀ domains : Finset Name,
    (∀ token ∈ session.store.tokens.toList, token.domain ∈ domains) →
      ∑ domain ∈ domains, (session.store.tokensIn domain).length = session.store.tokens.size
  count : maps.tokens.keys.card = session.store.tokens.size

/-- Whatever calls a store has had since it was empty, the tokens of a domain are listed in order,
all of them and no others. -/
theorem Session.tokens_listed (requests : List Request) :
    (after requests).ListsTokens (.after requests) := by
  have matching := (sound_after requests).matching
  generalize after requests = session at matching ⊢
  generalize Maps.after requests = maps at matching ⊢
  constructor
  case ascending => exact session.store.ascending_tokensIn
  case read_iff =>
    intro domain token
    rw [Store.mem_tokensIn_iff_get?, Store.ask, found_eq_ok_iff]
  case filed_iff =>
    intro domain token
    rw [Store.mem_tokensIn_iff, Table.mem_toList_iff, and_comm]
    refine and_congr_right fun _ => ⟨fun filed => ⟨_, (matching.tokens _).trans filed⟩, ?_⟩
    rintro ⟨key, filed⟩
    rw [matching.tokens key] at filed
    exact Table.key_of_get? filed ▸ filed
  case total => exact fun domains => session.store.sum_length_tokensIn
  case count => exact matching.tokens.card_keys

end TokenLedger
