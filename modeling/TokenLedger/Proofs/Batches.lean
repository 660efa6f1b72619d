import TokenLedger.Proofs.Commit
import TokenLedger.Proofs.Supply

/-!
Issuing tokens as a batch, and one by one.

A batch is looked through before anything is written, and the tokens seen on the way stand for those
that would be filed by then (`Store.collision?_insert`). So a batch comes to the same as its tokens
issued one after the other (`Store.perform_issueTokens`), only that a batch that is turned down
leaves nothing behind. Tokens with different keys may be issued in any order
(`Table.foldl_insert_perm`).
-/

set_option autoImplicit false

namespace TokenLedger

namespace Table

variable {α κ : Type} [Keyed α κ] [LT κ] [LE κ] [Std.IsLinearOrder κ] [Std.LawfulOrderLT κ]
  [DecidableLT κ] [DecidableEq κ]

theorem size_insert_of_fresh (table : Table α) {record : α}
    (fresh : table.contains (Keyed.key record) = false) :
    (table.insert record).size = table.size + 1 := by
  have counted := table.sum_map_insert record fun _ => 1
  rw [contains_eq_false_iff.mp fresh] at counted
  simp only [List.map_const', List.sum_replicate_int, Option.map_none, Option.getD_none] at counted
  simp only [size]
  omega

/-- Records with different keys may be filed in any order. -/
theorem foldl_insert_perm (table : Table α) {batch other : List α} (reordered : batch.Perm other)
    (distinct : (batch.map Keyed.key).Nodup) :
    batch.foldl insert table = other.foldl insert table := by
  have distinct' := (reordered.map Keyed.key).nodup_iff.mp distinct
  apply ext_get?
  intro k
  by_cases filed : ∃ record ∈ batch, Keyed.key record = k
  · obtain ⟨record, listed, rfl⟩ := filed
    rw [table.get?_foldl_insert_of_mem distinct listed,
      table.get?_foldl_insert_of_mem distinct' (reordered.mem_iff.mp listed)]
  · have others : ∀ record ∈ batch, Keyed.key record ≠ k := fun record listed same =>
      filed ⟨record, listed, same⟩
    rw [table.get?_foldl_insert_of_forall_ne batch others,
      table.get?_foldl_insert_of_forall_ne other fun record listed =>
        others record (reordered.mem_iff.mpr listed)]

end Table

namespace Store

section Collisions

variable {tokens tokens' : Table Token} {earlier earlier' : List TokenKey}

theorem collision?_congr
    (same : ∀ key, tokens.contains key = true ∨ key ∈ earlier ↔
      tokens'.contains key = true ∨ key ∈ earlier') (batch : List Token) :
    collision? tokens earlier batch = collision? tokens' earlier' batch := by
  induction batch generalizing earlier earlier' with
  | nil => rfl
  | cons token rest inductionHypothesis =>
      simp only [collision?, Bool.or_eq_true, decide_eq_true_eq, same token.key]
      split
      · rfl
      · refine inductionHypothesis fun key => ?_
        rw [List.mem_cons, List.mem_cons, or_left_comm, same key, or_left_comm]

/-- A token seen earlier in the batch stands in the way like one that is filed. -/
theorem collision?_insert (tokens : Table Token) (token : Token) (batch : List Token) :
    collision? (tokens.insert token) [] batch = collision? tokens [token.key] batch := by
  refine collision?_congr (fun key => ?_) batch
  rw [Table.contains_insert, key_token, Bool.or_eq_true, decide_eq_true_eq, List.mem_singleton]
  simp only [List.not_mem_nil, or_false]
  exact or_comm.trans (or_congr_right eq_comm)

/-- Looking a batch through is looking at its first token, and at the others once it is filed. -/
theorem collision?_cons (tokens : Table Token) (token : Token) (rest : List Token) :
    collision? tokens [] (token :: rest) =
      if tokens.contains token.key = true then some token
      else collision? (tokens.insert token) [] rest := by
  simp only [collision?, collision?_insert, List.not_mem_nil, decide_false, Bool.or_false]

end Collisions

/-- Issue the tokens one at a time, up to the first that is turned down. -/
def issueEach (store : Store) (batch : List Token) : Except StoreError Store :=
  batch.foldlM (fun current token => current.perform (.issueTokens [token])) store

theorem perform_issueTokens_singleton (store : Store) (token : Token) :
    store.perform (.issueTokens [token]) =
      if store.tokens.contains token.key = true then
        .error (.alreadyExists (tokenLabel token.domain token.name))
      else .ok { store with tokens := store.tokens.insert token } := by
  simp only [perform, issue, collision?_cons]
  cases store.tokens.contains token.key <;> rfl

theorem perform_issueTokens_cons (store : Store) (token : Token) (rest : List Token) :
    store.perform (.issueTokens (token :: rest)) =
      store.perform (.issueTokens [token]) >>= fun next => next.perform (.issueTokens rest) := by
  rw [perform_issueTokens_singleton]
  simp only [perform, issue, collision?_cons]
  cases store.tokens.contains token.key <;> rfl

/-- A batch comes to the same as its tokens issued one after the other. -/
theorem perform_issueTokens (store : Store) (batch : List Token) :
    store.perform (.issueTokens batch) = store.issueEach batch := by
  induction batch generalizing store with
  | nil => rfl
  | cons token rest inductionHypothesis =>
      rw [perform_issueTokens_cons, issueEach, List.foldlM_cons]
      exact congrArg _ (funext inductionHypothesis)

theorem size_of_perform_issueTokens {store after : Store} {batch : List Token}
    (issued : store.perform (.issueTokens batch) = .ok after) :
    after.tokens.size = store.tokens.size + batch.length := by
  induction batch generalizing store with
  | nil =>
      cases issued
      rfl
  | cons token rest inductionHypothesis =>
      rw [perform_issueTokens_cons] at issued
      obtain ⟨next, first, others⟩ := bind_eq_ok_iff.mp issued
      obtain ⟨⟨fresh, -⟩, rfl⟩ := perform_eq_ok_iff.mp first
      have grown : (store.tokens.insert token).size = store.tokens.size + 1 :=
        store.tokens.size_insert_of_fresh (fresh token (List.mem_singleton_self token))
      rw [inductionHypothesis others, List.length_cons, written, List.foldl_cons, List.foldl_nil,
        grown]
      omega

theorem perform_issueTokens_of_perm {store after : Store} {batch other : List Token}
    (reordered : batch.Perm other) (issued : store.perform (.issueTokens batch) = .ok after) :
    store.perform (.issueTokens other) = .ok after := by
  obtain ⟨⟨fresh, distinct⟩, rfl⟩ := perform_eq_ok_iff.mp issued
  refine perform_eq_ok_iff.mpr ⟨⟨fun token listed => ?_, ?_⟩, ?_⟩
  · exact fresh token (reordered.mem_iff.mpr listed)
  · exact (reordered.map Token.key).nodup_iff.mp distinct
  · rw [written, written, store.tokens.foldl_insert_perm reordered distinct]

/-- How a batch fares beside its tokens one at a time. -/
structure AllOrNothing (store : Store) (batch : List Token) : Prop where
  /-- Both go through or neither does, and they leave the same. -/
  issued : ∀ after, store.perform (.issueTokens batch) = .ok after ↔
    store.issueEach batch = .ok after
  counted : ∀ after, store.perform (.issueTokens batch) = .ok after →
    after.tokens.size = store.tokens.size + batch.length
  /-- The batch is turned down for the first token that would be turned down on its own. -/
  collides : ∀ error, store.perform (.issueTokens batch) = .error error →
    ∃ before token rest between, batch = before ++ token :: rest ∧
      store.issueEach before = .ok between ∧
      between.perform (.issueTokens [token]) = .error error ∧
      error = .alreadyExists (tokenLabel token.domain token.name)
  /-- The batch is looked through before any of it is filed, so nothing of it stays behind. -/
  untouched : ∀ error, store.perform (.issueTokens batch) = .error error →
    store.attempt (.issueTokens batch) = ⟨.error error, store⟩ ∧
      (store.performWith (.issueTokens batch) NoFaults.mk).result = .error (.store error) ∧
      (store.performWith (.issueTokens batch) NoFaults.mk).store = store
  reordered : ∀ other, batch.Perm other → ∀ after,
    store.perform (.issueTokens batch) = .ok after ↔ store.perform (.issueTokens other) = .ok after

/-- A batch is issued just if its tokens are when they come one after the other, and otherwise it
leaves the store alone. -/
theorem issueTokens_allOrNothing (store : Store) (batch : List Token) :
    store.AllOrNothing batch where
  issued after := by rw [perform_issueTokens]
  counted after issued := size_of_perform_issueTokens issued
  collides error failed := by
    rw [perform_issueTokens] at failed
    obtain ⟨before, token, rest, between, split, made, fails⟩ := exists_of_foldlM_eq_error failed
    refine ⟨before, token, rest, between, split, made, fails, ?_⟩
    rw [perform_issueTokens_singleton] at fails
    split at fails
    · exact (Except.error.inj fails).symm
    · cases fails
  untouched error failed := by
    have left := attempt_of_error failed
    simp only [performWith, strike_noFaults, left, and_self]
  reordered other reordered after :=
    ⟨perform_issueTokens_of_perm reordered, perform_issueTokens_of_perm reordered.symm⟩

end Store

end TokenLedger
