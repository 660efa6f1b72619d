import TokenLedger.Proofs.Settlement
import TokenLedger.Proofs.Writes

/-!
What committing writes leaves behind.

A commit makes its writes in order up to the first that fails (`Store.commit_makes`). Without
faults it makes all of them, as soon as the store takes them one after the other.
-/

set_option autoImplicit false

namespace TokenLedger

namespace Store

/-- The store once the writes are made in order. -/
def rewritten (store : Store) (writes : List Write) : Store := writes.foldl written store

@[simp] theorem rewritten_nil (store : Store) : store.rewritten [] = store := rfl

@[simp] theorem rewritten_cons (store : Store) (write : Write) (rest : List Write) :
    store.rewritten (write :: rest) = (store.written write).rewritten rest := rfl

/-- The store takes the writes one after the other. -/
def AcceptsAll : Store → List Write → Prop
  | _, [] => True
  | store, write :: rest => store.Accepts write ∧ (store.written write).AcceptsAll rest

theorem lookup?_rewritten (store : Store) {writes : List Write} {key : RecordKey}
    (elsewhere : ∀ write ∈ writes, key ∉ write.keys) :
    (store.rewritten writes).lookup? key = store.lookup? key := by
  induction writes generalizing store with
  | nil => rfl
  | cons write rest inductionHypothesis =>
      have ⟨first, others⟩ := List.forall_mem_cons.mp elsewhere
      rw [rewritten_cons, inductionHypothesis (store.written write) others,
        store.lookup?_written first]

section Definitions

variable {store : Store} {definitions : List Group} {id : GroupId} {group : Group}

theorem rewritten_addGroup :
    store.rewritten (definitions.map Write.addGroup) =
      { store with groups := definitions.foldl Table.insert store.groups } := by
  induction definitions generalizing store with
  | nil => rfl
  | cons first rest inductionHypothesis => exact inductionHypothesis

@[simp] theorem domains_rewritten_addGroup :
    (store.rewritten (definitions.map Write.addGroup)).domains = store.domains := by
  rw [rewritten_addGroup]

theorem get?_groups_rewritten_addGroup
    (found : (store.rewritten (definitions.map Write.addGroup)).groups.get? id = some group) :
    group ∈ definitions ∨ store.groups.get? id = some group := by
  induction definitions generalizing store with
  | nil => exact .inr found
  | cons first rest inductionHypothesis =>
      rcases inductionHypothesis found with later | there
      · exact .inl (List.mem_cons_of_mem _ later)
      · simp only [written, Table.get?_insert] at there
        split at there
        · cases there
          exact .inl List.mem_cons_self
        · exact .inr there

theorem contains_groups_rewritten_addGroup :
    (store.rewritten (definitions.map Write.addGroup)).groups.contains id = true ↔
      store.groups.contains id = true ∨ ∃ group ∈ definitions, group.id = id := by
  induction definitions generalizing store with
  | nil => simp
  | cons first rest inductionHypothesis =>
      rw [List.map_cons, rewritten_cons, inductionHypothesis]
      simp only [written, Table.contains_insert, key_group, Bool.or_eq_true, decide_eq_true_eq,
        List.mem_cons, exists_eq_or_imp]
      rw [or_assoc, or_left_comm]

end Definitions

end Store

section Committing

variable {φ : Type}

def Call.write? : Call → Option Write
  | .ask _ => none
  | .perform write => some write

/-- The writes that were sent to the store. Only the last can have failed. -/
def Outcome.attempts (outcome : Outcome φ) : List Write := outcome.calls.filterMap Call.write?

/-- Of the writes to make, the first ones were made and the rest were not: the store failed at
the next one, if there was a next one. -/
structure Outcome.Makes (outcome : Outcome φ) (store : Store) (done rest : List Write) : Prop where
  accepted : store.AcceptsAll done
  store : outcome.store = store.rewritten done
  attempts : outcome.attempts = done ++ rest.take 1
  completes : rest = [] → outcome.result = .ok ()
  breaks : rest ≠ [] → ∃ error, outcome.result = .error (.store error)

variable [FaultSource φ]

namespace Store

theorem performWith_cases (store : Store) (write : Write) (faults : φ) :
    ∃ left : φ,
      (store.Accepts write ∧ store.performWith write faults =
        ⟨.ok (), store.written write, [.perform write], [.wrote write], left⟩) ∨
      ∃ error, store.performWith write faults =
        ⟨.error (.store error), store, [.perform write], [], left⟩ := by
  obtain ⟨left, ⟨after, performed, -, ran⟩ | ⟨error, -, ran⟩⟩ :=
    store.send_perform_cases write faults
  · obtain ⟨accepted, rfl⟩ := perform_eq_ok_iff.mp performed
    exact ⟨left, .inl ⟨accepted, ran⟩⟩
  · exact ⟨left, .inr ⟨error, ran⟩⟩

/-- A commit makes the writes in order, up to the first that fails. -/
theorem commit_makes (store : Store) (writes : List Write) (faults : φ) :
    ∃ done rest, writes = done ++ rest ∧
      (store.commit writes faults).Makes store done rest ∧
      (store.commit writes faults).calls = (done ++ rest.take 1).map Call.perform ∧
      (store.commit writes faults).log = done.map Event.wrote := by
  induction writes generalizing store faults with
  | nil => exact ⟨[], [], rfl, ⟨trivial, rfl, rfl, fun _ => rfl, nofun⟩, rfl, rfl⟩
  | cons write later inductionHypothesis =>
      unfold commit
      obtain ⟨left, ⟨accepted, first⟩ | ⟨error, first⟩⟩ := store.performWith_cases write faults
      · rw [first]
        obtain ⟨done, rest, split, makes, calls, log⟩ :=
          inductionHypothesis (store.written write) left
        refine ⟨write :: done, rest, by simp [split], ⟨⟨accepted, makes.accepted⟩, makes.store, ?_,
          makes.completes, makes.breaks⟩, by simp [calls], by simp [log]⟩
        have attempts := makes.attempts
        simp only [Outcome.attempts] at attempts ⊢
        simp [Call.write?, attempts]
      · rw [first]
        exact ⟨[], write :: later, rfl, ⟨trivial, rfl, rfl, nofun, fun _ => ⟨error, rfl⟩⟩, rfl, rfl⟩

theorem commit_noFaults (store : Store) {writes : List Write} (accepted : store.AcceptsAll writes) :
    (store.commit writes NoFaults.mk).result = .ok () ∧
      (store.commit writes NoFaults.mk).store = store.rewritten writes := by
  induction writes generalizing store with
  | nil => exact ⟨rfl, rfl⟩
  | cons write rest inductionHypothesis =>
      have ⟨taken, others⟩ := accepted
      have performed : store.perform write = .ok (store.written write) :=
        perform_eq_ok_iff.mpr ⟨taken, rfl⟩
      have first : store.performWith write NoFaults.mk =
          ⟨.ok (), store.written write, [.perform write], [.wrote write], .mk⟩ := by
        simp only [performWith, strike_noFaults, attempt_of_ok performed]
      unfold commit
      rw [first]
      exact inductionHypothesis (store.written write) others

end Store

end Committing

end TokenLedger
