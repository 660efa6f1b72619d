import TokenLedger.Proofs.Calls

/-!
What a check comes to when every call reaches the store.

`Check.settle` keeps the answers of the store and leaves out calls, events and faults. It
respects sequencing, so what a check settles to is read off its text. A run before a source
of faults either comes to the same, or ends in a failure of the store.
-/

set_option autoImplicit false

namespace TokenLedger

section Results

variable {ε α β : Type}

/-- Two steps come out well if the first does and the second does with its value. -/
theorem bind_eq_ok_iff {first : Except ε α} {next : α → Except ε β} {value : β} :
    (first >>= next) = .ok value ↔ ∃ a, first = .ok a ∧ next a = .ok value := by
  cases first with
  | error failure => exact ⟨nofun, nofun⟩
  | ok a => exact ⟨fun run => ⟨a, rfl, run⟩, fun ⟨_, rfl, run⟩ => run⟩

theorem exists_eq_ok_of_isOk {result : Except ε α} (fine : result.isOk = true) :
    ∃ value, result = .ok value := by
  cases result with
  | error failure => nomatch fine
  | ok value => exact ⟨value, rfl⟩

theorem eq_ok_of_isOk {result : Except ε Unit} (fine : result.isOk = true) : result = .ok () := by
  obtain ⟨⟨⟩, finished⟩ := exists_eq_ok_of_isOk fine
  exact finished

@[simp] theorem exists_unit_iff {holds : Unit → Prop} : (∃ u, holds u) ↔ holds () :=
  ⟨fun ⟨_, h⟩ => h, fun h => ⟨(), h⟩⟩

@[simp] theorem pure_eq_ok_iff {a value : α} : (pure a : Except ε α) = .ok value ↔ a = value :=
  ⟨Except.ok.inj, congrArg Except.ok⟩

@[simp] theorem ok_bind (a : α) (next : α → Except ε β) : (Except.ok a >>= next) = next a := rfl

@[simp] theorem mapError_eq_ok_iff {δ : Type} {wrap : ε → δ} {result : Except ε α} {value : α} :
    result.mapError wrap = .ok value ↔ result = .ok value := by
  cases result with
  | error failure => exact ⟨nofun, nofun⟩
  | ok a =>
      constructor
      · intro same
        exact congrArg Except.ok (Except.ok.inj same)
      · intro same
        exact congrArg Except.ok (Except.ok.inj same)

theorem map_eq_error_iff {make : α → β} {result : Except ε α} {error : ε} :
    result.map make = .error error ↔ result = .error error := by
  cases result <;> simp [Except.map]

theorem mapError_found {wrap : StoreError → Failure} (label : String) {record? : Option α}
    {record : α} (there : record? = some record) :
    (Store.found label record?).mapError wrap = .ok record :=
  there ▸ rfl

@[simp] theorem found_eq_ok_iff {label : String} {record? : Option α} {record : α} :
    Store.found label record? = .ok record ↔ record? = some record := by
  cases record? <;> simp [Store.found]

theorem forM_eq_ok_iff {items : List β} {step : β → Except ε Unit} :
    forM items step = .ok () ↔ ∀ item ∈ items, step item = .ok () := by
  induction items with
  | nil => simp
  | cons item rest inductionHypothesis =>
      simp only [List.forM_cons, bind_eq_ok_iff, inductionHypothesis, List.forall_mem_cons,
        exists_unit_iff]

/-- Where a run of steps fails, the steps before came out well. -/
theorem exists_of_foldlM_eq_error {step : α → β → Except ε α} {items : List β} {start : α}
    {error : ε} (failed : items.foldlM step start = .error error) :
    ∃ before item after value, items = before ++ item :: after ∧
      before.foldlM step start = .ok value ∧ step value item = .error error := by
  induction items generalizing start with
  | nil => exact nomatch failed
  | cons first rest inductionHypothesis =>
      rw [List.foldlM_cons] at failed
      cases taken : step start first with
      | error failure =>
          rw [taken] at failed
          cases failed
          exact ⟨[], first, rest, start, rfl, rfl, taken⟩
      | ok next =>
          rw [taken] at failed
          obtain ⟨before, item, after, value, rfl, made, fails⟩ := inductionHypothesis failed
          refine ⟨first :: before, item, after, value, rfl, ?_, fails⟩
          rw [List.foldlM_cons, taken]
          exact made

@[simp] theorem ensure_eq_ok_iff {condition : Bool} {reason : Reason} {value : Unit} :
    ensure condition reason = .ok value ↔ condition = true := by
  unfold ensure
  split <;> simp_all

end Results

namespace Check

variable {α β : Type}

/-- What a check comes to if every call reaches the store. -/
def settle (store : Store) : Check α → Except Failure α
  | .done value => .ok value
  | .fail failure => .error failure
  | .note _ next => next.settle store
  | .ask query next =>
      match store.ask query with
      | .error error => .error (.store error)
      | .ok answer => (next answer).settle store

section Sequencing

variable (store : Store)

@[simp] theorem settle_pure (value : α) : (pure value : Check α).settle store = .ok value := rfl

@[simp] theorem settle_fail (failure : Failure) :
    (Check.fail failure : Check α).settle store = .error failure := rfl

@[simp] theorem settle_bind (check : Check α) (next : α → Check β) :
    (check >>= next).settle store = check.settle store >>= fun a => (next a).settle store := by
  change (check.bind next).settle store = _
  induction check with
  | done value => rfl
  | fail failure => rfl
  | note event rest inductionHypothesis => exact inductionHypothesis
  | ask query rest inductionHypothesis =>
      simp only [bind, settle]
      cases store.ask query with
      | error error => rfl
      | ok answer => exact inductionHypothesis answer

theorem settle_query (question : Query) :
    (query question).settle store = (store.ask question).mapError .store := by
  simp only [query, settle]
  cases store.ask question <;> rfl

@[simp] theorem settle_existsDomain (name : Name) :
    settle (α := Bool) store (query (.existsDomain name)) = .ok (store.domains.contains name) := rfl

@[simp] theorem settle_existsGroup (id : GroupId) :
    settle (α := Bool) store (query (.existsGroup id)) = .ok (store.groups.contains id) := rfl

@[simp] theorem settle_existsToken (domain name : Name) :
    settle (α := Bool) store (query (.existsToken domain name)) =
      .ok (store.tokens.contains ⟨domain, name⟩) := rfl

@[simp] theorem settle_existsAccount (name : Name) :
    settle (α := Bool) store (query (.existsAccount name)) = .ok (store.accounts.contains name) :=
  rfl

@[simp] theorem settle_readDomain (name : Name) :
    settle (α := Domain) store (query (.readDomain name)) =
      (Store.found (Store.domainLabel name) (store.domains.get? name)).mapError .store :=
  settle_query store (.readDomain name)

@[simp] theorem settle_readGroup (id : GroupId) :
    settle (α := Group) store (query (.readGroup id)) =
      (Store.found (Store.groupLabel id) (store.groups.get? id)).mapError .store :=
  settle_query store (.readGroup id)

@[simp] theorem settle_readAccount (name : Name) :
    settle (α := Account) store (query (.readAccount name)) =
      (Store.found (Store.accountLabel name) (store.accounts.get? name)).mapError .store :=
  settle_query store (.readAccount name)

@[simp] theorem settle_emit (event : Event) : (emit event).settle store = .ok () := rfl

@[simp] theorem settle_ofExcept (result : Except Failure α) :
    (ofExcept result).settle store = result := by
  cases result <;> rfl

@[simp] theorem settle_ensure (condition : Bool) (reason : Reason) :
    (Check.ensure condition reason).settle store = TokenLedger.ensure condition reason :=
  settle_ofExcept store _

@[simp] theorem settle_forM (items : List β) (step : β → Check Unit) :
    (forM items step).settle store = forM items fun item => (step item).settle store := by
  induction items with
  | nil => rfl
  | cons item rest inductionHypothesis => simp [inductionHypothesis]

theorem settle_foldlM (items : List β) (step : α → β → Check α) (start : α) :
    (items.foldlM step start).settle store =
      items.foldlM (fun value item => (step value item).settle store) start := by
  induction items generalizing start with
  | nil => rfl
  | cons item rest inductionHypothesis => simp [inductionHypothesis]

end Sequencing

variable {φ : Type} [FaultSource φ]

/-- A run comes to what the check settles to, unless a call fails. -/
theorem result_run_cases (store : Store) (check : Check α) (faults : φ) :
    (check.run store faults).result = check.settle store ∨
      ∃ error, (check.run store faults).result = .error (.store error) := by
  induction check generalizing faults with
  | done value => exact .inl rfl
  | fail failure => exact .inl rfl
  | note event next inductionHypothesis => exact inductionHypothesis faults
  | ask query next inductionHypothesis =>
      obtain ⟨left, ⟨answer, asked, -, ran⟩ | ⟨error, -, ran⟩⟩ :=
        run_ask_cases store query next faults
      · simp only [ran, settle, asked]
        exact inductionHypothesis answer left
      · exact .inr ⟨error, by rw [ran]⟩

theorem settle_eq_ok_of_run {store : Store} {check : Check α} {faults : φ} {value : α}
    (run : (check.run store faults).result = .ok value) : check.settle store = .ok value := by
  rcases check.result_run_cases store faults with same | ⟨error, failed⟩
  · exact same ▸ run
  · simp [failed] at run

theorem result_run_noFaults (store : Store) (check : Check α) :
    (check.run store NoFaults.mk).result = check.settle store := by
  induction check with
  | done value => rfl
  | fail failure => rfl
  | note event next inductionHypothesis => exact inductionHypothesis
  | ask query next inductionHypothesis =>
      simp only [run, settle, strike_noFaults]
      cases store.ask query with
      | error error => rfl
      | ok answer => exact inductionHypothesis answer

end Check

end TokenLedger
