import TokenLedger.Proofs.Application

/-!
An action that fails on a store without faults changes nothing, and it is the action's own fault
or that of the configuration.

Every read of a plan comes after the question whether the record is there, so no read fails; every
write was prepared by the checks, so no write fails (`Action.acceptsAll_of_settle`).
-/

set_option autoImplicit false

namespace TokenLedger

/-- If a result is a failure, then it is one of these. -/
def FailsOnly {α : Type} (allowed : Failure → Prop) : Except Failure α → Prop
  | .ok _ => True
  | .error failure => allowed failure

namespace FailsOnly

variable {α β : Type} {allowed : Failure → Prop}

theorem bind {first : Except Failure α} {next : α → Except Failure β}
    (start : FailsOnly allowed first)
    (rest : ∀ a, first = .ok a → FailsOnly allowed (next a)) :
    FailsOnly allowed (first >>= next) := by
  cases first with
  | error failure => exact start
  | ok a => exact rest a rfl

theorem mono {larger : Failure → Prop} {result : Except Failure α}
    (fails : FailsOnly allowed result) (implied : ∀ failure, allowed failure → larger failure) :
    FailsOnly larger result := by
  cases result with
  | error failure => exact implied failure fails
  | ok value => trivial

theorem forM {items : List β} {step : β → Except Failure Unit}
    (each : ∀ item ∈ items, FailsOnly allowed (step item)) :
    FailsOnly allowed (forM items step) := by
  induction items with
  | nil => trivial
  | cons item rest inductionHypothesis =>
      have ⟨first, others⟩ := List.forall_mem_cons.mp each
      rw [List.forM_cons]
      exact first.bind fun _ _ => inductionHypothesis others

theorem found {label : String} {record? : Option α} (there : record?.isSome = true) :
    FailsOnly allowed ((Store.found label record?).mapError .store) := by
  cases record? with
  | none => simp at there
  | some record => trivial

end FailsOnly

/-- A result that fails by a rejection that does not name the action yet, if at all. -/
abbrev RejectsOnly {α : Type} (result : Except Failure α) : Prop :=
  FailsOnly (fun failure => ∃ reason, failure = .ofReason reason) result

theorem rejectsOnly_ensure (condition : Bool) (reason : Reason) :
    RejectsOnly (ensure condition reason) := by
  unfold ensure
  split
  · trivial
  · exact ⟨reason, rfl⟩

theorem rejectsOnly_ensure_bind {α : Type} {condition : Bool} {reason : Reason}
    {next : Unit → Except Failure α} (rest : condition = true → RejectsOnly (next ())) :
    RejectsOnly (ensure condition reason >>= next) :=
  (rejectsOnly_ensure condition reason).bind fun _ passed => rest (ensure_eq_ok_iff.mp passed)

theorem rejectsOnly_checkDefinitions (earlier : List GroupId) (groups : List Group) :
    RejectsOnly (checkDefinitions earlier groups) := by
  induction groups generalizing earlier with
  | nil => trivial
  | cons group rest inductionHypothesis =>
      unfold checkDefinitions
      apply rejectsOnly_ensure_bind
      intro _
      apply rejectsOnly_ensure_bind
      intro _
      exact rejectsOnly_ensure_bind fun _ => inductionHypothesis _

theorem rejectsOnly_check (slot : Slot) (permission : Permission) :
    RejectsOnly (slot.check permission) :=
  rejectsOnly_ensure_bind fun _ => rejectsOnly_ensure _ _

section Plans

variable {store : Store}

theorem rejectsOnly_resolve (permission : Permission) (defined : List Group) (allowsOwner : Bool) :
    RejectsOnly ((permission.resolve defined allowsOwner).settle store) := by
  simp only [Permission.resolve, List.forM_eq_forM, Check.settle_forM]
  apply FailsOnly.forM
  intro reference _
  cases reference.id.isOwner <;> simp [resolveGroup, rejectsOnly_ensure]

theorem rejectsOnly_checkAbsent (defined : List Group) :
    RejectsOnly ((checkAbsent defined).settle store) := by
  simp only [checkAbsent, List.forM_eq_forM, Check.settle_forM]
  apply FailsOnly.forM
  intro group _
  simp [rejectsOnly_ensure]

theorem rejectsOnly_checkTokenNames (domain : Name) (earlier names : List Name) :
    RejectsOnly ((checkTokenNames domain earlier names).settle store) := by
  induction names generalizing earlier with
  | nil => trivial
  | cons name rest inductionHypothesis =>
      simp only [checkTokenNames, Check.settle_bind, Check.settle_ensure, Check.settle_existsToken,
        ok_bind]
      apply rejectsOnly_ensure_bind
      intro _
      apply rejectsOnly_ensure_bind
      intro _
      exact rejectsOnly_ensure_bind fun _ => inductionHypothesis _

theorem rejectsOnly_newDomain (action : NewDomain) (time : Instant) :
    RejectsOnly ((action.plan time).settle store) := by
  simp only [NewDomain.plan, Slot.all, List.forM_eq_forM, Check.settle_bind,
    Check.settle_existsDomain, Check.settle_ensure, Check.settle_ofExcept, Check.settle_forM,
    ok_bind]
  apply rejectsOnly_ensure_bind
  intro _
  apply (rejectsOnly_checkDefinitions _ _).bind
  intro _ _
  apply rejectsOnly_ensure_bind
  intro _
  apply (FailsOnly.forM fun slot _ => rejectsOnly_check slot _).bind
  intro _ _
  apply (FailsOnly.forM fun slot _ => rejectsOnly_resolve _ _ _).bind
  intro _ _
  exact (rejectsOnly_checkAbsent _).bind fun _ _ => trivial

theorem rejectsOnly_amend (action : UpdateDomain) (domain : Domain) (slot : Slot) :
    RejectsOnly ((action.amend domain slot).settle store) := by
  unfold UpdateDomain.amend
  cases action.permission? slot with
  | none => trivial
  | some permission =>
      simp only [Check.settle_bind, Check.settle_ofExcept]
      apply (rejectsOnly_check slot permission).bind
      intro _ _
      exact (rejectsOnly_resolve _ _ _).bind fun _ _ => trivial

theorem rejectsOnly_updateDomain (action : UpdateDomain) :
    RejectsOnly (action.plan.settle store) := by
  simp only [UpdateDomain.plan, Slot.all, List.foldlM_cons, List.foldlM_nil, Check.settle_bind,
    Check.settle_existsDomain, Check.settle_ensure, Check.settle_ofExcept, Check.settle_readDomain,
    ok_bind]
  apply rejectsOnly_ensure_bind
  intro known
  apply (rejectsOnly_checkDefinitions _ _).bind
  intro _ _
  apply rejectsOnly_ensure_bind
  intro _
  apply (FailsOnly.found known).bind
  intro stored _
  refine FailsOnly.bind ?_ fun _ _ => (rejectsOnly_checkAbsent _).bind fun _ _ => trivial
  apply (rejectsOnly_amend _ _ _).bind
  intro _ _
  apply (rejectsOnly_amend _ _ _).bind
  intro _ _
  exact (rejectsOnly_amend _ _ _).bind fun _ _ => trivial

theorem rejectsOnly_issueTokens (action : IssueTokens) :
    RejectsOnly (action.plan.settle store) := by
  simp only [IssueTokens.plan, Check.settle_bind, Check.settle_existsDomain, Check.settle_ensure,
    ok_bind]
  apply rejectsOnly_ensure_bind
  intro _
  apply rejectsOnly_ensure_bind
  intro _
  exact (rejectsOnly_checkTokenNames _ _ _).bind fun _ _ => trivial

theorem rejectsOnly_transferToken (action : TransferToken) :
    RejectsOnly (action.plan.settle store) := by
  simp only [TransferToken.plan, Check.settle_bind, Check.settle_existsToken, Check.settle_ensure,
    ok_bind]
  exact rejectsOnly_ensure_bind fun _ => trivial

theorem rejectsOnly_updateGroup (action : UpdateGroup) :
    RejectsOnly (action.plan.settle store) := by
  simp only [UpdateGroup.plan, Check.settle_bind, Check.settle_existsGroup, Check.settle_ensure,
    Check.settle_readGroup, ok_bind]
  apply rejectsOnly_ensure_bind
  intro known
  apply rejectsOnly_ensure_bind
  intro _
  apply (FailsOnly.found known).bind
  intro stored _
  exact rejectsOnly_ensure_bind fun _ => trivial

theorem failsOnly_newAccount (action : NewAccount) (time : Instant) (config : Config) :
    FailsOnly (fun failure => (∃ reason, failure = .ofReason reason) ∨
      ∃ error, failure = .config error ∧ config.check = .error error)
      ((action.plan time config).settle store) := by
  simp only [NewAccount.plan, Check.settle_bind, Check.settle_existsAccount, Check.settle_ensure,
    Check.settle_ofExcept, ok_bind]
  apply ((rejectsOnly_ensure _ _).mono fun _ => .inl).bind
  intro _ _
  apply ((rejectsOnly_ensure _ _).mono fun _ => .inl).bind
  intro _ _
  cases checked : config.check with
  | error error => exact .inr ⟨error, rfl, rfl⟩
  | ok _ => trivial

theorem rejectsOnly_updateOwner (action : UpdateOwner) :
    RejectsOnly (action.plan.settle store) := by
  simp only [UpdateOwner.plan, Check.settle_bind, Check.settle_existsAccount, Check.settle_ensure,
    Check.settle_readAccount, ok_bind]
  apply rejectsOnly_ensure_bind
  intro known
  apply rejectsOnly_ensure_bind
  intro _
  exact (FailsOnly.found known).bind fun stored _ => trivial

theorem rejectsOnly_transferBalance (action : TransferBalance) :
    RejectsOnly (action.plan.settle store) := by
  simp only [TransferBalance.plan, Check.settle_bind, Check.settle_existsAccount,
    Check.settle_ensure, Check.settle_readAccount, Check.settle_emit, ok_bind]
  apply rejectsOnly_ensure_bind
  intro sourceKnown
  apply rejectsOnly_ensure_bind
  intro targetKnown
  apply rejectsOnly_ensure_bind
  intro _
  apply rejectsOnly_ensure_bind
  intro _
  apply (FailsOnly.found sourceKnown).bind
  intro source _
  apply (FailsOnly.found targetKnown).bind
  intro target _
  apply rejectsOnly_ensure_bind
  intro _
  split
  · trivial
  · exact ⟨.balanceOverflow, rfl⟩

end Plans

namespace Failure

@[simp] theorem submittedAs_eq_store_iff {failure : Failure} {submission : Submission}
    {error : StoreError} :
    failure.submittedAs submission = .store error ↔ failure = .store error := by
  cases failure <;> simp [submittedAs]

@[simp] theorem submittedAs_eq_config_iff {failure : Failure} {submission : Submission}
    {error : ConfigError} :
    failure.submittedAs submission = .config error ↔ failure = .config error := by
  cases failure <;> simp [submittedAs]

end Failure

namespace Action

/-- Checking rejects an action for a reason without naming it, or the configuration is at fault. -/
theorem rejectsOnly_validate (context : Context) (action : Action) (store : Store) :
    FailsOnly (fun failure => (∃ reason, failure = .ofReason reason) ∨
      ∃ error, failure = .config error ∧ action.kind = .newAccount ∧
        context.config.check = .error error)
      ((action.validate context).settle store) := by
  have authorization : RejectsOnly ((context.require action.scope).settle store) := by
    unfold Context.require
    split
    · trivial
    · exact ⟨.unauthorized, rfl⟩
  unfold validate
  rw [Check.settle_bind]
  apply (authorization.mono fun _ => .inl).bind
  intro _ _
  cases action with
  | newDomain action => exact (rejectsOnly_newDomain action _).mono fun _ => .inl
  | updateDomain action => exact (rejectsOnly_updateDomain action).mono fun _ => .inl
  | issueTokens action => exact (rejectsOnly_issueTokens action).mono fun _ => .inl
  | transferToken action => exact (rejectsOnly_transferToken action).mono fun _ => .inl
  | updateGroup action => exact (rejectsOnly_updateGroup action).mono fun _ => .inl
  | newAccount action =>
      refine (failsOnly_newAccount action context.time context.config).mono ?_
      rintro failure (rejection | ⟨error, rfl, checked⟩)
      · exact .inl rejection
      · exact .inr ⟨error, rfl, rfl, checked⟩
  | updateOwner action => exact (rejectsOnly_updateOwner action).mono fun _ => .inl
  | transferBalance action => exact (rejectsOnly_transferBalance action).mono fun _ => .inl

theorem failsOnly_validate (context : Context) (action : Action) (store : Store) :
    FailsOnly (fun failure => failure.isRejection = true ∨
      ∃ error, failure = .config error ∧ action.kind = .newAccount ∧
        context.config.check = .error error)
      ((action.validate context).settle store) := by
  refine (rejectsOnly_validate context action store).mono fun failure => Or.imp_left ?_
  rintro ⟨reason, rfl⟩
  rfl

/-- Without faults no call to the store fails, the configuration is at fault only for a new
account and only if it does not pass its own check, and a failure leaves the store as it was. -/
theorem failure_noFaults (context : Context) (action : Action) (store : Store) :
    (∀ error, (action.apply context store NoFaults.mk).result ≠ .error (.store error)) ∧
      (∀ error, (action.apply context store NoFaults.mk).result = .error (.config error) →
        action.kind = .newAccount ∧ context.config.check = .error error) ∧
      ∀ failure, (action.apply context store NoFaults.mk).result = .error failure →
        (action.apply context store NoFaults.mk).store = store := by
  rcases apply_noFaults_cases context action store with
    ⟨failure, settled, result, same⟩ | ⟨plan, -, result, -⟩
  · have fails := failsOnly_validate context action store
    rw [settled] at fails
    rw [result]
    refine ⟨?_, ?_, fun _ _ => same⟩
    · intro error stored
      rcases fails with rejection | ⟨_, rfl, -, -⟩ <;> simp_all [Failure.isRejection]
    · intro error misconfigured
      rcases fails with rejection | ⟨_, rfl, kind, checked⟩ <;> simp_all [Failure.isRejection]
  · simp [result]

end Action

end TokenLedger
