import TokenLedger.Apply

/-!
What the authorization of an action decides.

An action consults the authority about one scope, which is named by the action alone, before it asks
the store anything. So two authorities that agree on that scope are the same to it, and an action
that is denied learns nothing: whatever the store holds, it is turned away in the same words.
-/

set_option autoImplicit false

namespace TokenLedger

/-- Checking came to an end without authority, and nothing was asked. -/
structure Check.Report.TurnsAway {φ : Type} (report : Check.Report φ Plan) (faults : φ) : Prop where
  result : report.result = .error (.rejected ⟨.unauthorized, none⟩)
  calls : report.calls = []
  faults : report.faults = faults

/-- The action was rejected without authority, and the store was not called. -/
structure Outcome.TurnsAway {φ : Type} (outcome : Outcome φ) (action : Action) (store : Store)
    (faults : φ) : Prop where
  result : outcome.result =
    .error (.rejected ⟨.unauthorized, some ⟨action.kind.name, action.encode⟩⟩)
  calls : outcome.calls = []
  store : outcome.store = store
  faults : outcome.faults = faults

/-- The one scope that an action has to be authorized for. -/
inductive Action.Needs : Action → Scope → Prop where
  | newDomain (action : NewDomain) : Needs (.newDomain action) (.newDomain action.name)
  | updateDomain (action : UpdateDomain) : Needs (.updateDomain action) (.domainManage action.name)
  | issueTokens (action : IssueTokens) : Needs (.issueTokens action) (.domainIssue action.domain)
  | transferToken (action : TransferToken) :
      Needs (.transferToken action) (.token action.domain action.name)
  | updateGroup (action : UpdateGroup) : Needs (.updateGroup action) (.group action.id)
  | newAccount (action : NewAccount) : Needs (.newAccount action) (.account action.name)
  | updateOwner (action : UpdateOwner) : Needs (.updateOwner action) (.account action.name)
  | transferBalance (action : TransferBalance) :
      Needs (.transferBalance action) (.account action.source)

namespace Action

variable {context other : Context} {action : Action}

theorem needs_iff {scope : Scope} : action.Needs scope ↔ action.scope = scope := by
  constructor
  · rintro ⟨⟩ <;> rfl
  · rintro rfl
    cases action <;> constructor

/-- Besides its scope an action depends on the time and the configuration. -/
theorem validate_congr (scope : context.authorized action.scope = other.authorized action.scope)
    (time : context.time = other.time) (config : context.config = other.config) :
    action.validate context = action.validate other := by
  have plans : action.plan context = action.plan other := by
    cases action <;> simp only [plan, time, config]
  simp only [validate, Context.require, scope, plans]

theorem validate_of_denied (denied : context.authorized action.scope = false) :
    action.validate context =
      .note (.unauthorized action.scope) (.fail (.rejected ⟨.unauthorized, none⟩)) := by
  simp only [validate, Context.require, denied]
  rfl

theorem validate_of_authorized (authorized : context.authorized action.scope = true) :
    action.validate context = action.plan context := by
  have granted : context.require action.scope = pure () := by
    rw [Context.require, if_pos authorized]
  rw [validate, granted, pure_bind]

section Running

variable {φ : Type} [FaultSource φ]

theorem apply_congr (validate : action.validate context = action.validate other)
    (config : context.config = other.config) (store : Store) (faults : φ) :
    action.apply context store faults = action.apply other store faults := by
  simp only [apply, validate, config]

theorem apply_turnsAway (denied : context.authorized action.scope = false) (store : Store)
    (faults : φ) : (action.apply context store faults).TurnsAway action store faults := by
  unfold apply
  rw [validate_of_denied denied]
  exact ⟨rfl, rfl, rfl, rfl⟩

/-- All that an action takes from the authority is the answer about one scope. If that is no, it is
turned away in the same words, whatever the store, its faults, the time and the configuration. -/
theorem scope_decides (action : Action) :
    ∃ scope, action.Needs scope ∧
      (∀ first second : Scope → Bool, first scope = second scope →
        ∀ time config store (faults : φ),
          action.apply ⟨first, time, config⟩ store faults =
              action.apply ⟨second, time, config⟩ store faults ∧
            (action.validate ⟨first, time, config⟩).run store faults =
              (action.validate ⟨second, time, config⟩).run store faults) ∧
      (∀ context : Context, context.authorized scope = false → ∀ store (faults : φ),
        (action.apply context store faults).TurnsAway action store faults ∧
          ((action.validate context).run store faults).TurnsAway faults) ∧
      Reason.unauthorized.message = "Authorized information doesn't match" := by
  refine ⟨action.scope, needs_iff.mpr rfl, ?_, ?_, rfl⟩
  · intro first second agree time config store faults
    have same : action.validate ⟨first, time, config⟩ = action.validate ⟨second, time, config⟩ :=
      validate_congr agree rfl rfl
    exact ⟨apply_congr same rfl store faults, by rw [same]⟩
  · intro context denied store faults
    refine ⟨apply_turnsAway denied store faults, ?_⟩
    rw [validate_of_denied denied]
    exact ⟨rfl, rfl, rfl⟩

end Running

end Action

end TokenLedger
