import TokenLedger.Proofs.Application

/-!
Runs: actions applied one after the other, whatever each of them comes to.

Every step brings its own authority, time and configuration. What holds of each step on its
own holds all along a run (`Store.passages_induction`), and what every step preserves holds at
its end (`Store.replay_induction`).
-/

set_option autoImplicit false

namespace TokenLedger

/-- An action and what it may consult when its turn comes. -/
structure Step where
  context : Context
  action : Action

/-- A step of a run as it went. -/
structure Passage (φ : Type) where
  step : Step
  before : Store
  outcome : Outcome φ

namespace Store

/-- The steps of a run as they went before a source of faults. -/
def passages {φ : Type} [FaultSource φ] (store : Store) : List Step → φ → List (Passage φ)
  | [], _ => []
  | step :: rest, faults =>
      let outcome := step.action.apply step.context store faults
      ⟨step, store, outcome⟩ :: outcome.store.passages rest outcome.faults

theorem passages_induction {φ : Type} [FaultSource φ] {holds : Passage φ → Prop}
    (each : ∀ step store (faults : φ),
      holds ⟨step, store, step.action.apply step.context store faults⟩)
    (store : Store) (steps : List Step) (faults : φ) :
    ∀ passage ∈ store.passages steps faults, holds passage := by
  induction steps generalizing store faults with
  | nil =>
      intro passage member
      exact absurd member List.not_mem_nil
  | cons step rest inductionHypothesis =>
      intro passage member
      rcases List.mem_cons.mp member with rfl | later
      · exact each step store faults
      · exact inductionHypothesis _ _ passage later

/-- The store after one step without faults. -/
def after (store : Store) (step : Step) : Store :=
  (step.action.apply step.context store NoFaults.mk).store

/-- The store after a run without faults. -/
def replay (store : Store) (steps : List Step) : Store := steps.foldl after store

@[simp] theorem replay_append (store : Store) (steps later : List Step) :
    store.replay (steps ++ later) = (store.replay steps).replay later := List.foldl_append

/-- What each step of a run preserves holds at its end. -/
theorem replay_induction_of_mem (holds : Store → Prop) {store : Store} {steps : List Step}
    (start : holds store)
    (preserved : ∀ store, ∀ step ∈ steps, holds store → holds (store.after step)) :
    holds (store.replay steps) := by
  induction steps generalizing store with
  | nil => exact start
  | cons step rest inductionHypothesis =>
      have ⟨first, others⟩ := List.forall_mem_cons.mp fun step member store =>
        preserved store step member
      exact inductionHypothesis (first store start) fun store step member =>
        others step member store

theorem replay_induction {holds : Store → Prop} {store : Store} (start : holds store)
    (preserved : ∀ store step, holds store → holds (store.after step)) (steps : List Step) :
    holds (store.replay steps) :=
  replay_induction_of_mem holds start fun store step _ => preserved store step

/-- The store after a run before a source of faults. -/
def replayWith {φ : Type} [FaultSource φ] (store : Store) : List Step → φ → Store
  | [], _ => store
  | step :: rest, faults =>
      let outcome := step.action.apply step.context store faults
      outcome.store.replayWith rest outcome.faults

/-- Every step of the run goes through. -/
def Completes (store : Store) (steps : List Step) : Prop :=
  ∀ passage ∈ store.passages steps NoFaults.mk, passage.outcome.result = .ok ()

/-- The run goes through, and this is the store after it. -/
def Leads (store : Store) (steps : List Step) (after : Store) : Prop :=
  store.Completes steps ∧ store.replay steps = after

@[simp] theorem leads_nil_iff {store after : Store} : store.Leads [] after ↔ store = after :=
  ⟨fun leads => leads.2, fun same => ⟨List.forall_mem_nil _, same⟩⟩

theorem leads_singleton_iff {store after : Store} {step : Step} :
    store.Leads [step] after ↔
      (step.action.apply step.context store NoFaults.mk).result = .ok () ∧
        store.after step = after := by
  have completes : store.Completes [step] ↔
      (step.action.apply step.context store NoFaults.mk).result = .ok () :=
    List.forall_mem_singleton
  rw [Leads, completes]
  exact Iff.rfl

/-- The first step has to come to a plan, and the rest goes on from where the plan is carried out.
-/
theorem leads_cons_iff {store after : Store} {step : Step} {rest : List Step} :
    store.Leads (step :: rest) after ↔
      ∃ plan, (step.action.validate step.context).settle store = .ok plan ∧
        (store.rewritten plan.writes).Leads rest after := by
  have completes : store.Completes (step :: rest) ↔
      (step.action.apply step.context store NoFaults.mk).result = .ok () ∧
        (store.after step).Completes rest := List.forall_mem_cons
  have replayed : store.replay (step :: rest) = (store.after step).replay rest := rfl
  rw [Leads, completes, replayed]
  cases settled : (step.action.validate step.context).settle store with
  | error failure =>
      obtain ⟨result, -⟩ := Action.apply_of_refused settled
      simp [result]
  | ok plan =>
      obtain ⟨result, left⟩ := Action.apply_of_planned settled
      have left : store.after step = store.rewritten plan.writes := left
      simp [result, left, Leads]

/-- Where every step goes through, the faults of the store have had no part in the run. -/
theorem leads_of_passages {φ : Type} [FaultSource φ] {store : Store} {steps : List Step}
    {faults : φ}
    (completes : ∀ passage ∈ store.passages steps faults, passage.outcome.result = .ok ()) :
    store.Leads steps (store.replayWith steps faults) := by
  induction steps generalizing store faults with
  | nil => exact leads_nil_iff.mpr rfl
  | cons step rest inductionHypothesis =>
      obtain ⟨finished, others⟩ := List.forall_mem_cons.mp completes
      obtain ⟨plan, settled, left⟩ := Action.planned_of_apply finished
      refine leads_cons_iff.mpr ⟨plan, settled, ?_⟩
      rw [← left]
      exact inductionHypothesis others

end Store

end TokenLedger
