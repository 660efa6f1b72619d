import TokenLedger.Proofs.Trace

/-!
What a check notes on its way.

A check notes that it lacks authorization, which accounts it has read, and where it finds the
groups that permissions refer to. It notes the last for each group that it asks about to resolve a
reference, as soon as the store has answered, and never else (`Action.log_validate`).
-/

set_option autoImplicit false

namespace TokenLedger

namespace Event

/-- The event tells where a group was found that a permission refers to. -/
def resolves : Event → Bool
  | .resolving _ _ _ => true
  | _ => false

/-- The other events that a check may note. -/
def isFinding : Event → Bool
  | .unauthorized _ | .readAccounts _ _ _ => true
  | _ => false

theorem resolves_of_isFinding {event : Event} (finding : event.isFinding = true) :
    event.resolves = false := by
  cases event <;> simp_all [isFinding, resolves]

end Event

/-- The groups that a permission refers to, the owner aside. -/
def Permission.references (permission : Permission) : List GroupId :=
  (permission.groups.filter fun reference => !reference.id.isOwner).map GroupWeight.id

namespace Action

/-- What is asked before any reference is resolved. -/
def preliminaries : Action → List Query
  | .newDomain action => [.existsDomain action.name]
  | .updateDomain action => [.existsDomain action.name, .readDomain action.name]
  | action => action.questions

/-- The references to groups in the order in which they are resolved. -/
def references : Action → List GroupId
  | .newDomain action => Slot.all.flatMap fun slot => (action.permission slot).references
  | .updateDomain action =>
      Slot.all.flatMap fun slot => (action.permission? slot).toList.flatMap Permission.references
  | _ => []

/-- The groups defined along with an action. -/
def definitions : Action → List Group
  | .newDomain action => action.groups
  | .updateDomain action => action.groups
  | _ => []

theorem questions_eq (action : Action) :
    action.questions = action.preliminaries ++ action.references.map .existsGroup ++
      action.definitions.map fun group => .existsGroup group.id := by
  have asked (permission : Permission) :
      permission.questions = permission.references.map .existsGroup := by
    simp [Permission.questions, Permission.references]
  cases action with
  | newDomain action =>
      simp [questions, preliminaries, references, definitions, List.map_flatMap, asked]
  | updateDomain action =>
      have given : Permission.questions =
          fun permission => permission.references.map .existsGroup := funext asked
      simp [questions, preliminaries, references, definitions, List.map_flatMap, given]
  | issueTokens | transferToken | updateGroup | newAccount | updateOwner | transferBalance =>
      simp [preliminaries, references, definitions]

/-- The references that were resolved, given which questions of the check met an error. -/
def resolved (action : Action) (failures : List (Option StoreError)) : List GroupId :=
  ((action.references.zip (failures.drop action.preliminaries.length)).filter
    fun asked => asked.2.isNone).map Prod.fst

end Action

namespace Check

variable {α β : Type} {defined : List Group}

/-- The event that tells where a group was found. -/
def resolution (store : Store) (defined : List Group) (id : GroupId) : Event :=
  .resolving id (store.groups.contains id) (defined.any fun group => group.id = id)

/-- Whatever is answered, some of the questions are put to resolve a group, and right after these
the check notes the answer and whether the group is defined. The list names these groups in the
places of their questions. -/
inductive Recounts (defined : List Group) : Check α → List (Option GroupId) → Prop where
  | done (value : α) : Recounts defined (.done value) []
  | fail (failure : Failure) (places : List (Option GroupId)) :
      Recounts defined (.fail failure) places
  | note {event : Event} {next : Check α} {places : List (Option GroupId)} :
      event.isFinding = true →
      Recounts defined next places →
      Recounts defined (.note event next) places
  | ask {query : Query} {next : query.Answer → Check α} {places : List (Option GroupId)} :
      (∀ answer, Recounts defined (next answer) places) →
      Recounts defined (.ask query next) (none :: places)
  | resolve {id : GroupId} {next : Bool → Check α} {places : List (Option GroupId)} :
      (∀ stored, Recounts defined (next stored) places) →
      Recounts defined
        (.ask (.existsGroup id) fun stored : Bool =>
          .note (.resolving id stored (defined.any fun group => group.id = id)) (next stored))
        (some id :: places)

namespace Recounts

variable {first rest : List (Option GroupId)}

theorem ofExcept (result : Except Failure α) : (Check.ofExcept result).Recounts defined [] := by
  cases result with
  | error failure => exact .fail _ _
  | ok value => exact .done _

theorem ensure (condition : Bool) (reason : Reason) :
    (Check.ensure condition reason).Recounts defined [] :=
  ofExcept _

theorem emit {event : Event} (finding : event.isFinding = true) :
    (Check.emit event).Recounts defined [] :=
  .note finding (.done ())

theorem bind {check : Check α} {next : α → Check β} (start : check.Recounts defined first)
    (others : ∀ a, (next a).Recounts defined rest) :
    (check >>= next).Recounts defined (first ++ rest) := by
  change (check.bind next).Recounts defined (first ++ rest)
  induction start with
  | done value => exact others value
  | fail failure places => exact .fail _ _
  | note finding later inductionHypothesis => exact .note finding inductionHypothesis
  | ask later inductionHypothesis => exact .ask inductionHypothesis
  | resolve later inductionHypothesis => exact .resolve inductionHypothesis

theorem query {question : Query} {next : question.Answer → Check β}
    (others : ∀ answer, (next answer).Recounts defined rest) :
    (Check.query question >>= next).Recounts defined (none :: rest) :=
  .ask others

/-- Resolve nothing, and go on. -/
theorem silently {check : Check α} {next : α → Check β} (silent : check.Recounts defined [])
    (others : ∀ a, (next a).Recounts defined rest) : (check >>= next).Recounts defined rest :=
  bind silent others

/-- End without resolving more. -/
theorem last {check : Check α} {next : α → Check β} (start : check.Recounts defined first)
    (others : ∀ a, (next a).Recounts defined []) : (check >>= next).Recounts defined first := by
  simpa using bind start others

theorem forM {items : List β} {step : β → Check Unit} {places : β → List (Option GroupId)}
    (each : ∀ item, (step item).Recounts defined (places item)) :
    (forM items step).Recounts defined (items.flatMap places) := by
  induction items with
  | nil => exact .done _
  | cons item others inductionHypothesis =>
      rw [List.forM_cons, List.flatMap_cons]
      exact (each item).bind fun _ => inductionHypothesis

theorem foldlM {items : List β} {step : α → β → Check α} {start : α}
    {places : β → List (Option GroupId)}
    (each : ∀ value item, (step value item).Recounts defined (places item)) :
    (items.foldlM step start).Recounts defined (items.flatMap places) := by
  induction items generalizing start with
  | nil => exact .done _
  | cons item others inductionHypothesis =>
      rw [List.foldlM_cons, List.flatMap_cons]
      exact (each start item).bind fun _ => inductionHypothesis

end Recounts

end Check

/-- The groups in the places where no error was met. -/
def answeredIn : List (Option GroupId) → List (Option StoreError) → List GroupId
  | some id :: places, none :: failures => id :: answeredIn places failures
  | _ :: places, _ :: failures => answeredIn places failures
  | _, _ => []

section Places

@[simp] theorem answeredIn_nil_right (places : List (Option GroupId)) :
    answeredIn places [] = [] := by
  rcases places with _ | ⟨_ | id, rest⟩ <;> rfl

@[simp] theorem answeredIn_cons_error (place : Option GroupId) (places : List (Option GroupId))
    (error : StoreError) (failures : List (Option StoreError)) :
    answeredIn (place :: places) (some error :: failures) = answeredIn places failures := by
  cases place <;> rfl

variable (failures : List (Option StoreError))

theorem answeredIn_nowhere {κ : Type} (questions : List κ) :
    answeredIn (questions.map fun _ => none) failures = [] := by
  induction questions generalizing failures with
  | nil => rfl
  | cons question rest inductionHypothesis =>
      cases failures with
      | nil => rfl
      | cons failure others => exact inductionHypothesis others

theorem answeredIn_after {κ : Type} (questions : List κ) (places : List (Option GroupId)) :
    answeredIn ((questions.map fun _ => none) ++ places) failures =
      answeredIn places (failures.drop questions.length) := by
  induction questions generalizing failures with
  | nil => rfl
  | cons question rest inductionHypothesis =>
      cases failures with
      | nil => simp
      | cons failure others => exact inductionHypothesis others

theorem answeredIn_before {κ : Type} (ids : List GroupId) (questions : List κ) :
    answeredIn (ids.map some ++ questions.map fun _ => none) failures =
      ((ids.zip failures).filter fun asked => asked.2.isNone).map Prod.fst := by
  induction ids generalizing failures with
  | nil => exact answeredIn_nowhere failures questions
  | cons id rest inductionHypothesis =>
      rcases failures with _ | ⟨_ | error, others⟩
      · rfl
      · exact congrArg (id :: ·) (inductionHypothesis others)
      · exact inductionHypothesis others

end Places

/-- What the run of a check notes: where the groups were found in the places that were answered, and
findings besides. -/
theorem Check.Recounts.log_run {φ α : Type} [FaultSource φ] {check : Check α} {defined : List Group}
    {places : List (Option GroupId)} (recounts : check.Recounts defined places) (store : Store)
    (faults : φ) :
    (∀ event ∈ (check.run store faults).log,
        event.isFinding = true ∨ event.resolves = true) ∧
      (check.run store faults).log.filter Event.resolves =
        (answeredIn places (store.failures (check.run store faults).calls faults)).map
          (resolution store defined) := by
  induction recounts generalizing faults with
  | done value => exact ⟨List.forall_mem_nil _, rfl⟩
  | fail failure places =>
      exact ⟨List.forall_mem_nil _, by simp [run, Store.failures]⟩
  | @note event next places finding later inductionHypothesis =>
      obtain ⟨noted, resolved⟩ := inductionHypothesis faults
      have other := Event.resolves_of_isFinding finding
      refine ⟨List.forall_mem_cons.mpr ⟨.inl finding, noted⟩, ?_⟩
      simpa [run, other] using resolved
  | @ask query next places later inductionHypothesis =>
      obtain ⟨left, ⟨answer, -, sent, ran⟩ | ⟨error, sent, ran⟩⟩ :=
        Check.run_ask_cases store query next faults
      · obtain ⟨noted, resolved⟩ := inductionHypothesis answer left
        rw [ran]
        refine ⟨noted, ?_⟩
        simp only [Store.failures_cons_of_ok sent]
        exact resolved
      · rw [ran]
        exact ⟨List.forall_mem_nil _, by simp [Store.failures, sent]⟩
  | @resolve id next places later inductionHypothesis =>
      obtain ⟨left, ⟨answer, answered, sent, ran⟩ | ⟨error, sent, ran⟩⟩ :=
        Check.run_ask_cases store (.existsGroup id)
          (fun stored : Bool =>
            .note (.resolving id stored (defined.any fun group => group.id = id)) (next stored))
          faults
      · cases answered
        obtain ⟨noted, resolved⟩ := inductionHypothesis (store.groups.contains id) left
        rw [ran]
        refine ⟨List.forall_mem_cons.mpr ⟨.inr rfl, noted⟩, ?_⟩
        simp only [Store.failures_cons_of_ok sent]
        exact congrArg (Check.resolution store defined id :: ·) resolved
      · rw [ran]
        exact ⟨List.forall_mem_nil _, by simp [Store.failures, sent]⟩

section Parts

variable (groups : List Group)

theorem recounts_resolve (permission : Permission) (allowsOwner : Bool) :
    (permission.resolve groups allowsOwner).Recounts groups (permission.references.map some) := by
  have each (reference : GroupWeight) :
      (if reference.id.isOwner then Check.ensure allowsOwner (.ownerNotAllowed permission.name)
        else resolveGroup groups reference.id).Recounts groups
        (if reference.id.isOwner then [] else [some reference.id]) := by
    split
    · exact .ensure _ _
    · exact .resolve fun stored => .ensure _ _
  have referred : permission.references.map some = permission.groups.flatMap fun reference =>
      if reference.id.isOwner then [] else [some reference.id] := by
    unfold Permission.references
    induction permission.groups with
    | nil => rfl
    | cons reference rest inductionHypothesis =>
        cases owner : reference.id.isOwner <;>
          simp_all [-GroupId.isOwner_iff]
  rw [referred]
  exact .forM each

theorem recounts_checkAbsent (defined : List Group) :
    (checkAbsent groups).Recounts defined (groups.map fun _ => none) := by
  rw [List.map_eq_flatMap]
  exact .forM fun group => .query fun stored => .ensure _ _

theorem recounts_checkTokenNames (domain : Name) (earlier names : List Name) :
    (checkTokenNames domain earlier names).Recounts [] (names.map fun _ => none) := by
  induction names generalizing earlier with
  | nil => exact .done _
  | cons name rest inductionHypothesis =>
      refine .silently (.ensure _ _) fun _ => .silently (.ensure _ _) fun _ => ?_
      refine .query fun issued => ?_
      exact .silently (.ensure _ _) fun _ => inductionHypothesis (name :: earlier)

end Parts

namespace Action

/-- Where the check of an action resolves a reference, and where it asks for another purpose. -/
def places (action : Action) : List (Option GroupId) :=
  (action.preliminaries.map fun _ => none) ++
    (action.references.map some ++ action.definitions.map fun _ => none)

theorem recounts_newDomain (action : NewDomain) (time : Instant) :
    (action.plan time).Recounts action.groups (places (.newDomain action)) := by
  have named : places (.newDomain action) =
      none :: (Slot.all.flatMap (fun slot => (action.permission slot).references.map some) ++
        action.groups.map fun _ => none) := by
    simp [places, preliminaries, references, definitions, List.map_flatMap]
  rw [named]
  unfold NewDomain.plan
  refine .query fun known => .silently (.ensure _ _) fun _ => .silently (.ofExcept _) fun _ => ?_
  refine .silently (.ensure _ _) fun _ => .silently ?_ fun _ => ?_
  · exact .forM fun slot => .ofExcept _
  · refine .bind (.forM fun slot => recounts_resolve _ _ _) fun _ => ?_
    exact .last (recounts_checkAbsent _ _) fun _ => .done _

theorem recounts_amend (action : UpdateDomain) (domain : Domain) (slot : Slot) :
    (action.amend domain slot).Recounts action.groups
      (((action.permission? slot).toList.flatMap Permission.references).map some) := by
  unfold UpdateDomain.amend
  split
  case h_1 absent =>
    rw [absent]
    exact .done _
  case h_2 permission given =>
    rw [given, Option.toList_some, List.flatMap_singleton]
    refine .silently (.ofExcept _) fun _ => .last ?_ fun _ => .done _
    exact recounts_resolve _ _ _

theorem recounts_updateDomain (action : UpdateDomain) :
    action.plan.Recounts action.groups (places (.updateDomain action)) := by
  have named : places (.updateDomain action) = none :: none ::
      (Slot.all.flatMap (fun slot =>
          ((action.permission? slot).toList.flatMap Permission.references).map some) ++
        action.groups.map fun _ => none) := by
    simp only [places, preliminaries, references, definitions, List.map_flatMap]
    rfl
  rw [named]
  unfold UpdateDomain.plan
  refine .query fun known => .silently (.ensure _ _) fun _ => .silently (.ofExcept _) fun _ => ?_
  refine .silently (.ensure _ _) fun _ => .query fun stored => ?_
  refine .bind (.foldlM fun domain slot => recounts_amend _ _ _) fun amended => ?_
  exact .last (recounts_checkAbsent _ _) fun _ => .done _

theorem recounts_issueTokens (action : IssueTokens) :
    action.plan.Recounts [] (places (.issueTokens action)) := by
  have named : places (.issueTokens action) = none :: action.names.map fun _ => none := by
    simp [places, preliminaries, references, definitions, questions, Function.comp_def]
  rw [named]
  unfold IssueTokens.plan
  refine .query fun known => .silently (.ensure _ _) fun _ => .silently (.ensure _ _) fun _ => ?_
  exact .last (recounts_checkTokenNames _ _ _) fun _ => .done _

theorem recounts_transferToken (action : TransferToken) :
    action.plan.Recounts [] (places (.transferToken action)) := by
  unfold TransferToken.plan
  exact .query fun issued => .silently (.ensure _ _) fun _ => .done _

theorem recounts_updateGroup (action : UpdateGroup) :
    action.plan.Recounts [] (places (.updateGroup action)) := by
  unfold UpdateGroup.plan
  refine .query fun known => .silently (.ensure _ _) fun _ => .silently (.ensure _ _) fun _ => ?_
  exact .query fun stored => .silently (.ensure _ _) fun _ => .done _

theorem recounts_newAccount (action : NewAccount) (time : Instant) (config : Config) :
    (action.plan time config).Recounts [] (places (.newAccount action)) := by
  unfold NewAccount.plan
  refine .silently (.ensure _ _) fun _ => .query fun known => .silently (.ensure _ _) fun _ => ?_
  exact .silently (.ofExcept _) fun _ => .done _

theorem recounts_updateOwner (action : UpdateOwner) :
    action.plan.Recounts [] (places (.updateOwner action)) := by
  unfold UpdateOwner.plan
  refine .query fun known => .silently (.ensure _ _) fun _ => .silently (.ensure _ _) fun _ => ?_
  exact .query fun stored => .done _

theorem recounts_transferBalance (action : TransferBalance) :
    action.plan.Recounts [] (places (.transferBalance action)) := by
  unfold TransferBalance.plan
  refine .query fun sourceKnown => .silently (.ensure _ _) fun _ => ?_
  refine .query fun targetKnown => .silently (.ensure _ _) fun _ => ?_
  refine .silently (.ensure _ _) fun _ => .silently (.ensure _ _) fun _ => ?_
  refine .query fun source => .query fun target => .silently (.emit rfl) fun _ => ?_
  refine .silently (.ensure _ _) fun _ => ?_
  split
  · exact .done _
  · exact .fail _ _

theorem recounts_validate (context : Context) (action : Action) :
    (action.validate context).Recounts action.definitions action.places := by
  refine .silently ?authorization fun _ => ?plan
  case authorization =>
    unfold Context.require
    split
    · exact .done _
    · exact .silently (.emit rfl) fun _ => .ensure _ _
  case plan =>
    cases action with
    | newDomain action => exact recounts_newDomain action context.time
    | updateDomain action => exact recounts_updateDomain action
    | issueTokens action => exact recounts_issueTokens action
    | transferToken action => exact recounts_transferToken action
    | updateGroup action => exact recounts_updateGroup action
    | newAccount action => exact recounts_newAccount action context.time context.config
    | updateOwner action => exact recounts_updateOwner action
    | transferBalance action => exact recounts_transferBalance action

/-- The check of an action notes findings, and where the groups were found of the references that it
resolved. -/
theorem log_validate {φ : Type} [FaultSource φ] (context : Context) (action : Action)
    (store : Store) (faults : φ) :
    let report := (action.validate context).run store faults
    (∀ event ∈ report.log, event.isFinding = true ∨ event.resolves = true) ∧
      report.log.filter Event.resolves =
        (action.resolved (store.failures report.calls faults)).map
          (Check.resolution store action.definitions) := by
  obtain ⟨noted, resolved⟩ := (recounts_validate context action).log_run store faults
  refine ⟨noted, ?_⟩
  rw [resolved, places, answeredIn_after, answeredIn_before, Action.resolved]

end Action

end TokenLedger
