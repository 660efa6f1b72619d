import TokenLedger.Apply
import TokenLedger.Proofs.Resolution

/-!
Requirements, and the one that a failure tells of.

Checks that look at one condition after the other stop at the first that does not hold. What is
required, in which order, and for which reason an action is rejected otherwise is said by a list
(`Requirement`), and `Judges` relates the list to what the checks come to. It respects sequencing,
so the list of a check is put together from those of its parts.
-/

set_option autoImplicit false

namespace TokenLedger

/-- A condition, and the reason for which an action is rejected that does not meet it. -/
structure Requirement where
  condition : Prop
  reason : Reason

/-- Of the requirements in this order the first that does not hold. -/
def Requirement.IsFirstBroken (broken : Requirement) (requirements : List Requirement) : Prop :=
  ∃ before after, requirements = before ++ broken :: after ∧
    (∀ requirement ∈ before, requirement.condition) ∧ ¬broken.condition

theorem Requirement.isFirstBroken_cons_iff {broken requirement : Requirement}
    {rest : List Requirement} :
    broken.IsFirstBroken (requirement :: rest) ↔
      (¬requirement.condition ∧ broken = requirement) ∨
        (requirement.condition ∧ broken.IsFirstBroken rest) := by
  constructor
  · rintro ⟨before, after, split, held, fails⟩
    cases before with
    | nil =>
        cases split
        exact .inl ⟨fails, rfl⟩
    | cons first others =>
        cases split
        obtain ⟨holds, held⟩ := List.forall_mem_cons.mp held
        exact .inr ⟨holds, others, after, rfl, held, fails⟩
  · rintro (⟨fails, rfl⟩ | ⟨holds, before, after, rfl, held, fails⟩)
    · exact ⟨[], rest, rfl, List.forall_mem_nil _, fails⟩
    · exact ⟨requirement :: before, after, rfl, List.forall_mem_cons.mpr ⟨holds, held⟩, fails⟩

theorem Requirement.IsFirstBroken.mem {broken : Requirement} {requirements : List Requirement}
    (first : broken.IsFirstBroken requirements) : broken ∈ requirements := by
  obtain ⟨before, after, rfl, -, -⟩ := first
  exact List.mem_append_right before List.mem_cons_self

/-- A reason that no other requirement shares is given just if all before hold and this one does
not. -/
theorem Requirement.exists_isFirstBroken_iff {before after : List Requirement}
    {requirement : Requirement}
    (own : ∀ other ∈ before ++ after, other.reason ≠ requirement.reason) :
    (∃ broken : Requirement, broken.IsFirstBroken (before ++ requirement :: after) ∧
        broken.reason = requirement.reason) ↔
      (∀ other ∈ before, other.condition) ∧ ¬requirement.condition := by
  constructor
  · rintro ⟨broken, first, same⟩
    induction before with
    | nil =>
        rcases isFirstBroken_cons_iff.mp first with ⟨fails, rfl⟩ | ⟨-, later⟩
        · exact ⟨List.forall_mem_nil _, fails⟩
        · exact absurd same (own broken later.mem)
    | cons other before inductionHypothesis =>
        obtain ⟨different, own⟩ := List.forall_mem_cons.mp own
        rcases isFirstBroken_cons_iff.mp first with ⟨-, rfl⟩ | ⟨holds, later⟩
        · exact absurd same different
        · obtain ⟨held, fails⟩ := inductionHypothesis own later
          exact ⟨List.forall_mem_cons.mpr ⟨holds, held⟩, fails⟩
  · rintro ⟨held, fails⟩
    exact ⟨requirement, ⟨before, after, rfl, held, fails⟩, rfl⟩

section Judging

variable {α β : Type}

/-- The result is the value if all requirements hold, and else the rejection for the first that does
not. -/
inductive Judges (value : α) : List Requirement → Except Failure α → Prop where
  | accepted : Judges value [] (.ok value)
  | met {requirement : Requirement} {rest : List Requirement} {result : Except Failure α}
      (holds : requirement.condition) (judges : Judges value rest result) :
      Judges value (requirement :: rest) result
  | broken {requirement : Requirement} (fails : ¬requirement.condition)
      (rest : List Requirement) :
      Judges value (requirement :: rest) (.error (.ofReason requirement.reason))

namespace Judges

variable {value : α} {other : β} {requirements first second : List Requirement}

theorem eq_error_iff {result : Except Failure α} (judges : Judges value requirements result)
    {failure : Failure} :
    result = .error failure ↔
      ∃ broken : Requirement, broken.IsFirstBroken requirements ∧
        failure = .ofReason broken.reason := by
  induction judges with
  | accepted => simp [Requirement.IsFirstBroken]
  | met holds _ inductionHypothesis =>
      simp [inductionHypothesis, Requirement.isFirstBroken_cons_iff, holds]
  | broken fails rest => simp [Requirement.isFirstBroken_cons_iff, fails, eq_comm]

theorem ensure {condition : Bool} {holds : Prop} (same : condition = true ↔ holds)
    (reason : Reason) : Judges () [⟨holds, reason⟩] (TokenLedger.ensure condition reason) := by
  cases condition with
  | true => exact .met (same.mp rfl) .accepted
  | false => exact .broken (fun held => Bool.false_ne_true (same.mpr held)) []

/-- What was required may be relied on from there on. -/
theorem ensure_bind {condition : Bool} {holds : Prop} (same : condition = true ↔ holds)
    (reason : Reason) {next : Unit → Except Failure β}
    (rest : holds → Judges other requirements (next ())) :
    Judges other (⟨holds, reason⟩ :: requirements)
      (TokenLedger.ensure condition reason >>= next) := by
  cases condition with
  | true => exact .met (same.mp rfl) (rest (same.mp rfl))
  | false => exact .broken (fun held => Bool.false_ne_true (same.mpr held)) requirements

theorem bind {result : Except Failure α} {next : α → Except Failure β}
    (start : Judges value first result) (rest : Judges other second (next value)) :
    Judges other (first ++ second) (result >>= next) := by
  induction start with
  | accepted => exact rest
  | met holds _ inductionHypothesis => exact .met holds inductionHypothesis
  | broken fails others => exact .broken fails _

theorem forM {items : List β} {required : β → List Requirement}
    {step : β → Except Failure Unit} (each : ∀ item, Judges () (required item) (step item)) :
    Judges () (items.flatMap required) (forM items step) := by
  induction items with
  | nil => exact .accepted
  | cons item rest inductionHypothesis =>
      rw [List.flatMap_cons, List.forM_cons]
      exact (each item).bind inductionHypothesis

/-- Steps that hand on a value are judged one after the other. -/
theorem foldlM {items : List β} {required : β → List Requirement} {next : α → β → α}
    {step : α → β → Except Failure α}
    (each : ∀ value item, Judges (next value item) (required item) (step value item)) (start : α) :
    Judges (items.foldl next start) (items.flatMap required) (items.foldlM step start) := by
  induction items generalizing start with
  | nil => exact .accepted
  | cons item rest inductionHypothesis =>
      rw [List.flatMap_cons, List.foldlM_cons]
      exact (each start item).bind (inductionHypothesis (next start item))

end Judges

end Judging

section Parts

variable (store : Store) (defined : List Group)

theorem Context.judges_require (context : Context) (scope : Scope) :
    Judges () [⟨context.authorized scope = true, .unauthorized⟩]
      ((context.require scope).settle store) := by
  unfold require
  cases context.authorized scope with
  | true => exact .met rfl .accepted
  | false => exact .broken Bool.false_ne_true []

/-- What is required of the definitions, one after the other. The first argument lists the
identifiers defined before. -/
def Group.requirements : List GroupId → List Group → List Requirement
  | _, [] => []
  | earlier, group :: rest =>
      ⟨group.isValid = true, .invalidGroup group.id⟩ ::
        ⟨group.id = .ofKey group.key, .forgedGroupId group.id group.key⟩ ::
        ⟨group.id ∉ earlier, .repeatedGroup group.id⟩ :: requirements (group.id :: earlier) rest

theorem judges_checkDefinitions (earlier : List GroupId) :
    Judges () (Group.requirements earlier defined) (checkDefinitions earlier defined) := by
  induction defined generalizing earlier with
  | nil => exact .accepted
  | cons group rest inductionHypothesis =>
      refine (Judges.ensure Iff.rfl _).bind ((Judges.ensure ?matching _).bind ?_)
      case matching => exact decide_eq_true_iff
      exact (Judges.ensure decide_eq_true_iff _).bind (inductionHypothesis _)

/-- What is required of the permission of a slot on its own. -/
def Slot.requirements (slot : Slot) (permission : Permission) : List Requirement :=
  [⟨permission.name.text = slot.name, .misnamedPermission slot permission.name⟩,
    ⟨(slot.needsThreshold = true → permission.threshold ≠ 0) ∧ permission.isValid = true,
      .invalidPermission slot⟩]

theorem Slot.judges_check (slot : Slot) (permission : Permission) :
    Judges () (slot.requirements permission) (slot.check permission) := by
  refine (Judges.ensure decide_eq_true_iff _).bind (.ensure ?_ _)
  cases needed : slot.needsThreshold <;> simp

/-- What is required of the references of a permission: the owner only where it is allowed, and else
a group from exactly one of the store and the definitions. -/
def Permission.requirements (permission : Permission) (allowsOwner : Bool) : List Requirement :=
  permission.groups.map fun reference =>
    if reference.id = .owner then ⟨allowsOwner = true, .ownerNotAllowed permission.name⟩
    else
      ⟨¬(store.groups.contains reference.id = true ↔ ∃ group ∈ defined, group.id = reference.id),
        .unresolvedGroup reference.id⟩

theorem Permission.judges_resolve (permission : Permission) (allowsOwner : Bool) :
    Judges () (permission.requirements store defined allowsOwner)
      ((permission.resolve defined allowsOwner).settle store) := by
  rw [requirements, List.map_eq_flatMap]
  simp only [resolve, List.forM_eq_forM, Check.settle_forM]
  refine .forM fun reference => ?_
  by_cases owner : reference.id = .owner
  · simp only [owner, if_true, GroupId.isOwner_iff, Check.settle_ensure]
    exact .ensure Iff.rfl _
  · simp only [owner, if_false, GroupId.isOwner_iff, resolveGroup, Check.settle_bind,
      Check.settle_existsGroup, Check.settle_emit, Check.settle_ensure, ok_bind]
    refine .ensure ?_ _
    cases stored : store.groups.contains reference.id <;> simp

/-- None of the groups may be stored. -/
def Group.absences : List Requirement :=
  defined.map fun group => ⟨store.groups.contains group.id = false, .groupExists group.id⟩

theorem judges_checkAbsent :
    Judges () (Group.absences store defined) ((checkAbsent defined).settle store) := by
  rw [Group.absences, List.map_eq_flatMap]
  simp only [checkAbsent, List.forM_eq_forM, Check.settle_forM, Check.settle_bind,
    Check.settle_existsGroup, Check.settle_ensure, ok_bind]
  exact .forM fun group => .ensure (by rw [Bool.not_eq_true']) _

end Parts

end TokenLedger
