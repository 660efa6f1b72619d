import TokenLedger.Proofs.Batches
import TokenLedger.Proofs.Denial
import TokenLedger.Proofs.DryRun
import TokenLedger.Proofs.Trace

/-!
How the names of a batch are judged.

The names are looked at one after the other, and the store is asked about each that is not turned
down before that. What is wrong with a name is an `Objection`. The batch is rejected for the first
name with something wrong, and the store is asked about no name after it (`run_checkTokenNames`).
Which batches are accepted, and what they leave in the store, does not depend on the order of the
names.
-/

set_option autoImplicit false

namespace TokenLedger

namespace IssueTokens

/-- What is wrong with a name that comes after these. The last but one argument is the error that
the store meets if it is asked about the name. Of several things that are wrong, the first in this
order counts. -/
inductive Objection (store : Store) (domain : Name) (earlier : List Name) (name : Name) :
    Option StoreError → Failure → Prop where
  | unnamed {answer : Option StoreError} (empty : name.text = "") :
      Objection store domain earlier name answer (.ofReason .emptyTokenName)
  | repeated {answer : Option StoreError} (named : name.text ≠ "") (again : name ∈ earlier) :
      Objection store domain earlier name answer (.ofReason (.repeatedToken domain name))
  | unanswered (error : StoreError) (named : name.text ≠ "") (fresh : name ∉ earlier) :
      Objection store domain earlier name (some error) (.store error)
  | issued (named : name.text ≠ "") (fresh : name ∉ earlier)
      (stored : store.tokens.contains ⟨domain, name⟩ = true) :
      Objection store domain earlier name none (.ofReason (.tokenExists domain name))

section Positions

variable (store : Store) (domain : Name)

/-- Something is wrong with the name in this position. The first list is of names before all these.
-/
def ObjectsAt (earlier names : List Name) (answers : List (Option StoreError)) (position : Nat)
    (failure : Failure) : Prop :=
  ∃ name answer, names[position]? = some name ∧ answers[position]? = some answer ∧
    Objection store domain (earlier ++ names.take position) name answer failure

/-- The name in this position is the first that something is wrong with. -/
structure FirstObjection (earlier names : List Name) (answers : List (Option StoreError))
    (position : Nat) (failure : Failure) : Prop where
  objects : ObjectsAt store domain earlier names answers position failure
  first : ∀ before < position, ∀ other, ¬ObjectsAt store domain earlier names answers before other

/-- The names that the store is asked about if the one in this position is the first with something
wrong: all before it, and it too unless it is empty or repeated. -/
def askedUpTo (earlier names : List Name) (position : Nat) : List Name :=
  names.take position ++
    names[position]?.toList.filter fun name =>
      name.text ≠ "" ∧ name ∉ earlier ++ names.take position

variable {store domain} {earlier names : List Name} {name : Name} {answer : Option StoreError}
  {answers : List (Option StoreError)} {position : Nat} {failure : Failure}

theorem no_objection_iff :
    (∀ failure, ¬Objection store domain earlier name answer failure) ↔
      name.text ≠ "" ∧ name ∉ earlier ∧ answer = none ∧
        store.tokens.contains ⟨domain, name⟩ = false := by
  constructor
  · intro none
    have named : name.text ≠ "" := fun empty => none _ (.unnamed empty)
    have fresh : name ∉ earlier := fun again => none _ (.repeated named again)
    cases answer with
    | some error => exact absurd (.unanswered error named fresh) (none _)
    | none =>
        refine ⟨named, fresh, rfl, Bool.eq_false_iff.mpr fun stored => ?_⟩
        exact none _ (.issued named fresh stored)
  · rintro ⟨named, fresh, rfl, free⟩ failure objection
    cases objection with
    | unnamed empty => exact named empty
    | repeated _ again => exact fresh again
    | issued _ _ stored => exact Bool.false_ne_true (free.symm.trans stored)

/-- Nothing is wrong anywhere with names that are in order. -/
theorem not_objectsAt_of_inOrder (named : ∀ name ∈ names, name.text ≠ "") (distinct : names.Nodup)
    (free : ∀ name ∈ names, store.tokens.contains ⟨domain, name⟩ = false)
    (answered : ∀ answer ∈ answers, answer = none) :
    ¬ObjectsAt store domain [] names answers position failure := by
  rintro ⟨name, answer, there, met, objection⟩
  have listed := List.mem_of_getElem? there
  have fresh : name ∉ names.take position := by
    intro again
    obtain ⟨less, rfl⟩ := List.getElem?_eq_some_iff.mp there
    obtain ⟨before, early, same⟩ := List.mem_take_iff_getElem.mp again
    have twice := (List.getElem_inj distinct).mp same
    omega
  exact no_objection_iff.mpr
    ⟨named name listed, fresh, answered answer (List.mem_of_getElem? met), free name listed⟩
    failure objection

theorem objectsAt_zero_iff :
    ObjectsAt store domain earlier (name :: names) (answer :: answers) 0 failure ↔
      Objection store domain earlier name answer failure := by
  simp [ObjectsAt]

theorem objectsAt_succ_iff :
    ObjectsAt store domain earlier (name :: names) (answer :: answers) (position + 1) failure ↔
      ObjectsAt store domain (earlier ++ [name]) names answers position failure := by
  simp [ObjectsAt]

theorem firstObjection_zero_iff :
    FirstObjection store domain earlier (name :: names) (answer :: answers) 0 failure ↔
      Objection store domain earlier name answer failure := by
  constructor
  · intro found
    exact objectsAt_zero_iff.mp found.objects
  · intro objection
    exact ⟨objectsAt_zero_iff.mpr objection, fun before less =>
      absurd less (Nat.not_lt_zero before)⟩

theorem firstObjection_succ_iff :
    FirstObjection store domain earlier (name :: names) (answer :: answers) (position + 1) failure ↔
      (∀ other, ¬Objection store domain earlier name answer other) ∧
        FirstObjection store domain (earlier ++ [name]) names answers position failure := by
  constructor
  · rintro ⟨objects, first⟩
    refine ⟨fun other objection => ?_, objectsAt_succ_iff.mp objects,
      fun before less other found => ?_⟩
    · exact first 0 (Nat.succ_pos position) other (objectsAt_zero_iff.mpr objection)
    · exact first (before + 1) (Nat.succ_lt_succ less) other (objectsAt_succ_iff.mpr found)
  · rintro ⟨none, objects, first⟩
    refine ⟨objectsAt_succ_iff.mpr objects, fun before less other found => ?_⟩
    cases before with
    | zero => exact none other (objectsAt_zero_iff.mp found)
    | succ before =>
        exact first before (Nat.lt_of_succ_lt_succ less) other (objectsAt_succ_iff.mp found)

/-- No later name comes first if something is wrong with the one in front. -/
theorem firstObjection_cons_of_objection {other : Failure}
    (objection : Objection store domain earlier name answer failure) :
    FirstObjection store domain earlier (name :: names) (answer :: answers) position other ↔
      position = 0 ∧ Objection store domain earlier name answer other := by
  cases position with
  | zero => rw [firstObjection_zero_iff, and_iff_right rfl]
  | succ position =>
      constructor
      · intro found
        exact absurd objection ((firstObjection_succ_iff.mp found).1 failure)
      · rintro ⟨none, -⟩
        exact absurd none (Nat.succ_ne_zero position)

theorem firstObjection_cons_of_no_objection
    (none : ∀ other, ¬Objection store domain earlier name answer other) :
    FirstObjection store domain earlier (name :: names) (answer :: answers) position failure ↔
      ∃ later, position = later + 1 ∧
        FirstObjection store domain (earlier ++ [name]) names answers later failure := by
  constructor
  · intro found
    cases position with
    | zero => exact absurd (firstObjection_zero_iff.mp found) (none failure)
    | succ later => exact ⟨later, rfl, (firstObjection_succ_iff.mp found).2⟩
  · rintro ⟨later, rfl, found⟩
    exact firstObjection_succ_iff.mpr ⟨none, found⟩

theorem askedUpTo_zero :
    askedUpTo earlier (name :: names) 0 =
      [name].filter fun name => name.text ≠ "" ∧ name ∉ earlier := by
  simp [askedUpTo]

theorem askedUpTo_succ :
    askedUpTo earlier (name :: names) (position + 1) =
      name :: askedUpTo (earlier ++ [name]) names position := by
  simp [askedUpTo]

end Positions

section Loop

variable {φ : Type} [FaultSource φ]

/-- The questions about the tokens of these names. -/
def tokenQuestions (domain : Name) (names : List Name) : List Call :=
  names.map fun name => .ask (.existsToken domain name)

theorem failures_tokenQuestions_cons (store : Store) (domain name : Name) (rest : List Name)
    (faults : φ) :
    store.failures (tokenQuestions domain (name :: rest)) faults =
      (FaultSource.strike (.ask (.existsToken domain name)) faults).1 ::
        store.failures (tokenQuestions domain rest)
          (FaultSource.strike (.ask (.existsToken domain name)) faults).2 := by
  rcases struck : FaultSource.strike (.ask (.existsToken domain name)) faults with ⟨_ | error, left⟩
  · exact Store.failures_cons_of_ok (by simp only [Store.send, struck]; rfl) _
  · exact Store.failures_cons_of_error (by simp only [Store.send, struck]) _

variable {store : Store} {domain name : Name} {earlier : List Name} {faults left : φ}
  {answer : Option StoreError} {failure : Failure}

/-- The first name that something is wrong with ends the check. -/
theorem run_checkTokenNames_of_objection
    (struck : FaultSource.strike (.ask (.existsToken domain name)) faults = (answer, left))
    (objection : Objection store domain earlier name answer failure) (rest : List Name) :
    ((checkTokenNames domain earlier.reverse (name :: rest)).run store faults).result =
        .error failure ∧
      ((checkTokenNames domain earlier.reverse (name :: rest)).run store faults).calls =
        tokenQuestions domain ([name].filter fun name => name.text ≠ "" ∧ name ∉ earlier) := by
  have unrepeated (fresh : name ∉ earlier) : decide (name ∉ earlier.reverse) = true := by
    simpa using fresh
  rw [checkTokenNames]
  cases objection with
  | unnamed empty =>
      rw [Check.run_ensure_bind_of_false (by simp [Name.isEmpty, empty])]
      simp [tokenQuestions, empty]
  | repeated named again =>
      rw [Check.run_ensure_bind_of_true (by simp [Name.isEmpty, named]),
        Check.run_ensure_bind_of_false (by simpa using again)]
      simp [tokenQuestions, again]
  | unanswered error named fresh =>
      rw [Check.run_ensure_bind_of_true (by simp [Name.isEmpty, named]),
        Check.run_ensure_bind_of_true (unrepeated fresh), Check.run_query_bind_of_struck struck]
      simp [tokenQuestions, named, fresh]
  | issued named fresh stored =>
      have answered : store.ask (.existsToken domain name) = .ok true := congrArg Except.ok stored
      rw [Check.run_ensure_bind_of_true (by simp [Name.isEmpty, named]),
        Check.run_ensure_bind_of_true (unrepeated fresh),
        Check.run_query_bind_of_answered struck answered,
        Check.run_ensure_bind_of_false Bool.not_true]
      simp [tokenQuestions, named, fresh]

theorem run_checkTokenNames_of_no_objection
    (struck : FaultSource.strike (.ask (.existsToken domain name)) faults = (answer, left))
    (none : ∀ failure, ¬Objection store domain earlier name answer failure) (rest : List Name) :
    (checkTokenNames domain earlier.reverse (name :: rest)).run store faults =
      let report := (checkTokenNames domain (earlier ++ [name]).reverse rest).run store left
      { report with calls := .ask (.existsToken domain name) :: report.calls } := by
  obtain ⟨named, fresh, rfl, free⟩ := no_objection_iff.mp none
  have answered : store.ask (.existsToken domain name) = .ok false := congrArg Except.ok free
  rw [checkTokenNames, Check.run_ensure_bind_of_true (by simp [Name.isEmpty, named]),
    Check.run_ensure_bind_of_true (by simpa using fresh),
    Check.run_query_bind_of_answered struck answered,
    Check.run_ensure_bind_of_true Bool.not_false, List.reverse_append]
  rfl

/-- The names are rejected for the first that something is wrong with, and the store is asked about
none after it. -/
theorem run_checkTokenNames (store : Store) (domain : Name) (earlier names : List Name)
    (faults : φ) :
    (∀ failure,
        ((checkTokenNames domain earlier.reverse names).run store faults).result = .error failure ↔
          ∃ position, FirstObjection store domain earlier names
            (store.failures (tokenQuestions domain names) faults) position failure) ∧
      ∀ position failure,
        FirstObjection store domain earlier names
          (store.failures (tokenQuestions domain names) faults) position failure →
        ((checkTokenNames domain earlier.reverse names).run store faults).calls =
          tokenQuestions domain (askedUpTo earlier names position) := by
  induction names generalizing earlier faults with
  | nil =>
      have nowhere {position : Nat} {failure : Failure} :
          ¬FirstObjection store domain earlier [] (store.failures (tokenQuestions domain []) faults)
            position failure := by
        rintro ⟨⟨name, answer, there, -⟩, -⟩
        simp at there
      refine ⟨fun failure => ⟨nofun, ?_⟩, fun position failure found => absurd found nowhere⟩
      rintro ⟨position, found⟩
      exact absurd found nowhere
  | cons name rest inductionHypothesis =>
      rcases struck : FaultSource.strike (.ask (.existsToken domain name)) faults with
        ⟨answer, left⟩
      simp only [failures_tokenQuestions_cons, struck]
      by_cases wrong : ∃ failure, Objection store domain earlier name answer failure
      · obtain ⟨reason, objection⟩ := wrong
        obtain ⟨result, calls⟩ := run_checkTokenNames_of_objection struck objection rest
        simp only [firstObjection_cons_of_objection objection]
        refine ⟨fun failure => ⟨fun failed => ?_, ?_⟩, ?_⟩
        · cases result.symm.trans failed
          exact ⟨0, rfl, objection⟩
        · rintro ⟨-, -, objection'⟩
          exact (run_checkTokenNames_of_objection struck objection' rest).1
        · rintro position failure ⟨rfl, -⟩
          rw [calls, askedUpTo_zero]
      · have none : ∀ failure, ¬Objection store domain earlier name answer failure :=
          not_exists.mp wrong
        obtain ⟨rejected, asked⟩ := inductionHypothesis (earlier ++ [name]) left
        simp only [run_checkTokenNames_of_no_objection struck none, rejected,
          firstObjection_cons_of_no_objection none]
        refine ⟨fun failure => ⟨?_, ?_⟩, ?_⟩
        · rintro ⟨later, found⟩
          exact ⟨later + 1, later, rfl, found⟩
        · rintro ⟨-, later, rfl, found⟩
          exact ⟨later, found⟩
        · rintro position failure ⟨later, rfl, found⟩
          rw [asked later failure found, askedUpTo_succ]
          rfl

end Loop

section Judging

variable {φ : Type} [FaultSource φ] {action : IssueTokens} {context : Context} {store : Store}
  {faults : φ} {answers : List (Option StoreError)}

theorem questions_eq (action : IssueTokens) :
    (Action.issueTokens action).questions.map Call.ask =
      .ask (.existsDomain action.domain) :: tokenQuestions action.domain action.names := by
  simp [Action.questions, tokenQuestions]

/-- Where the rest is in order, the names decide. -/
theorem run_validate (authorized : context.authorized (.domainIssue action.domain) = true)
    (known : store.domains.contains action.domain = true) (owned : action.owner ≠ [])
    (told : store.failures ((Action.issueTokens action).questions.map Call.ask) faults =
      none :: answers) :
    ∃ left : φ, answers = store.failures (tokenQuestions action.domain action.names) left ∧
      (((Action.issueTokens action).validate context).run store faults).result =
        ((checkTokenNames action.domain [] action.names).run store left).result.map
          (fun _ => .issueTokens action.tokens) ∧
      (((Action.issueTokens action).validate context).run store faults).calls =
        .ask (.existsDomain action.domain) ::
          ((checkTokenNames action.domain [] action.names).run store left).calls := by
  rw [questions_eq] at told
  rcases struck : FaultSource.strike (.ask (.existsDomain action.domain)) faults with
    ⟨_ | error, left⟩
  · have sent : store.send (.ask (.existsDomain action.domain)) faults = (.ok store, left) := by
      simp only [Store.send, struck]
      rfl
    rw [Store.failures_cons_of_ok sent] at told
    have answered : store.ask (.existsDomain action.domain) = .ok true := congrArg Except.ok known
    have owner : (!action.owner.isEmpty) = true := by simpa using owned
    refine ⟨left, (List.cons.inj told).2.symm, ?_⟩
    obtain ⟨result, calls⟩ := Check.run_bind_pure
      (checkTokenNames action.domain [] action.names) (fun _ => Plan.issueTokens action.tokens)
      store left
    have checked : ((Action.issueTokens action).validate context).run store faults =
        let report := (checkTokenNames action.domain [] action.names >>= fun _ =>
          pure (Plan.issueTokens action.tokens)).run store left
        { report with calls := .ask (.existsDomain action.domain) :: report.calls } := by
      rw [Action.validate_of_authorized authorized]
      change action.plan.run store faults = _
      rw [plan, Check.run_query_bind_of_answered struck answered,
        Check.run_ensure_bind_of_true (Eq.refl true), Check.run_ensure_bind_of_true owner]
      rfl
    rw [checked]
    exact ⟨result, congrArg _ calls⟩
  · have sent : store.send (.ask (.existsDomain action.domain)) faults = (.error error, left) := by
      simp only [Store.send, struck]
    rw [Store.failures_cons_of_error sent] at told
    exact absurd (List.cons.inj told).1 (Option.some_ne_none error)

theorem result_eq_ok_iff (authorized : context.authorized (.domainIssue action.domain) = true)
    (known : store.domains.contains action.domain = true) (owned : action.owner ≠ [])
    (told : store.failures ((Action.issueTokens action).questions.map Call.ask) faults =
      none :: answers) {plan : Plan} :
    (((Action.issueTokens action).validate context).run store faults).result = .ok plan ↔
      ((∀ name ∈ action.names, name.text ≠ "") ∧ action.names.Nodup ∧
        (∀ name ∈ action.names, store.tokens.contains ⟨action.domain, name⟩ = false) ∧
        ∀ answer ∈ answers, answer = none) ∧
      plan = .issueTokens action.tokens := by
  constructor
  · intro finished
    have settled := (Action.settle_validate_eq_ok_iff.mp (Check.settle_eq_ok_of_run finished)).2
    obtain ⟨-, -, fresh, distinct, rfl⟩ := settle_plan_eq_ok_iff.mp settled
    have follows := Action.follows_validate context (.issueTokens action)
    have asked := (follows.run store faults).2 _ finished
    have answered := Check.allAnswered_of_ok finished
    rw [asked, Store.AllAnswered, told] at answered
    refine ⟨⟨fun name listed => ?_, distinct, fun name listed => (fresh name listed).2,
      (List.forall_mem_cons.mp answered).2⟩, rfl⟩
    simpa [Name.isEmpty] using (fresh name listed).1
  · rintro ⟨⟨named, distinct, free, answered⟩, rfl⟩
    obtain ⟨left, rfl, result, -⟩ := run_validate authorized known owned told
    obtain ⟨rejected, -⟩ := run_checkTokenNames store action.domain [] action.names left
    rw [result]
    cases judged : ((checkTokenNames action.domain [] action.names).run store left).result with
    | ok finished => rfl
    | error failure =>
        obtain ⟨position, found⟩ := (rejected failure).mp judged
        exact absurd found.objects (not_objectsAt_of_inOrder named distinct free answered)

end Judging

section Order

variable {action : IssueTokens} {names : List Name} {context : Context} {store : Store}
  {plan : Plan}

/-- The names in another order are accepted too, and leave the same in the store. -/
theorem exists_settle_of_perm (reordered : action.names.Perm names)
    (settled : ((Action.issueTokens action).validate context).settle store = .ok plan) :
    ∃ plan',
      ((Action.issueTokens { action with names }).validate context).settle store = .ok plan' ∧
        store.rewritten plan'.writes = store.rewritten plan.writes := by
  obtain ⟨authorized, planned⟩ := Action.settle_validate_eq_ok_iff.mp settled
  obtain ⟨known, owned, fresh, distinct, rfl⟩ := settle_plan_eq_ok_iff.mp planned
  obtain ⟨⟨-, keyed⟩, -⟩ := Action.acceptsAll_of_settle planned
  refine ⟨.issueTokens (tokens { action with names }), ?_, ?_⟩
  · refine Action.settle_validate_eq_ok_iff.mpr ⟨authorized, settle_plan_eq_ok_iff.mpr ?_⟩
    refine ⟨known, owned, fun name listed => ?_, reordered.nodup_iff.mp distinct, rfl⟩
    exact fresh name (reordered.mem_iff.mpr listed)
  · have same := store.tokens.foldl_insert_perm (reordered.map _) keyed
    simp only [Plan.writes, Store.rewritten_cons, Store.rewritten_nil, Store.written]
    rw [tokens, tokens, same]

theorem order_irrelevant (context : Context) (action : IssueTokens) (store : Store)
    (reordered : action.names.Perm names) :
    ((∃ plan, (Action.issueTokens action).dryRun context store = .ok plan) ↔
        ∃ plan, (Action.issueTokens { action with names }).dryRun context store = .ok plan) ∧
      ((Action.issueTokens action).apply context store NoFaults.mk).store =
        ((Action.issueTokens { action with names }).apply context store NoFaults.mk).store := by
  simp only [Action.dryRun, Check.result_run_noFaults]
  cases settled : ((Action.issueTokens action).validate context).settle store with
  | ok plan =>
      obtain ⟨plan', settled', same⟩ := exists_settle_of_perm reordered settled
      refine ⟨⟨fun _ => ⟨plan', settled'⟩, fun _ => ⟨plan, rfl⟩⟩, ?_⟩
      rw [(Action.apply_of_planned settled).2, (Action.apply_of_planned settled').2, same]
  | error failure =>
      cases settled' :
          ((Action.issueTokens { action with names }).validate context).settle store with
      | ok plan' =>
          obtain ⟨plan, back, -⟩ := exists_settle_of_perm reordered.symm settled'
          exact nomatch settled.symm.trans back
      | error failure' =>
          rw [(Action.apply_of_refused settled).2, (Action.apply_of_refused settled').2]
          simp

end Order

/-- What checking comes to, name by name. The answers are the errors that the store meets if it is
asked about the names one after the other. -/
structure JudgedByFirst {φ : Type} (action : IssueTokens) (store : Store)
    (answers : List (Option StoreError)) (report : Check.Report φ Plan) : Prop where
  accepted : ∀ plan, report.result = .ok plan ↔
    ((∀ name ∈ action.names, name.text ≠ "") ∧ action.names.Nodup ∧
        (∀ name ∈ action.names, store.tokens.contains ⟨action.domain, name⟩ = false) ∧
        ∀ answer ∈ answers, answer = none) ∧
      plan = .issueTokens (action.names.map fun name => ⟨action.domain, name, action.owner⟩)
  rejected : ∀ failure, report.result = .error failure ↔
    ∃ position, FirstObjection store action.domain [] action.names answers position failure
  asked : ∀ position failure,
    FirstObjection store action.domain [] action.names answers position failure →
      report.calls = .ask (.existsDomain action.domain) ::
        tokenQuestions action.domain (askedUpTo [] action.names position)
  asked_all : ∀ plan, report.result = .ok plan →
    report.calls = .ask (.existsDomain action.domain) :: tokenQuestions action.domain action.names

/-- Where the rest is in order, a batch is judged by the first name that something is wrong with. In
which order the names come makes no difference to whether they are issued and to what is stored. -/
theorem judged_by_first {φ : Type} [FaultSource φ] (context : Context) (action : IssueTokens)
    (store : Store) (faults : φ) (answers : List (Option StoreError))
    (authorized : context.authorized (.domainIssue action.domain) = true)
    (known : store.domains.contains action.domain = true) (owned : action.owner ≠ [])
    (told : store.failures ((Action.issueTokens action).questions.map Call.ask) faults =
      none :: answers) :
    action.JudgedByFirst store answers
        (((Action.issueTokens action).validate context).run store faults) ∧
      ∀ names, action.names.Perm names →
        ((∃ plan, (Action.issueTokens action).dryRun context store = .ok plan) ↔
            ∃ plan, (Action.issueTokens { action with names }).dryRun context store = .ok plan) ∧
          ((Action.issueTokens action).apply context store NoFaults.mk).store =
            ((Action.issueTokens { action with names }).apply context store NoFaults.mk).store := by
  obtain ⟨left, rfl, result, calls⟩ := run_validate authorized known owned told
  obtain ⟨rejected, asked⟩ := run_checkTokenNames store action.domain [] action.names left
  refine ⟨⟨fun plan => result_eq_ok_iff authorized known owned told, fun failure => ?_,
    fun position failure found => ?_, fun plan finished => ?_⟩,
    fun names => order_irrelevant context action store⟩
  · rw [result, map_eq_error_iff]
    exact rejected failure
  · rw [calls, ← asked position failure found]
    rfl
  · rw [((Action.follows_validate context (.issueTokens action)).run store faults).2 plan finished,
      questions_eq]

theorem judged_by_first_of_repeated :
    let noon : Instant := ⟨⟨2018, 5, 1, by decide⟩, 12, 0, 0, 0⟩
    let context : Context := ⟨fun _ => true, noon, .standard⟩
    let permission (name : String) : Permission := ⟨⟨name⟩, 0, []⟩
    let store := Store.empty.rewritten
      [.addDomain ⟨⟨"d"⟩, ⟨"k"⟩, noon, permission "issue", permission "transfer",
        permission "manage"⟩, .issueTokens [⟨⟨"d"⟩, ⟨"x"⟩, [⟨"k"⟩]⟩]]
    let action : IssueTokens := ⟨⟨"d"⟩, [⟨"a"⟩, ⟨"b"⟩, ⟨"a"⟩, ⟨"x"⟩, ⟨""⟩], [⟨"k"⟩]⟩
    let faults : List Fault := [⟨.existsToken, 3, .storage "lost"⟩]
    let answers : List (Option StoreError) := [none, none, none, some (.storage "lost"), none]
    context.authorized (.domainIssue action.domain) = true ∧
      store.domains.contains action.domain = true ∧ action.owner ≠ [] ∧
      store.failures ((Action.issueTokens action).questions.map Call.ask) faults = none :: answers ∧
      action.JudgedByFirst store answers
        (((Action.issueTokens action).validate context).run store faults) := by
  intro noon context permission store action faults answers
  have known : store.domains.contains action.domain = true := by decide +kernel
  have owned : action.owner ≠ [] := by decide
  have told : store.failures ((Action.issueTokens action).questions.map Call.ask) faults =
      none :: answers := by decide +kernel
  exact ⟨rfl, known, owned, told,
    (judged_by_first context action store faults answers rfl known owned told).1⟩

end IssueTokens

end TokenLedger
