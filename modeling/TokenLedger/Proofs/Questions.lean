import TokenLedger.Proofs.Footprint
import TokenLedger.Proofs.Settlement

/-!
What an action asks the store.

The questions of a check and their order are fixed by the action alone (`Action.questions`); the
answers decide only how far it gets. The questions are about the targets of the action, or whether
other records are there that it names (`Action.consults`). So two stores that answer these alike are
the same to the check (`Check.settle_congr`).
-/

set_option autoImplicit false

namespace TokenLedger

/-- The record that a query is about. -/
def Query.key : Query → RecordKey
  | .existsDomain name | .readDomain name => .domain name
  | .existsGroup id | .readGroup id => .group id
  | .existsToken domain name | .readToken domain name => .token ⟨domain, name⟩
  | .existsAccount name | .readAccount name => .account name

/-- The question whether there is such a record. -/
def RecordKey.presence : RecordKey → Query
  | .domain name => .existsDomain name
  | .group id => .existsGroup id
  | .token key => .existsToken key.domain key.name
  | .account name => .existsAccount name

namespace Check

variable {α β : Type}

/-- Whatever is answered, the check asks these questions in this order, unless it fails before. -/
def Follows : Check α → List Query → Prop
  | .done _, questions => questions = []
  | .fail _, _ => True
  | .note _ next, questions => next.Follows questions
  | .ask query next, questions =>
      ∃ rest, questions = query :: rest ∧ ∀ answer, (next answer).Follows rest

namespace Follows

variable {first rest : List Query}

theorem pure (value : α) : (Pure.pure value : Check α).Follows [] := rfl

theorem emit (event : Event) : (Check.emit event).Follows [] := rfl

theorem ofExcept (result : Except Failure α) : (Check.ofExcept result).Follows [] := by
  cases result with
  | error failure => trivial
  | ok value => rfl

theorem ensure (condition : Bool) (reason : Reason) : (Check.ensure condition reason).Follows [] :=
  ofExcept _

theorem bind {check : Check α} {next : α → Check β} (start : check.Follows first)
    (others : ∀ a, (next a).Follows rest) : (check >>= next).Follows (first ++ rest) := by
  change (check.bind next).Follows (first ++ rest)
  induction check generalizing first with
  | done value =>
      cases start
      exact others value
  | fail failure => trivial
  | note event later inductionHypothesis => exact inductionHypothesis start
  | ask query later inductionHypothesis =>
      obtain ⟨after, rfl, answered⟩ := start
      exact ⟨after ++ rest, rfl, fun answer => inductionHypothesis answer (answered answer)⟩

theorem ask {question : Query} {next : question.Answer → Check β}
    (others : ∀ answer, (next answer).Follows rest) :
    (Check.query question >>= next).Follows (question :: rest) :=
  ⟨rest, rfl, others⟩

/-- Ask nothing, and go on. -/
theorem silently {check : Check α} {next : α → Check β} (silent : check.Follows [])
    (others : ∀ a, (next a).Follows rest) : (check >>= next).Follows rest :=
  bind silent others

/-- End without asking more. -/
theorem last {check : Check α} {next : α → Check β} (start : check.Follows first)
    (others : ∀ a, (next a).Follows []) : (check >>= next).Follows first := by
  simpa using bind start others

theorem forM {items : List β} {step : β → Check Unit} {asked : β → List Query}
    (each : ∀ item, (step item).Follows (asked item)) :
    (forM items step).Follows (items.flatMap asked) := by
  induction items with
  | nil => rfl
  | cons item others inductionHypothesis =>
      rw [List.forM_cons, List.flatMap_cons]
      exact (each item).bind fun _ => inductionHypothesis

theorem foldlM {items : List β} {step : α → β → Check α} {start : α} {asked : β → List Query}
    (each : ∀ value item, (step value item).Follows (asked item)) :
    (items.foldlM step start).Follows (items.flatMap asked) := by
  induction items generalizing start with
  | nil => rfl
  | cons item others inductionHypothesis =>
      rw [List.foldlM_cons, List.flatMap_cons]
      exact (each start item).bind fun _ => inductionHypothesis

end Follows

section Allowed

variable {allowed : Query → Prop}

/-- Whatever is answered, the check asks nothing but what is allowed. -/
def AsksOnly (allowed : Query → Prop) : Check α → Prop
  | .done _ | .fail _ => True
  | .note _ next => next.AsksOnly allowed
  | .ask query next => allowed query ∧ ∀ answer, (next answer).AsksOnly allowed

theorem AsksOnly.mono {larger : Query → Prop} {check : Check α} (asks : check.AsksOnly allowed)
    (implied : ∀ query, allowed query → larger query) : check.AsksOnly larger := by
  induction check with
  | done value => trivial
  | fail failure => trivial
  | note event next inductionHypothesis => exact inductionHypothesis asks
  | ask query next inductionHypothesis =>
      exact ⟨implied query asks.1, fun answer => inductionHypothesis answer (asks.2 answer)⟩

theorem Follows.asksOnly {check : Check α} {questions : List Query}
    (follows : check.Follows questions) : check.AsksOnly fun query => query ∈ questions := by
  induction check generalizing questions with
  | done value => trivial
  | fail failure => trivial
  | note event next inductionHypothesis => exact inductionHypothesis follows
  | ask query next inductionHypothesis =>
      obtain ⟨rest, rfl, answered⟩ := follows
      refine ⟨List.mem_cons_self, fun answer => ?_⟩
      exact (inductionHypothesis answer (answered answer)).mono fun _ => List.mem_cons_of_mem _

/-- Stores that answer all allowed questions alike settle the check alike. -/
theorem settle_congr {check : Check α} (asks : check.AsksOnly allowed) {store other : Store}
    (agree : ∀ query, allowed query → store.ask query = other.ask query) :
    check.settle store = check.settle other := by
  induction check with
  | done value => rfl
  | fail failure => rfl
  | note event next inductionHypothesis => exact inductionHypothesis asks
  | ask query next inductionHypothesis =>
      simp only [settle, agree query asks.1]
      cases other.ask query with
      | error error => rfl
      | ok answer => exact inductionHypothesis answer (asks.2 answer)

end Allowed

end Check

/-- One question for each reference to a group, the owner aside. -/
def Permission.questions (permission : Permission) : List Query :=
  (permission.groups.filter fun reference => !reference.id.isOwner).map fun reference =>
    .existsGroup reference.id

/-- The groups that a permission refers to, the owner aside. -/
def Permission.consults (permission : Permission) : List RecordKey :=
  (permission.groups.filter fun reference => !reference.id.isOwner).map fun reference =>
    .group reference.id

theorem Permission.mem_questions_iff {permission : Permission} {query : Query} :
    query ∈ permission.questions ↔ ∃ key ∈ permission.consults, query = key.presence := by
  constructor
  · intro asked
    obtain ⟨reference, listed, rfl⟩ := List.mem_map.mp asked
    exact ⟨.group reference.id, List.mem_map.mpr ⟨reference, listed, rfl⟩, rfl⟩
  · rintro ⟨key, consulted, rfl⟩
    obtain ⟨reference, listed, rfl⟩ := List.mem_map.mp consulted
    exact List.mem_map.mpr ⟨reference, listed, rfl⟩

namespace Action

/-- What checking asks the store, if nothing stops it. -/
def questions : Action → List Query
  | .newDomain action =>
      .existsDomain action.name ::
        Slot.all.flatMap (fun slot => (action.permission slot).questions) ++
        action.groups.map fun group => .existsGroup group.id
  | .updateDomain action =>
      .existsDomain action.name :: .readDomain action.name ::
        Slot.all.flatMap
          (fun slot => (action.permission? slot).toList.flatMap Permission.questions) ++
        action.groups.map fun group => .existsGroup group.id
  | .issueTokens action =>
      .existsDomain action.domain :: action.names.map fun name => .existsToken action.domain name
  | .transferToken action => [.existsToken action.domain action.name]
  | .updateGroup action => [.existsGroup action.id, .readGroup action.id]
  | .newAccount action => [.existsAccount action.name]
  | .updateOwner action => [.existsAccount action.name, .readAccount action.name]
  | .transferBalance action =>
      [.existsAccount action.source, .existsAccount action.target, .readAccount action.source,
        .readAccount action.target]

/-- The records besides the targets whose presence matters to an action. -/
def consults : Action → List RecordKey
  | .newDomain action => Slot.all.flatMap fun slot => (action.permission slot).consults
  | .updateDomain action =>
      Slot.all.flatMap fun slot => (action.permission? slot).toList.flatMap Permission.consults
  | .issueTokens action => [.domain action.domain]
  | .transferToken _ | .updateGroup _ | .newAccount _ | .updateOwner _ | .transferBalance _ => []

/-- The question is about a target, or it is whether a record is there that the action consults. -/
def MayAsk (action : Action) (query : Query) : Prop :=
  query.key ∈ action.targets ∨ ∃ key ∈ action.consults, query = key.presence

end Action

section Parts

variable (groups : List Group)

theorem follows_resolve (permission : Permission) (allowsOwner : Bool) :
    (permission.resolve groups allowsOwner).Follows permission.questions := by
  have each (reference : GroupWeight) :
      (if reference.id.isOwner then Check.ensure allowsOwner (.ownerNotAllowed permission.name)
        else resolveGroup groups reference.id).Follows
        (if reference.id.isOwner then [] else [.existsGroup reference.id]) := by
    split
    · exact .ensure _ _
    · exact .ask fun stored => .silently (.emit _) fun _ => .ensure _ _
  have asked : permission.questions = permission.groups.flatMap fun reference =>
      if reference.id.isOwner then [] else [.existsGroup reference.id] := by
    unfold Permission.questions
    induction permission.groups with
    | nil => rfl
    | cons reference rest inductionHypothesis =>
        cases owner : reference.id.isOwner <;>
          simp [-GroupId.isOwner_iff, owner, inductionHypothesis]
  rw [asked]
  exact .forM each

theorem follows_checkAbsent :
    (checkAbsent groups).Follows (groups.map fun group => .existsGroup group.id) := by
  rw [List.map_eq_flatMap]
  exact .forM fun group => .ask fun stored => .ensure _ _

theorem follows_checkTokenNames (domain : Name) (earlier names : List Name) :
    (checkTokenNames domain earlier names).Follows
      (names.map fun name => .existsToken domain name) := by
  induction names generalizing earlier with
  | nil => rfl
  | cons name rest inductionHypothesis =>
      refine .silently (.ensure _ _) fun _ => .silently (.ensure _ _) fun _ => .ask fun issued => ?_
      exact .silently (.ensure _ _) fun _ => inductionHypothesis (name :: earlier)

end Parts

namespace Action

theorem follows_newDomain (action : NewDomain) (time : Instant) :
    (action.plan time).Follows (questions (.newDomain action)) := by
  unfold NewDomain.plan
  refine .ask fun known => .silently (.ensure _ _) fun _ => .silently (.ofExcept _) fun _ => ?_
  refine .silently (.ensure _ _) fun _ => .silently ?_ fun _ => ?_
  · exact .forM fun slot => .ofExcept _
  · refine .bind (.forM fun slot => follows_resolve _ _ _) fun _ => ?_
    exact .last (follows_checkAbsent _) fun _ => .pure _

theorem follows_amend (action : UpdateDomain) (domain : Domain) (slot : Slot) :
    (action.amend domain slot).Follows
      ((action.permission? slot).toList.flatMap Permission.questions) := by
  unfold UpdateDomain.amend
  split
  case h_1 absent =>
    rw [absent]
    exact .pure _
  case h_2 permission given =>
    rw [given, Option.toList_some, List.flatMap_singleton]
    refine .silently (.ofExcept _) fun _ => .last ?_ fun _ => .pure _
    exact follows_resolve _ _ _

theorem follows_updateDomain (action : UpdateDomain) :
    action.plan.Follows (questions (.updateDomain action)) := by
  unfold UpdateDomain.plan
  refine .ask fun known => .silently (.ensure _ _) fun _ => .silently (.ofExcept _) fun _ => ?_
  refine .silently (.ensure _ _) fun _ => .ask fun stored => ?_
  refine .bind (.foldlM fun domain slot => follows_amend _ _ _) fun amended => ?_
  exact .last (follows_checkAbsent _) fun _ => .pure _

theorem follows_issueTokens (action : IssueTokens) :
    action.plan.Follows (questions (.issueTokens action)) := by
  unfold IssueTokens.plan
  refine .ask fun known => .silently (.ensure _ _) fun _ => .silently (.ensure _ _) fun _ => ?_
  exact .last (follows_checkTokenNames _ _ _) fun _ => .pure _

theorem follows_transferToken (action : TransferToken) :
    action.plan.Follows (questions (.transferToken action)) := by
  unfold TransferToken.plan
  exact .ask fun issued => .silently (.ensure _ _) fun _ => .pure _

theorem follows_updateGroup (action : UpdateGroup) :
    action.plan.Follows (questions (.updateGroup action)) := by
  unfold UpdateGroup.plan
  refine .ask fun known => .silently (.ensure _ _) fun _ => .silently (.ensure _ _) fun _ => ?_
  exact .ask fun stored => .silently (.ensure _ _) fun _ => .pure _

theorem follows_newAccount (action : NewAccount) (time : Instant) (config : Config) :
    (action.plan time config).Follows (questions (.newAccount action)) := by
  unfold NewAccount.plan
  refine .silently (.ensure _ _) fun _ => .ask fun known => .silently (.ensure _ _) fun _ => ?_
  exact .silently (.ofExcept _) fun _ => .pure _

theorem follows_updateOwner (action : UpdateOwner) :
    action.plan.Follows (questions (.updateOwner action)) := by
  unfold UpdateOwner.plan
  refine .ask fun known => .silently (.ensure _ _) fun _ => .silently (.ensure _ _) fun _ => ?_
  exact .ask fun stored => .pure _

theorem follows_transferBalance (action : TransferBalance) :
    action.plan.Follows (questions (.transferBalance action)) := by
  unfold TransferBalance.plan
  refine .ask fun sourceKnown => .silently (.ensure _ _) fun _ => ?_
  refine .ask fun targetKnown => .silently (.ensure _ _) fun _ => ?_
  refine .silently (.ensure _ _) fun _ => .silently (.ensure _ _) fun _ => ?_
  refine .ask fun source => .ask fun target => .silently (.emit _) fun _ => ?_
  refine .silently (.ensure _ _) fun _ => ?_
  split
  · rfl
  · trivial

theorem follows_validate (context : Context) (action : Action) :
    (action.validate context).Follows action.questions := by
  refine .silently ?authorization fun _ => ?plan
  case authorization =>
    unfold Context.require
    split
    · exact .pure _
    · exact .silently (.emit _) fun _ => .ensure _ _
  case plan =>
    cases action with
    | newDomain action => exact follows_newDomain action context.time
    | updateDomain action => exact follows_updateDomain action
    | issueTokens action => exact follows_issueTokens action
    | transferToken action => exact follows_transferToken action
    | updateGroup action => exact follows_updateGroup action
    | newAccount action => exact follows_newAccount action context.time context.config
    | updateOwner action => exact follows_updateOwner action
    | transferBalance action => exact follows_transferBalance action

/-- The questions are about targets, or whether a record is there that the action consults. -/
theorem mayAsk_of_mem_questions {action : Action} {query : Query}
    (asked : query ∈ action.questions) : action.MayAsk query := by
  have defined {groups : List Group} {first : RecordKey}
      (asked : query ∈ groups.map fun group => .existsGroup group.id) :
      query.key ∈ first :: groups.map fun group => .group group.id := by
    obtain ⟨group, listed, rfl⟩ := List.mem_map.mp asked
    exact List.mem_cons_of_mem _ (List.mem_map.mpr ⟨group, listed, rfl⟩)
  cases action with
  | newDomain action =>
      rcases List.mem_append.mp asked with named | asked
      · rcases List.mem_cons.mp named with rfl | referred
        · exact .inl List.mem_cons_self
        · obtain ⟨slot, listed, asked⟩ := List.mem_flatMap.mp referred
          obtain ⟨key, consulted, rfl⟩ := Permission.mem_questions_iff.mp asked
          exact .inr ⟨key, List.mem_flatMap.mpr ⟨slot, listed, consulted⟩, rfl⟩
      · exact .inl (defined asked)
  | updateDomain action =>
      rcases List.mem_append.mp asked with named | asked
      · rcases List.mem_cons.mp named with rfl | named
        · exact .inl List.mem_cons_self
        · rcases List.mem_cons.mp named with rfl | referred
          · exact .inl List.mem_cons_self
          · obtain ⟨slot, listed, referred⟩ := List.mem_flatMap.mp referred
            obtain ⟨permission, given, asked⟩ := List.mem_flatMap.mp referred
            obtain ⟨key, consulted, rfl⟩ := Permission.mem_questions_iff.mp asked
            refine .inr ⟨key, List.mem_flatMap.mpr ⟨slot, listed, ?_⟩, rfl⟩
            exact List.mem_flatMap.mpr ⟨permission, given, consulted⟩
      · exact .inl (defined asked)
  | issueTokens action =>
      rcases List.mem_cons.mp asked with rfl | asked
      · exact .inr ⟨.domain action.domain, List.mem_singleton_self _, rfl⟩
      · obtain ⟨name, listed, rfl⟩ := List.mem_map.mp asked
        exact .inl (List.mem_map.mpr ⟨name, listed, rfl⟩)
  | transferToken | newAccount =>
      cases List.mem_singleton.mp asked
      exact .inl (List.mem_singleton_self _)
  | updateGroup | updateOwner =>
      simp only [questions, List.mem_cons, List.not_mem_nil, or_false] at asked
      rcases asked with rfl | rfl <;> exact .inl (List.mem_singleton_self _)
  | transferBalance =>
      left
      simp only [questions, List.mem_cons, List.not_mem_nil, or_false] at asked
      rcases asked with rfl | rfl | rfl | rfl <;> simp [Query.key, targets]

/-- An action asks nothing but about its targets and whether the records that it consults are
there. -/
theorem asksOnly_validate (context : Context) (action : Action) :
    (action.validate context).AsksOnly action.MayAsk :=
  (follows_validate context action).asksOnly.mono fun _ => mayAsk_of_mem_questions

end Action

end TokenLedger
