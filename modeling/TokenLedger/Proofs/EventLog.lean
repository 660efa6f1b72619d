import TokenLedger.Proofs.Findings

/-!
What the log tells of an action.

The log opens with the action and closes with the one event that tells how it ended: rejected,
broken off, or applied (`Outcome.EndsAs`). Between them stand what checking noted, the announcement
of the plan if there is one, and the writes that were made. So the log agrees with what happened
(`Action.apply_logsTruly`). The level set for rejections decides the level of that event and nothing
else.
-/

set_option autoImplicit false

namespace TokenLedger

namespace Event

/-- An event as it stands in the log. -/
structure Line where
  level : LogLevel
  message : String
  fields : List (String × Field)
  deriving DecidableEq, Repr

def line (event : Event) : Line := ⟨event.level, event.message, event.fields⟩

/-- The messages that tell how an action ended. -/
def verdicts : List String :=
  ["Action rejected", "Commit failed after validation", "Action applied"]

/-- The event tells how the action ended. -/
def closes : Event → Bool
  | .rejected _ _ _ | .commitFailed _ _ | .applied _ => true
  | _ => false

/-- The event tells that a plan is about to be carried out. -/
def announces : Event → Bool
  | .committing _ => true
  | _ => false

end Event

/-- The message that a plan for an action of this kind is about to be carried out. -/
def ActionKind.announcement : ActionKind → String
  | .newDomain => "Creating domain"
  | .updateDomain => "Updating domain"
  | .issueTokens => "Issuing tokens"
  | .transferToken => "Transferring token"
  | .updateGroup => "Updating group"
  | .newAccount => "Creating account"
  | .updateOwner => "Updating account owner"
  | .transferBalance => "Transferring balance"

namespace Event

variable (event : Event)

theorem message_mem_verdicts_iff : event.message ∈ verdicts ↔ event.closes = true := by
  rcases event with _ | _ | _ | _ | _ | _ | plan | write | _ | _
  case committing => cases plan <;> simp [message, planMessage, verdicts, closes]
  case wrote => cases write <;> simp [message, writeMessage, verdicts, closes]
  all_goals simp [message, verdicts, closes]

theorem message_mem_announcements_iff :
    event.message ∈ ActionKind.all.map ActionKind.announcement ↔ event.announces = true := by
  rcases event with _ | _ | _ | _ | _ | _ | plan | write | _ | _
  case committing =>
    cases plan <;> simp [message, planMessage, ActionKind.all, ActionKind.announcement, announces]
  case wrote =>
    cases write <;> simp [message, writeMessage, ActionKind.all, ActionKind.announcement, announces]
  all_goals simp [message, ActionKind.all, ActionKind.announcement, announces]

theorem message_eq_resolving_iff :
    event.message = "Resolving group reference" ↔ event.resolves = true := by
  rcases event with _ | _ | _ | _ | _ | _ | plan | write | _ | _
  case committing => cases plan <;> simp [message, planMessage, resolves]
  case wrote => cases write <;> simp [message, writeMessage, resolves]
  all_goals simp [message, resolves]

variable {event}

theorem not_closes_of_noted (noted : event.isFinding = true ∨ event.resolves = true) :
    event.closes = false ∧ event.announces = false := by
  cases event <;> simp_all [isFinding, resolves, closes, announces]

/-- The line as it stands in the log if rejections are logged at that level. -/
def Line.rejectingAt (level : LogLevel) (line : Line) : Line :=
  if line.message = "Action rejected" then { line with level } else line

end Event

/-- How applying an action ended. -/
inductive Ending where
  | rejected (failure : Failure)
  | brokenOff (error : StoreError)
  | applied
  deriving DecidableEq, Repr

/-- The event that tells the ending. -/
def Ending.event (level : LogLevel) (action : ActionKind) : Ending → Event
  | .rejected failure => .rejected level action failure
  | .brokenOff error => .commitFailed action (.store error)
  | .applied => .applied action

theorem Ending.closes_event (level : LogLevel) (action : ActionKind) (ending : Ending) :
    (ending.event level action).closes = true := by
  cases ending <;> rfl

theorem Ending.rejectingAt_event (level other : LogLevel) (action : ActionKind) (ending : Ending) :
    (ending.event other action).line.rejectingAt level = (ending.event level action).line := by
  cases ending <;>
    simp [Event.Line.rejectingAt, event, Event.line, Event.message, Event.level, Event.fields]

/-- The same but for the level at which rejections are logged. -/
def Context.rejectingAt (context : Context) (level : LogLevel) : Context :=
  { context with config := { context.config with rejectionLevel := level } }

@[simp] theorem Context.rejectionLevel_rejectingAt (context : Context) (level : LogLevel) :
    (context.rejectingAt level).config.rejectionLevel = level := rfl

section Running

variable {φ : Type}

def Outcome.lines (outcome : Outcome φ) : List Event.Line := outcome.log.map Event.line

/-- The announcement of the plan that checking came to, if it came to one. -/
def Check.Report.announcement (report : Check.Report φ Plan) : List Event :=
  match report.result with
  | .error _ => []
  | .ok plan => [.committing plan]

/-- The course of events up to the ending. -/
def Action.course (action : Action) (report : Check.Report φ Plan) (made : List Write) :
    List Event :=
  [.applying action.kind, .payload action.kind action.encode] ++ report.log ++
    report.announcement ++ made.map .wrote

namespace Check.Report

variable {report : Check.Report φ Plan}

theorem announcement_of_error {failure : Failure} (result : report.result = .error failure) :
    report.announcement = [] := by
  simp only [announcement, result]

theorem announcement_of_ok {plan : Plan} (result : report.result = .ok plan) :
    report.announcement = [.committing plan] := by
  simp only [announcement, result]

theorem eq_committing_of_mem_announcement {event : Event} (told : event ∈ report.announcement) :
    ∃ plan, event = .committing plan := by
  unfold announcement at told
  split at told
  · cases told
  · exact ⟨_, List.mem_singleton.mp told⟩

end Check.Report

namespace Action

section Courses

variable {action : Action} {report : Check.Report φ Plan} {made : List Write}
  (noted : ∀ event ∈ report.log, event.isFinding = true ∨ event.resolves = true)

include noted

theorem message_of_mem_course {event : Event} (told : event ∈ action.course report made) :
    event.message ∉ Event.verdicts := by
  rw [Event.message_mem_verdicts_iff, Bool.not_eq_true]
  simp only [course, List.mem_append, List.mem_map] at told
  obtain ((opening | checking) | announcement) | ⟨write, -, rfl⟩ := told
  · simp only [List.mem_cons, List.not_mem_nil, or_false] at opening
    obtain rfl | rfl := opening <;> rfl
  · exact (Event.not_closes_of_noted (noted event checking)).1
  · obtain ⟨plan, rfl⟩ := Check.Report.eq_committing_of_mem_announcement announcement
    rfl
  · rfl

theorem filter_announces_course :
    (action.course report made).filter Event.announces = report.announcement := by
  have checking : report.log.filter Event.announces = [] :=
    List.filter_eq_nil_iff.mpr fun event told => by
      simp [(Event.not_closes_of_noted (noted event told)).2]
  have writing : (made.map Event.wrote).filter Event.announces = [] :=
    List.filter_eq_nil_iff.mpr (List.forall_mem_map.mpr fun write _ => nofun)
  have announcing : report.announcement.filter Event.announces = report.announcement := by
    refine List.filter_eq_self.mpr fun event told => ?_
    obtain ⟨plan, rfl⟩ := Check.Report.eq_committing_of_mem_announcement told
    rfl
  simp [course, checking, announcing, writing, Event.announces]

omit noted in
theorem filter_resolves_course :
    (action.course report made).filter Event.resolves = report.log.filter Event.resolves := by
  have writing : (made.map Event.wrote).filter Event.resolves = [] :=
    List.filter_eq_nil_iff.mpr (List.forall_mem_map.mpr fun write _ => nofun)
  have announcing : report.announcement.filter Event.resolves = [] := by
    refine List.filter_eq_nil_iff.mpr fun event told => ?_
    obtain ⟨plan, rfl⟩ := Check.Report.eq_committing_of_mem_announcement told
    exact nofun
  simp [course, announcing, writing, Event.resolves]

end Courses

end Action

variable [FaultSource φ]

/-- A call to write was made and met this error. -/
def Outcome.FailsToWrite (outcome : Outcome φ) (store : Store) (faults : φ) (error : StoreError) :
    Prop :=
  ∃ (position : Nat) (write : Write), outcome.calls[position]? = some (.perform write) ∧
    (store.failures outcome.calls faults)[position]? = some (some error)

/-- Checking was turned down, or a write failed, or all went well. -/
structure Outcome.EndsAs (outcome : Outcome φ) (report : Check.Report φ Plan) (store : Store)
    (faults : φ) (ending : Ending) : Prop where
  rejected : ∀ failure, report.result = .error failure ↔ ending = .rejected failure
  brokenOff : ∀ error, outcome.FailsToWrite store faults error ↔ ending = .brokenOff error
  applied : outcome.result = .ok () ↔ ending = .applied

theorem Store.exists_failing_call_of_commit {store : Store} {writes : List Write} {faults : φ}
    {error : StoreError} (failed : (store.commit writes faults).result = .error (.store error)) :
    ∃ (made : Nat) (write : Write),
      (store.commit writes faults).calls[made]? = some (.perform write) ∧
      (store.failures (store.commit writes faults).calls faults)[made]? = some (some error) := by
  rcases store.allAnswered_or_failing (store.commit writes faults).calls faults with
    answered | ⟨made, met, fails⟩
  · cases failed.symm.trans (store.commit_of_allAnswered writes faults answered)
  · obtain ⟨less, calls, result, -⟩ := store.commit_of_failing_call writes faults fails
    cases failed.symm.trans result
    refine ⟨made, writes[made], ?_, fails⟩
    rw [calls]
    simp [less]

theorem Check.perform_not_mem_calls {α : Type} (check : Check α) (store : Store) (faults : φ)
    (write : Write) : .perform write ∉ (check.run store faults).calls := by
  intro called
  have written : write ∈ (check.run store faults).calls.filterMap Call.write? :=
    List.mem_filterMap.mpr ⟨_, called, rfl⟩
  rw [check.filterMap_write?_calls] at written
  cases written

namespace Action

theorem validate_rejectingAt (context : Context) (action : Action) (level : LogLevel) :
    action.validate (context.rejectingAt level) = action.validate context := by
  cases action <;> rfl

/-- Writing fails while a plan is carried out. -/
theorem failsToWrite_iff {context : Context} {action : Action} {store : Store} {faults : φ}
    {error : StoreError} :
    (action.apply context store faults).FailsToWrite store faults error ↔
      ∃ plan, ((action.validate context).run store faults).result = .ok plan ∧
        (store.commit plan.writes ((action.validate context).run store faults).faults).result =
          .error (.store error) := by
  rcases action.apply_calls_cases context store faults with
    ⟨failure, checked, -, calls⟩ | ⟨plan, checked, -, calls⟩
  · constructor
    · rintro ⟨position, write, called, -⟩
      rw [calls] at called
      exact absurd (List.mem_of_getElem? called) (Check.perform_not_mem_calls _ store faults write)
    · rintro ⟨plan, planned, -⟩
      cases checked.symm.trans planned
  · constructor
    · rintro ⟨position, write, -, fails⟩
      rw [calls] at fails
      obtain ⟨made, -, failed⟩ := Check.failing_call_after checked fails
      exact ⟨plan, checked, (store.commit_of_failing_call plan.writes _ failed).2.2.1⟩
    · rintro ⟨other, planned, failed⟩
      cases checked.symm.trans planned
      obtain ⟨made, write, called, fails⟩ := Store.exists_failing_call_of_commit failed
      refine ⟨((action.validate context).run store faults).calls.length + made, write, ?_, ?_⟩
      · rw [calls, List.getElem?_append_right (Nat.le_add_right _ _), Nat.add_sub_cancel_left]
        exact called
      · rw [calls, Check.failures_calls_append, List.getElem?_append_right (by simp),
          Store.length_failures, Nat.add_sub_cancel_left]
        exact fails

/-- Whatever happens, the log ends with how it ended. The level of rejections is the level of that
event if it is a rejection, and all else is the same. -/
theorem apply_endsAs (context : Context) (action : Action) (store : Store) (faults : φ) :
    ∃ ending made, (action.apply context store faults).EndsAs
        ((action.validate context).run store faults) store faults ending ∧
      ∀ level, action.apply (context.rejectingAt level) store faults =
        { action.apply context store faults with
          log := action.course ((action.validate context).run store faults) made ++
            [ending.event level action.kind] } := by
  cases checked : ((action.validate context).run store faults).result with
  | error failure =>
      have announced := Check.Report.announcement_of_error checked
      refine ⟨.rejected failure, [], ⟨?rejected, ?brokenOff, ?applied⟩, fun level => ?happens⟩
      case rejected => simp [checked]
      case brokenOff => simp [failsToWrite_iff, checked]
      case applied => simp [apply, checked]
      case happens =>
        simp [apply, validate_rejectingAt, checked, course, announced, Ending.event]
  | ok plan =>
      have announced := Check.Report.announcement_of_ok checked
      obtain ⟨made, rest, -, makes, -, log⟩ :=
        store.commit_makes plan.writes ((action.validate context).run store faults).faults
      by_cases whole : rest = []
      · have committed := makes.completes whole
        refine ⟨.applied, made, ⟨?rejected, ?brokenOff, ?applied⟩, fun level => ?happens⟩
        case rejected => simp [checked]
        case brokenOff => simp [failsToWrite_iff, checked, committed]
        case applied => simp [apply, checked, committed]
        case happens =>
          simp [apply, validate_rejectingAt, checked, committed, course, announced, log,
            Ending.event]
      · obtain ⟨error, committed⟩ := makes.breaks whole
        refine ⟨.brokenOff error, made, ⟨?rejected, ?brokenOff, ?applied⟩, fun level => ?happens⟩
        case rejected => simp [checked]
        case brokenOff => simp [failsToWrite_iff, checked, committed]
        case applied => simp [apply, checked, committed]
        case happens =>
          simp [apply, validate_rejectingAt, checked, committed, course, announced, log,
            Ending.event]

/-- A plan is announced in the words for the kind of its action. -/
theorem planMessage_of_settle {context : Context} {action : Action} {store : Store} {plan : Plan}
    (settled : (action.plan context).settle store = .ok plan) :
    Event.planMessage plan = action.kind.announcement := by
  cases action with
  | newDomain action =>
      obtain ⟨-, -, -, -, -, -, rfl⟩ := NewDomain.settle_plan_eq_ok_iff.mp settled
      rfl
  | updateDomain action =>
      obtain ⟨stored, -, -, -, -, -, rfl⟩ := UpdateDomain.settle_plan_eq_ok_iff.mp settled
      rfl
  | issueTokens action =>
      obtain ⟨-, -, -, -, rfl⟩ := IssueTokens.settle_plan_eq_ok_iff.mp settled
      rfl
  | transferToken action =>
      obtain ⟨-, rfl⟩ := TransferToken.settle_plan_eq_ok_iff.mp settled
      rfl
  | updateGroup action =>
      obtain ⟨stored, -, -, -, rfl⟩ := UpdateGroup.settle_plan_eq_ok_iff.mp settled
      rfl
  | newAccount action =>
      obtain ⟨-, -, -, rfl⟩ := NewAccount.settle_plan_eq_ok_iff.mp settled
      rfl
  | updateOwner action =>
      obtain ⟨stored, -, -, rfl⟩ := UpdateOwner.settle_plan_eq_ok_iff.mp settled
      rfl
  | transferBalance action =>
      obtain ⟨source, target, debited, credited, -, -, -, -, -, -, -, rfl⟩ :=
        TransferBalance.settle_plan_eq_ok_iff.mp settled
      rfl

end Action

end Running

namespace Outcome

variable {φ : Type} {outcome : Outcome φ}

/-- The lines of some messages are those of the events that have these messages. -/
theorem filter_lines (wanted : String → Bool) (told : Event → Bool)
    (same : ∀ event : Event, wanted event.message = true ↔ told event = true) :
    outcome.lines.filter (fun line => wanted line.message) =
      (outcome.log.filter told).map Event.line := by
  rw [lines, List.filter_map]
  have alike : wanted ∘ Event.message = told :=
    funext fun event => Bool.eq_iff_iff.mpr (same event)
  exact congrArg (fun told => (outcome.log.filter told).map Event.line) alike

/-- If no other event tells how the action ended, a line that does is that of the last event. -/
theorem mem_lines_iff_of_verdict {before : List Event} {closing : Event} {line : Event.Line}
    {message : String} (log : outcome.log = before ++ [closing])
    (silent : ∀ event ∈ before, event.message ∉ Event.verdicts)
    (verdict : message ∈ Event.verdicts) :
    line ∈ outcome.lines ∧ line.message = message ↔
      line = closing.line ∧ closing.message = message := by
  rw [lines, log, List.map_append, List.mem_append, List.map_singleton, List.mem_singleton]
  constructor
  · rintro ⟨told | rfl, rfl⟩
    · obtain ⟨event, earlier, rfl⟩ := List.mem_map.mp told
      exact absurd verdict (silent event earlier)
    · exact ⟨rfl, rfl⟩
  · rintro ⟨rfl, rfl⟩
    exact ⟨.inr rfl, rfl⟩

section Courses

variable {action : Action} {report : Check.Report φ Plan} {made : List Write} {ending : Ending}
  {level : LogLevel}
  (log : outcome.log = action.course report made ++ [ending.event level action.kind])

include log

theorem filter_announcements
    (noted : ∀ event ∈ report.log, event.isFinding = true ∨ event.resolves = true) :
    outcome.lines.filter (fun line => line.message ∈ ActionKind.all.map ActionKind.announcement) =
      report.announcement.map Event.line := by
  have told := outcome.filter_lines
    (fun message => message ∈ ActionKind.all.map ActionKind.announcement) Event.announces
    fun event => by simpa using event.message_mem_announcements_iff
  have last : [ending.event level action.kind].filter Event.announces = [] := by
    cases ending <;> rfl
  rw [told, log, List.filter_append, Action.filter_announces_course noted, last, List.append_nil]

theorem filter_resolutions :
    outcome.lines.filter (fun line => line.message = "Resolving group reference") =
      (report.log.filter Event.resolves).map Event.line := by
  have told := outcome.filter_lines (fun message => message = "Resolving group reference")
    Event.resolves fun event => by simpa using event.message_eq_resolving_iff
  have last : [ending.event level action.kind].filter Event.resolves = [] := by
    cases ending <;> rfl
  rw [told, log, List.filter_append, Action.filter_resolves_course, last, List.append_nil]

end Courses

end Outcome

/-- The log agrees with what happened. The report is on what was checked. -/
structure Outcome.LogsTruly {φ : Type} [FaultSource φ] (outcome : Outcome φ)
    (report : Check.Report φ Plan) (context : Context) (action : Action) (store : Store)
    (faults : φ) : Prop where
  opening :
    [⟨.debug, "Applying action", [("action", .text action.kind.name)]⟩,
      ⟨.trace, "Action payload",
        [("action", .text action.kind.name), ("payload", .text action.encode)]⟩] <+: outcome.lines
  /-- The last line tells how the action ended, and no other does. -/
  closing : ∃ before verdict, outcome.lines = before ++ [verdict] ∧
    verdict.message ∈ Event.verdicts ∧ ∀ line ∈ before, line.message ∉ Event.verdicts
  /-- The action is said to be rejected if checking it failed, and for the error that it failed
  with. -/
  rejected : ∀ line, line ∈ outcome.lines ∧ line.message = "Action rejected" ↔
    ∃ failure, report.result = .error failure ∧
      line = ⟨context.config.rejectionLevel, "Action rejected",
        [("action", .text action.kind.name), ("error", .text (toString failure))]⟩
  brokenOff : ∀ line, line ∈ outcome.lines ∧ line.message = "Commit failed after validation" ↔
    ∃ error, outcome.FailsToWrite store faults error ∧
      line = ⟨.error, "Commit failed after validation",
        [("action", .text action.kind.name), ("error", .text (toString (Failure.store error)))]⟩
  applied : ∀ line, line ∈ outcome.lines ∧ line.message = "Action applied" ↔
    outcome.result = .ok () ∧
      line = ⟨.info, "Action applied", [("action", .text action.kind.name)]⟩
  /-- A plan is announced once, and only if there is one. -/
  announced : ∀ plan, report.result = .ok plan →
    outcome.lines.filter (fun line => line.message ∈ ActionKind.all.map ActionKind.announcement) =
      [⟨.info, action.kind.announcement, Event.planFields plan⟩]
  unannounced : ∀ failure, report.result = .error failure →
    ∀ line ∈ outcome.lines, line.message ∉ ActionKind.all.map ActionKind.announcement
  /-- The groups referred to are asked about after the preliminaries, and those defined at last. -/
  asked : report.calls <+: (action.preliminaries ++ action.references.map Query.existsGroup ++
    action.definitions.map fun group => Query.existsGroup group.id).map Call.ask
  /-- For each reference whose question was answered one line tells where its group was found. -/
  resolved :
    outcome.lines.filter (fun line => line.message = "Resolving group reference") =
      (action.resolved (store.failures report.calls faults)).map fun id =>
        ⟨.debug, "Resolving group reference",
          [("group_id", .text (toString id)), ("in_db", .flag (store.groups.contains id)),
            ("in_action", .flag (action.definitions.any fun group => group.id = id))]⟩

/-- The same happened, and the same is told but for the level of a rejection. -/
structure Outcome.SameButLevel {φ : Type} (other outcome : Outcome φ) (level : LogLevel) :
    Prop where
  result : other.result = outcome.result
  store : other.store = outcome.store
  calls : other.calls = outcome.calls
  faults : other.faults = outcome.faults
  lines : other.lines = outcome.lines.map (Event.Line.rejectingAt level)

namespace Action

variable {φ : Type} [FaultSource φ]

theorem logsTruly (context : Context) (action : Action) (store : Store) (faults : φ) :
    (action.apply context store faults).LogsTruly ((action.validate context).run store faults)
      context action store faults := by
  obtain ⟨noted, resolved⟩ := log_validate context action store faults
  obtain ⟨asked, -⟩ := (follows_validate context action).run store faults
  obtain ⟨ending, made, endsAs, happens⟩ := apply_endsAs context action store faults
  have log : (action.apply context store faults).log =
      action.course ((action.validate context).run store faults) made ++
        [ending.event context.config.rejectionLevel action.kind] :=
    congrArg Outcome.log (happens context.config.rejectionLevel)
  have silent (event : Event)
      (told : event ∈ action.course ((action.validate context).run store faults) made) :=
    message_of_mem_course noted told
  constructor
  case opening =>
    rw [Outcome.lines, log]
    exact ⟨_, rfl⟩
  case closing =>
    refine ⟨_, _, by rw [Outcome.lines, log, List.map_append, List.map_singleton], ?_, ?_⟩
    · exact (Event.message_mem_verdicts_iff _).mpr (ending.closes_event _ _)
    · exact List.forall_mem_map.mpr silent
  case rejected =>
    intro line
    rw [Outcome.mem_lines_iff_of_verdict log silent (by decide)]
    simp only [endsAs.rejected]
    cases ending <;>
      simp [Ending.event, Event.message, Event.line, Event.level, Event.fields, Event.actionField,
        Event.errorField]
  case brokenOff =>
    intro line
    rw [Outcome.mem_lines_iff_of_verdict log silent (by decide)]
    simp only [endsAs.brokenOff]
    cases ending <;>
      simp [Ending.event, Event.message, Event.line, Event.level, Event.fields, Event.actionField,
        Event.errorField]
  case applied =>
    intro line
    rw [Outcome.mem_lines_iff_of_verdict log silent (by decide)]
    simp only [endsAs.applied]
    cases ending <;>
      simp [Ending.event, Event.message, Event.line, Event.level, Event.fields, Event.actionField]
  case announced =>
    intro plan planned
    have settled := (settle_validate_eq_ok_iff.mp (Check.settle_eq_ok_of_run planned)).2
    rw [Outcome.filter_announcements log noted, Check.Report.announcement_of_ok planned,
      ← planMessage_of_settle settled]
    rfl
  case unannounced =>
    intro failure failed
    have announcing := Outcome.filter_announcements log noted
    rw [Check.Report.announcement_of_error failed, List.map_nil] at announcing
    simpa using List.filter_eq_nil_iff.mp announcing
  case asked =>
    rw [← questions_eq]
    exact asked
  case resolved =>
    rw [Outcome.filter_resolutions log, resolved, List.map_map]
    rfl

theorem sameButLevel (context : Context) (action : Action) (store : Store) (faults : φ)
    (level : LogLevel) :
    (action.apply (context.rejectingAt level) store faults).SameButLevel
      (action.apply context store faults) level := by
  obtain ⟨noted, -⟩ := log_validate context action store faults
  obtain ⟨ending, made, -, happens⟩ := apply_endsAs context action store faults
  have log : (action.apply context store faults).log =
      action.course ((action.validate context).run store faults) made ++
        [ending.event context.config.rejectionLevel action.kind] :=
    congrArg Outcome.log (happens context.config.rejectionLevel)
  have kept (event : Event)
      (told : event ∈ action.course ((action.validate context).run store faults) made) :
      event.line.rejectingAt level = event.line := by
    refine if_neg fun rejected => message_of_mem_course noted told ?_
    have message : event.message = "Action rejected" := rejected
    simp [message, Event.verdicts]
  rw [happens level]
  constructor
  case result | store | calls | faults => rfl
  case lines =>
    simp only [Outcome.lines, log, List.map_append, List.map_singleton, List.map_map,
      ending.rejectingAt_event]
    exact congrArg (· ++ _) (List.map_congr_left kept).symm

/-- Whatever the store holds and whatever calls fail, whoever is authorized, and whatever the time
and the settings, the log tells what happened to the action. The level set for rejections decides
the level of that one line and nothing else. -/
theorem apply_logsTruly (context : Context) (action : Action) (store : Store) (faults : φ) :
    (action.apply context store faults).LogsTruly ((action.validate context).run store faults)
        context action store faults ∧
      ∀ level, (action.apply (context.rejectingAt level) store faults).SameButLevel
        (action.apply context store faults) level :=
  ⟨logsTruly context action store faults, sameButLevel context action store faults⟩

/-- A transfer of which only the first write was made. -/
example :
    let noon : Instant := ⟨⟨2018, 5, 1, by decide⟩, 12, 0, 0, 0⟩
    let context : Context := ⟨fun _ => true, noon, .standard⟩
    let account (name : String) : Account := ⟨⟨name⟩, ⟨"evt"⟩, noon, { val := 100 }, .zero, []⟩
    let store := Store.empty.rewritten [.addAccount (account "alice"), .addAccount (account "bob")]
    let action : Action := .transferBalance ⟨⟨"alice"⟩, ⟨"bob"⟩, { val := 40 }⟩
    let faults : List Fault := [⟨.updateAccount, 1, .storage "lost"⟩]
    (action.apply context store faults).lines.map Event.Line.message =
      ["Applying action", "Action payload", "Read transfer accounts", "Transferring balance",
        "update account", "Commit failed after validation"] := by
  decide +kernel

end Action

end TokenLedger
