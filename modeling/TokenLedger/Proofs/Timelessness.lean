import Mathlib.Data.List.Forall2
import TokenLedger.Proofs.History
import TokenLedger.Proofs.Independence

/-!
Time decides nothing.

Domains and accounts record the time at which they came into being, and updates read such records
and write them back. But nothing is decided by a time: from stores that are the same but for the
times in them, an action comes to the same at any time and leaves stores that are the same again
(`Store.after_sameButTimes`). So do runs (`Store.replay_timeless`), at whatever level rejections are
logged.
-/

set_option autoImplicit false

namespace TokenLedger

section Results

variable {ε α β γ δ : Type}

/-- Both results are fine and related, or both are the same failure. -/
inductive Parallel (related : α → β → Prop) : Except ε α → Except ε β → Prop where
  | ok {a : α} {b : β} (results : related a b) : Parallel related (.ok a) (.ok b)
  | error (failure : ε) : Parallel related (.error failure) (.error failure)

namespace Parallel

variable {related : α → β → Prop} {related' : γ → δ → Prop}

theorem bind {first : Except ε α} {second : Except ε β} {next : α → Except ε γ}
    {next' : β → Except ε δ} (start : Parallel related first second)
    (rest : ∀ a b, related a b → Parallel related' (next a) (next' b)) :
    Parallel related' (first >>= next) (second >>= next') := by
  cases start with
  | ok results => exact rest _ _ results
  | error failure => exact .error failure

theorem of_eq {related : α → α → Prop} {first second : Except ε α} (same : first = second)
    (refl : ∀ value, related value value) : Parallel related first second := by
  cases same
  cases first with
  | ok value => exact .ok (refl value)
  | error failure => exact .error failure

/-- A step that is the same on both sides. -/
theorem next {first : Except ε α} {later : α → Except ε γ} {later' : α → Except ε δ}
    (rest : ∀ a, Parallel related' (later a) (later' a)) :
    Parallel related' (first >>= later) (first >>= later') := by
  cases first with
  | ok value => exact rest value
  | error failure => exact .error failure

theorem found {label : String} {first : Option α} {second : Option β}
    (same : Option.Rel related first second) :
    Parallel related ((Store.found label first).mapError Failure.store)
      ((Store.found label second).mapError .store) := by
  cases same with
  | some results => exact .ok results
  | none => exact .error _

end Parallel

end Results

/-- The domains differ in nothing but the time of issue. -/
def Domain.SameButTime (domain other : Domain) : Prop :=
  ∃ time, other = { domain with issueTime := time }

/-- The accounts differ in nothing but the time of creation. -/
def Account.SameButTime (account other : Account) : Prop :=
  ∃ time, other = { account with createTime := time }

/-- The stores differ in nothing but the times in domains and accounts. -/
structure Store.SameButTimes (store other : Store) : Prop where
  domains : ∀ name,
    Option.Rel Domain.SameButTime (store.domains.get? name) (other.domains.get? name)
  groups : store.groups = other.groups
  tokens : store.tokens = other.tokens
  accounts : ∀ name,
    Option.Rel Account.SameButTime (store.accounts.get? name) (other.accounts.get? name)

/-- The writes differ in nothing but the time in the record. -/
inductive Write.SameButTime : Write → Write → Prop where
  | same (write : Write) : SameButTime write write
  | addDomain {domain other : Domain} (same : domain.SameButTime other) :
      SameButTime (.addDomain domain) (.addDomain other)
  | updateDomain {domain other : Domain} (same : domain.SameButTime other) :
      SameButTime (.updateDomain domain) (.updateDomain other)
  | addAccount {account other : Account} (same : account.SameButTime other) :
      SameButTime (.addAccount account) (.addAccount other)
  | updateAccount {account other : Account} (same : account.SameButTime other) :
      SameButTime (.updateAccount account) (.updateAccount other)

instance : Std.Refl Write.SameButTime := ⟨.same⟩

/-- The plans are to make the same writes but for the times in them. -/
def Plan.SameButTimes (plan other : Plan) : Prop :=
  List.Forall₂ Write.SameButTime plan.writes other.writes

/-- The authority and the settings for new accounts are the same. The time may differ, and the level
at which rejections are logged. -/
structure Context.SameButTime (context other : Context) : Prop where
  authorized : ∀ scope, context.authorized scope = other.authorized scope
  systemAccount : context.config.systemAccount = other.config.systemAccount
  initialBalance : context.config.initialBalance = other.config.initialBalance

/-- Other settings for new accounts, and else the same context. -/
def Context.withSettings (context : Context) (systemAccount : Name) (initialBalance : Amount) :
    Context :=
  { context with config := ⟨systemAccount, initialBalance, context.config.rejectionLevel⟩ }

structure Step.SameButTime (step other : Step) : Prop where
  action : step.action = other.action
  context : step.context.SameButTime other.context

section Tables

variable {α κ : Type} [Keyed α κ] [LT κ] [DecidableEq κ] {related : α → α → Prop}

namespace Table

theorem contains_congr_of_rel {table other : Table α} {k : κ}
    (same : Option.Rel related (table.get? k) (other.get? k)) :
    table.contains k = other.contains k := by
  unfold contains
  revert same
  generalize table.get? k = record
  generalize other.get? k = record'
  intro same
  cases same <;> rfl

theorem rel_insert [LE κ] [Std.IsLinearOrder κ] [Std.LawfulOrderLT κ] [DecidableLT κ]
    {table other : Table α} (same : ∀ k, Option.Rel related (table.get? k) (other.get? k))
    {record record' : α} (records : related record record')
    (keys : Keyed.key record = Keyed.key record') (k : κ) :
    Option.Rel related ((table.insert record).get? k) ((other.insert record').get? k) := by
  rw [get?_insert, get?_insert, keys]
  split
  · exact .some records
  · exact same k

end Table

end Tables

theorem Domain.SameButTime.refl (domain : Domain) : domain.SameButTime domain :=
  ⟨domain.issueTime, rfl⟩

theorem Domain.SameButTime.name {domain other : Domain} (same : domain.SameButTime other) :
    domain.name = other.name := by
  obtain ⟨time, rfl⟩ := same
  rfl

theorem Account.SameButTime.refl (account : Account) : account.SameButTime account :=
  ⟨account.createTime, rfl⟩

theorem Account.SameButTime.name {account other : Account} (same : account.SameButTime other) :
    account.name = other.name := by
  obtain ⟨time, rfl⟩ := same
  rfl

namespace Store.SameButTimes

variable {store other : Store}

theorem refl (store : Store) : store.SameButTimes store where
  domains name := by
    cases store.domains.get? name with
    | none => exact .none
    | some domain => exact .some (.refl domain)
  groups := rfl
  tokens := rfl
  accounts name := by
    cases store.accounts.get? name with
    | none => exact .none
    | some account => exact .some (.refl account)

section Writing

theorem insertDomain (same : store.SameButTimes other) {domain domain' : Domain}
    (record : domain.SameButTime domain') :
    SameButTimes { store with domains := store.domains.insert domain }
      { other with domains := other.domains.insert domain' } where
  domains := Table.rel_insert same.domains record record.name
  groups := same.groups
  tokens := same.tokens
  accounts := same.accounts

theorem insertAccount (same : store.SameButTimes other) {account account' : Account}
    (record : account.SameButTime account') :
    SameButTimes { store with accounts := store.accounts.insert account }
      { other with accounts := other.accounts.insert account' } where
  domains := same.domains
  groups := same.groups
  tokens := same.tokens
  accounts := Table.rel_insert same.accounts record record.name

theorem withGroups (same : store.SameButTimes other) {groups groups' : Table Group}
    (tables : groups = groups') :
    SameButTimes { store with groups } { other with groups := groups' } :=
  ⟨same.domains, tables, same.tokens, same.accounts⟩

theorem withTokens (same : store.SameButTimes other) {tokens tokens' : Table Token}
    (tables : tokens = tokens') :
    SameButTimes { store with tokens } { other with tokens := tokens' } :=
  ⟨same.domains, same.groups, tables, same.accounts⟩

theorem written (same : store.SameButTimes other) {write write' : Write}
    (writes : write.SameButTime write') :
    (store.written write).SameButTimes (other.written write') := by
  cases writes with
  | addDomain record | updateDomain record => exact same.insertDomain record
  | addAccount record | updateAccount record => exact same.insertAccount record
  | same write =>
      cases write with
      | addDomain domain | updateDomain domain => exact same.insertDomain (.refl domain)
      | addAccount account | updateAccount account => exact same.insertAccount (.refl account)
      | addGroup group | updateGroup group =>
          exact same.withGroups (congrArg (Table.insert · group) same.groups)
      | issueTokens batch =>
          exact same.withTokens (congrArg (batch.foldl Table.insert) same.tokens)
      | transferToken domain name owner =>
          simp only [Store.written, same.tokens]
          cases other.tokens.get? ⟨domain, name⟩ with
          | none => exact same
          | some token => exact same.withTokens rfl

theorem rewritten (same : store.SameButTimes other) {writes writes' : List Write}
    (each : List.Forall₂ Write.SameButTime writes writes') :
    (store.rewritten writes).SameButTimes (other.rewritten writes') := by
  induction each generalizing store other with
  | nil => exact same
  | cons first _ inductionHypothesis => exact inductionHypothesis (same.written first)

end Writing

end Store.SameButTimes

/-- The answer to the question holds no time. -/
def Query.Timeless : Query → Prop
  | .readDomain _ | .readAccount _ => False
  | .existsDomain _ | .existsGroup _ | .readGroup _ | .existsToken _ _ | .readToken _ _
  | .existsAccount _ => True

theorem Permission.timeless_questions (permission : Permission) :
    ∀ query ∈ permission.questions, query.Timeless := by
  intro query asked
  obtain ⟨reference, -, rfl⟩ := List.mem_map.mp asked
  trivial

theorem Group.timeless_questions (groups : List Group) :
    ∀ query ∈ groups.map fun group => Query.existsGroup group.id, query.Timeless := by
  intro query asked
  obtain ⟨group, -, rfl⟩ := List.mem_map.mp asked
  trivial

section Plans

variable {store other : Store}

namespace Store.SameButTimes

theorem ask (same : store.SameButTimes other) {query : Query} (timeless : query.Timeless) :
    store.ask query = other.ask query := by
  cases query with
  | readDomain name | readAccount name => exact timeless.elim
  | existsDomain name => exact congrArg Except.ok (Table.contains_congr_of_rel (same.domains name))
  | existsAccount name =>
      exact congrArg Except.ok (Table.contains_congr_of_rel (same.accounts name))
  | existsGroup id | readGroup id => simp only [Store.ask, same.groups]
  | existsToken domain name | readToken domain name => simp only [Store.ask, same.tokens]

/-- A check that reads no times comes to the same. -/
theorem settle {α : Type} {check : Check α} {questions : List Query}
    (same : store.SameButTimes other) (follows : check.Follows questions)
    (timeless : ∀ query ∈ questions, query.Timeless) : check.settle store = check.settle other :=
  Check.settle_congr follows.asksOnly fun query asked => same.ask (timeless query asked)

end Store.SameButTimes

theorem Plan.SameButTimes.refl (plan : Plan) : plan.SameButTimes plan :=
  List.forall₂_refl plan.writes

theorem NewDomain.parallel_plan (action : NewDomain) (same : store.SameButTimes other)
    (time later : Instant) :
    Parallel Plan.SameButTimes ((action.plan time).settle store)
      ((action.plan later).settle other) := by
  have timeless : ∀ query ∈ Action.questions (.newDomain action), query.Timeless := by
    intro query asked
    rcases List.mem_append.mp asked with asked | defined
    · rcases List.mem_cons.mp asked with rfl | asked
      · trivial
      · obtain ⟨slot, -, referred⟩ := List.mem_flatMap.mp asked
        exact Permission.timeless_questions _ query referred
    · exact Group.timeless_questions _ query defined
  -- The other store answers alike, so it may be put in the place of the first.
  rw [same.settle (Action.follows_newDomain action time) timeless]
  simp only [NewDomain.plan, Check.settle_bind]
  refine .next fun known => .next fun _ => .next fun _ => .next fun _ => ?_
  refine .next fun _ => .next fun _ => .next fun _ => .ok ?_
  exact .cons (.addDomain ⟨later, rfl⟩) (List.forall₂_refl _)

namespace UpdateDomain

variable (action : UpdateDomain) {domain domain' : Domain}

theorem parallel_amend (same : store.SameButTimes other) (record : domain.SameButTime domain')
    (slot : Slot) :
    Parallel Domain.SameButTime ((action.amend domain slot).settle store)
      ((action.amend domain' slot).settle other) := by
  unfold amend
  cases action.permission? slot with
  | none => exact .ok record
  | some permission =>
      have resolved := same.settle (follows_resolve action.groups permission slot.allowsOwner)
        permission.timeless_questions
      simp only [Check.settle_bind, Check.settle_ofExcept, resolved]
      refine .next fun _ => .next fun _ => .ok ?_
      obtain ⟨time, rfl⟩ := record
      cases slot <;> exact ⟨time, rfl⟩

theorem parallel_foldlM_amend (same : store.SameButTimes other)
    (record : domain.SameButTime domain') (slots : List Slot) :
    Parallel Domain.SameButTime ((slots.foldlM action.amend domain).settle store)
      ((slots.foldlM action.amend domain').settle other) := by
  induction slots generalizing domain domain' with
  | nil => exact .ok record
  | cons slot rest inductionHypothesis =>
      simp only [List.foldlM_cons, Check.settle_bind]
      exact (action.parallel_amend same record slot).bind fun _ _ => inductionHypothesis

theorem parallel_plan (same : store.SameButTimes other) :
    Parallel Plan.SameButTimes (action.plan.settle store) (action.plan.settle other) := by
  have absent := same.settle (follows_checkAbsent action.groups) (Group.timeless_questions _)
  simp only [plan, Check.settle_bind, Check.settle_existsDomain, Check.settle_readDomain,
    Check.settle_ensure, Check.settle_ofExcept, ok_bind, absent,
    Table.contains_congr_of_rel (same.domains action.name)]
  refine .next fun _ => .next fun _ => .next fun _ => ?_
  refine (Parallel.found (same.domains action.name)).bind fun stored stored' record => ?_
  refine (action.parallel_foldlM_amend same record Slot.all).bind fun amended amended' record => ?_
  refine .next fun _ => .ok ?_
  exact .cons (.updateDomain record) (List.forall₂_refl _)

end UpdateDomain

theorem NewAccount.parallel_plan (action : NewAccount) (same : store.SameButTimes other)
    {context context' : Context} (contexts : context.SameButTime context') :
    Parallel Plan.SameButTimes ((action.plan context.time context.config).settle store)
      ((action.plan context'.time context'.config).settle other) := by
  have checked : context.config.check = context'.config.check := by
    simp only [Config.check, contexts.systemAccount, contexts.initialBalance]
  simp only [plan, Check.settle_bind, Check.settle_existsAccount, Check.settle_ensure,
    Check.settle_ofExcept, ok_bind, checked, contexts.systemAccount, contexts.initialBalance,
    Table.contains_congr_of_rel (same.accounts action.name)]
  refine .next fun _ => .next fun _ => .next fun _ => .ok ?_
  exact .cons (.addAccount ⟨context'.time, rfl⟩) .nil

theorem UpdateOwner.parallel_plan (action : UpdateOwner) (same : store.SameButTimes other) :
    Parallel Plan.SameButTimes (action.plan.settle store) (action.plan.settle other) := by
  simp only [plan, Check.settle_bind, Check.settle_existsAccount, Check.settle_readAccount,
    Check.settle_ensure, ok_bind, Table.contains_congr_of_rel (same.accounts action.name)]
  refine .next fun _ => .next fun _ => ?_
  refine (Parallel.found (same.accounts action.name)).bind fun stored stored' record => .ok ?_
  obtain ⟨time, rfl⟩ := record
  exact .cons (.updateAccount ⟨time, rfl⟩) .nil

theorem TransferBalance.parallel_plan (action : TransferBalance)
    (same : store.SameButTimes other) :
    Parallel Plan.SameButTimes (action.plan.settle store) (action.plan.settle other) := by
  simp only [plan, Check.settle_bind, Check.settle_existsAccount, Check.settle_readAccount,
    Check.settle_ensure, Check.settle_emit, ok_bind,
    Table.contains_congr_of_rel (same.accounts action.source),
    Table.contains_congr_of_rel (same.accounts action.target)]
  refine .next fun _ => .next fun _ => .next fun _ => .next fun _ => ?_
  refine (Parallel.found (same.accounts action.source)).bind fun source source' sourceRecord => ?_
  refine (Parallel.found (same.accounts action.target)).bind fun target target' targetRecord => ?_
  obtain ⟨opened, rfl⟩ := sourceRecord
  obtain ⟨opened', rfl⟩ := targetRecord
  -- The accounts have the same balances, so the sums are the same as well.
  refine .next fun _ => ?_
  cases source.balance.sub? action.amount with
  | none => exact .error _
  | some debited =>
      cases target.balance.add? action.amount with
      | none => exact .error _
      | some credited =>
          exact .ok (.cons (.updateAccount ⟨opened, rfl⟩)
            (.cons (.updateAccount ⟨opened', rfl⟩) .nil))

namespace Action

theorem parallel_plan (action : Action) (same : store.SameButTimes other)
    {context context' : Context} (contexts : context.SameButTime context') :
    Parallel Plan.SameButTimes ((action.plan context).settle store)
      ((action.plan context').settle other) := by
  cases action with
  | newDomain action => exact action.parallel_plan same context.time context'.time
  | updateDomain action => exact action.parallel_plan same
  | issueTokens action =>
      refine .of_eq (same.settle (follows_issueTokens action) ?_) .refl
      intro query asked
      rcases List.mem_cons.mp asked with rfl | asked
      · trivial
      · obtain ⟨name, -, rfl⟩ := List.mem_map.mp asked
        trivial
  | transferToken action =>
      refine .of_eq (same.settle (follows_transferToken action) ?_) .refl
      simp [questions, Query.Timeless]
  | updateGroup action =>
      refine .of_eq (same.settle (follows_updateGroup action) ?_) .refl
      simp [questions, Query.Timeless]
  | newAccount action => exact action.parallel_plan same contexts
  | updateOwner action => exact action.parallel_plan same
  | transferBalance action => exact action.parallel_plan same

theorem parallel_validate (action : Action) (same : store.SameButTimes other)
    {context context' : Context} (contexts : context.SameButTime context') :
    Parallel Plan.SameButTimes ((action.validate context).settle store)
      ((action.validate context').settle other) := by
  have required : (context.require action.scope).settle store =
      (context'.require action.scope).settle other := by
    simp only [Context.require, contexts.authorized]
    split <;> rfl
  simp only [validate, Check.settle_bind, required]
  exact .next fun _ => action.parallel_plan same contexts

end Action

end Plans

section Runs

variable {store other : Store}

namespace Store

/-- The results of the steps of a run without faults. -/
def results (store : Store) (steps : List Step) : List (Except Failure Unit) :=
  (store.passages steps NoFaults.mk).map fun passage => passage.outcome.result

/-- One step comes to the same at any time, and leaves stores that are the same again. -/
theorem after_sameButTimes (same : store.SameButTimes other) {step later : Step}
    (steps : step.SameButTime later) :
    (step.action.apply step.context store NoFaults.mk).result =
        (later.action.apply later.context other NoFaults.mk).result ∧
      (store.after step).SameButTimes (other.after later) := by
  obtain ⟨context, action⟩ := step
  obtain ⟨context', action'⟩ := later
  cases steps.action
  have validated := action.parallel_validate same steps.context
  unfold after
  generalize settled : (action.validate context).settle store = first at validated
  generalize settled' : (action.validate context').settle other = second at validated
  cases validated with
  | error failure =>
      obtain ⟨result, left⟩ := Action.apply_of_refused settled
      obtain ⟨result', left'⟩ := Action.apply_of_refused settled'
      exact ⟨result.trans result'.symm, by rw [left, left']; exact same⟩
  | ok plans =>
      obtain ⟨result, left⟩ := Action.apply_of_planned settled
      obtain ⟨result', left'⟩ := Action.apply_of_planned settled'
      exact ⟨result.trans result'.symm, by rw [left, left']; exact same.rewritten plans⟩

end Store

/-- Only new accounts look at the settings for them. -/
theorem Action.apply_settings {φ : Type} [FaultSource φ] {action : Action}
    (other : action.kind ≠ .newAccount) (context : Context) (systemAccount : Name)
    (initialBalance : Amount) (store : Store) (faults : φ) :
    action.apply (context.withSettings systemAccount initialBalance) store faults =
      action.apply context store faults := by
  cases action with
  | newAccount action => exact absurd rfl other
  | newDomain | updateDomain | issueTokens | transferToken | updateGroup | updateOwner
  | transferBalance => rfl

namespace Store

/-- Neither the times of the steps and in the records nor the level of the log matter to what a run
comes to. And the settings for new accounts matter to nothing else: another action takes the same
course under any, whatever the faults of the store. -/
theorem replay_timeless :
    (∀ (store other : Store) (steps later : List Step), store.SameButTimes other →
      List.Forall₂ Step.SameButTime steps later →
        store.results steps = other.results later ∧
          (store.replay steps).SameButTimes (other.replay later)) ∧
      ∀ {φ : Type} [FaultSource φ] (action : Action) (context : Context) (systemAccount : Name)
        (initialBalance : Amount) (store : Store) (faults : φ), action.kind ≠ .newAccount →
        action.apply (context.withSettings systemAccount initialBalance) store faults =
          action.apply context store faults := by
  refine ⟨fun store other steps later same run => ?_,
    fun action context systemAccount initialBalance store faults other =>
      Action.apply_settings other context systemAccount initialBalance store faults⟩
  induction run generalizing store other with
  | nil => exact ⟨rfl, same⟩
  | cons first _ inductionHypothesis =>
      obtain ⟨result, left⟩ := after_sameButTimes same first
      obtain ⟨results, stores⟩ := inductionHypothesis _ _ left
      exact ⟨congrArg₂ List.cons result results, stores⟩

theorem replay_timeless_of_accounts :
    let noon : Instant := ⟨⟨2018, 5, 1, by decide⟩, 12, 0, 0, 0⟩
    let evening : Instant := ⟨⟨2019, 6, 2, by decide⟩, 18, 0, 0, 0⟩
    let context (time : Instant) (level : LogLevel) : Context :=
      ⟨fun _ => true, time, { Config.standard with rejectionLevel := level }⟩
    let actions : List Action := [.newAccount ⟨⟨"a"⟩, [⟨"k"⟩]⟩, .newAccount ⟨⟨"b"⟩, [⟨"k"⟩]⟩,
      .newAccount ⟨⟨"a"⟩, []⟩, .transferBalance ⟨⟨"a"⟩, ⟨"b"⟩, ⟨1, by decide, by decide⟩⟩,
      .updateOwner ⟨⟨"b"⟩, [⟨"l"⟩]⟩]
    let steps := actions.map (Step.mk (context noon .warn))
    let later := actions.map (Step.mk (context evening .debug))
    let orphan : Action := .updateOwner ⟨⟨"c"⟩, [⟨"k"⟩]⟩
    Store.empty.SameButTimes .empty ∧ List.Forall₂ Step.SameButTime steps later ∧
      (Store.empty.results steps).map Except.isOk = [true, true, false, true, true] ∧
      Store.empty.results steps = Store.empty.results later ∧
      (Store.empty.replay steps).SameButTimes (Store.empty.replay later) ∧
      Store.empty.replay steps ≠ Store.empty.replay later ∧
      orphan.kind ≠ .newAccount ∧
      orphan.apply ((context noon .warn).withSettings ⟨""⟩ .zero) .empty NoFaults.mk =
        orphan.apply (context noon .warn) .empty NoFaults.mk := by
  intro noon evening context actions steps later orphan
  have run : List.Forall₂ Step.SameButTime steps later := by
    rw [List.forall₂_map_left_iff, List.forall₂_map_right_iff, List.forall₂_same]
    intro action _
    exact ⟨rfl, fun _ => rfl, rfl, rfl⟩
  have other : orphan.kind ≠ .newAccount := by decide
  obtain ⟨results, stores⟩ := replay_timeless.1 .empty .empty steps later (.refl _) run
  exact ⟨.refl _, run, by decide +kernel, results, stores, by decide +kernel, other,
    replay_timeless.2 orphan (context noon .warn) ⟨""⟩ .zero .empty NoFaults.mk other⟩

end Store

end Runs

end TokenLedger
