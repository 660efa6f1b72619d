import TokenLedger.Proofs.Atomicity
import TokenLedger.Proofs.Independence

/-!
Actions that are submitted twice.

An action that added records finds them there the second time, so it is rejected. One that added
none comes to the same plan again, unless it moves a balance, and what is written again was there
already (`Action.apply_again`).
-/

set_option autoImplicit false

namespace TokenLedger

section Unchanged

variable {before middle after : Store}

/-- Entries that are there already are filed without a trace. -/
theorem Filed.unchanged {entries : List Entry} (filed : Filed before after entries)
    (there : ∀ entry ∈ entries, before.lookup? entry.key = some entry) : after = before := by
  apply Store.ext_lookup?
  intro key
  by_cases touched : ∃ entry ∈ entries, entry.key = key
  · obtain ⟨entry, member, rfl⟩ := touched
    rw [filed.filed entry member, there entry member]
  · apply filed.kept
    intro entry member same
    exact touched ⟨entry, member, same⟩

/-- A plan that is carried out again changes nothing. -/
theorem Plan.CarriedOut.unchanged {plan : Plan} (first : plan.CarriedOut before middle)
    (again : plan.CarriedOut middle after) : after = middle := by
  cases plan with
  | newDomain | updateDomain | issueTokens | updateGroup | newAccount | updateOwner
  | transferBalance => exact Filed.unchanged again (Filed.filed first)
  | transferToken domain name owner =>
      obtain ⟨token, found, first⟩ := first
      obtain ⟨handed, found', again⟩ := again
      have here : token.key = ⟨domain, name⟩ := Table.key_of_get? found
      have there := Store.lookup?_token_iff.mp (first.filed _ (List.mem_singleton_self _))
      rw [show Token.key { token with owner } = ⟨domain, name⟩ from here, found'] at there
      cases there
      exact again.unchanged first.filed

end Unchanged

section Plans

variable {context : Context} {action : Action} {store : Store} {plan : Plan}

/-- Groups that are defined along with an entry are missing before and there afterwards. -/
theorem Filed.added_groups {after : Store} {first : Entry} {groups : List Group} {key : RecordKey}
    (filed : Filed store after (first :: groups.map .group))
    (absent : ∀ group ∈ groups, store.groups.contains group.id = false)
    (created : key ∈ groups.map fun group => .group group.id) :
    store.lookup? key = none ∧ ∃ entry, after.lookup? key = some entry := by
  obtain ⟨group, defined, rfl⟩ := List.mem_map.mp created
  have missing := Table.contains_eq_false_iff.mp (absent group defined)
  have listed : .group group ∈ groups.map Entry.group := List.mem_map.mpr ⟨group, defined, rfl⟩
  exact ⟨congrArg (Option.map Entry.group) missing, .group group,
    filed.filed _ (List.mem_cons_of_mem first listed)⟩

/-- What an action in order is to add is missing before it and there after it. -/
theorem Action.added_of_mem_creates (settled : (action.plan context).settle store = .ok plan)
    {key : RecordKey} (created : key ∈ action.creates) :
    store.lookup? key = none ∧ ∃ entry, (store.rewritten plan.writes).lookup? key = some entry := by
  have carriedOut := Plan.carriedOut_of_settle settled
  cases action with
  | newDomain action =>
      obtain ⟨fresh, -, -, -, -, absent, rfl⟩ := NewDomain.settle_plan_eq_ok_iff.mp settled
      rcases List.mem_cons.mp created with rfl | created
      · have missing := Table.contains_eq_false_iff.mp fresh
        exact ⟨congrArg (Option.map Entry.domain) missing, _,
          Filed.filed carriedOut _ List.mem_cons_self⟩
      · exact Filed.added_groups carriedOut absent created
  | updateDomain action =>
      obtain ⟨stored, -, -, -, -, absent, rfl⟩ := UpdateDomain.settle_plan_eq_ok_iff.mp settled
      exact Filed.added_groups carriedOut absent created
  | issueTokens action =>
      obtain ⟨-, -, fresh, -, rfl⟩ := IssueTokens.settle_plan_eq_ok_iff.mp settled
      obtain ⟨name, listed, rfl⟩ := List.mem_map.mp created
      have missing := Table.contains_eq_false_iff.mp (fresh name listed).2
      let token : Token := ⟨action.domain, name, action.owner⟩
      have issued : token ∈ action.tokens := List.mem_map.mpr ⟨name, listed, rfl⟩
      exact ⟨congrArg (Option.map Entry.token) missing, .token token,
        Filed.filed carriedOut (.token token) (List.mem_map.mpr ⟨token, issued, rfl⟩)⟩
  | newAccount action =>
      obtain ⟨-, fresh, -, rfl⟩ := NewAccount.settle_plan_eq_ok_iff.mp settled
      cases List.mem_singleton.mp created
      have missing := Table.contains_eq_false_iff.mp fresh
      exact ⟨congrArg (Option.map Entry.account) missing, _,
        Filed.filed carriedOut _ (List.mem_singleton_self _)⟩
  | transferToken | updateGroup | updateOwner | transferBalance =>
      exact absurd created List.not_mem_nil

theorem Action.config_check_of_settle (settled : (action.plan context).settle store = .ok plan)
    (opening : action.kind = .newAccount) : context.config.check = .ok () := by
  cases action with
  | newAccount action =>
      obtain ⟨-, -, checked, -⟩ := NewAccount.settle_plan_eq_ok_iff.mp settled
      exact checked
  | newDomain | updateDomain | issueTokens | transferToken | updateGroup | updateOwner
  | transferBalance => nomatch opening

theorem UpdateDomain.amended_amended (action : UpdateDomain) (domain : Domain) :
    action.amended (action.amended domain) = action.amended domain := by
  rcases action with ⟨name, issue, transfer, manage, groups⟩
  cases issue <;> cases transfer <;> cases manage <;> rfl

theorem UpdateDomain.settle_again {action : UpdateDomain} (undefined : action.groups = [])
    (settled : action.plan.settle store = .ok plan) :
    action.plan.settle (store.rewritten plan.writes) = .ok plan := by
  obtain ⟨stored, found, definitions, named, given, -, rfl⟩ :=
    UpdateDomain.settle_plan_eq_ok_iff.mp settled
  have here : stored.name = action.name := Table.key_of_get? found
  rw [undefined] at given ⊢
  refine UpdateDomain.settle_plan_eq_ok_iff.mpr
    ⟨action.amended stored, ?_, definitions, named, ?_, ?_, ?_⟩
  · simp [Plan.writes, Store.written, UpdateDomain.amended, here]
  · rw [undefined]
    exact given
  · rw [undefined]
    exact List.forall_mem_nil _
  · rw [undefined, UpdateDomain.amended_amended]

/-- An action that adds no record and moves no balance finds its plan in order once more when it has
been carried out. -/
theorem Action.settle_again (settled : (action.plan context).settle store = .ok plan)
    (nothing : action.creates = []) (unmoved : action.kind ≠ .transferBalance) (later : Instant) :
    (action.plan { context with time := later }).settle (store.rewritten plan.writes) =
      .ok plan := by
  cases action with
  | newDomain | newAccount => nomatch nothing
  | transferBalance => exact absurd rfl unmoved
  | updateDomain action => exact UpdateDomain.settle_again (List.map_eq_nil_iff.mp nothing) settled
  | issueTokens action =>
      obtain ⟨-, -, -, -, rfl⟩ := IssueTokens.settle_plan_eq_ok_iff.mp settled
      have unnamed : action.names = [] := List.map_eq_nil_iff.mp nothing
      rw [IssueTokens.tokens, unnamed] at settled ⊢
      exact settled
  | transferToken action =>
      obtain ⟨issued, rfl⟩ := TransferToken.settle_plan_eq_ok_iff.mp settled
      obtain ⟨token, found⟩ := Table.contains_iff.mp issued
      have here : token.key = ⟨action.domain, action.name⟩ := Table.key_of_get? found
      have there := (Filed.transferToken action.owner found).filed _ (List.mem_singleton_self _)
      have handed := Table.contains_of_get? (Store.lookup?_token_iff.mp there)
      exact TransferToken.settle_plan_eq_ok_iff.mpr ⟨here ▸ handed, rfl⟩
  | updateGroup action =>
      obtain ⟨stored, found, keyed, valid, rfl⟩ := UpdateGroup.settle_plan_eq_ok_iff.mp settled
      have here : stored.id = action.id := Table.key_of_get? found
      refine UpdateGroup.settle_plan_eq_ok_iff.mpr
        ⟨{ stored with threshold := action.threshold, keys := action.keys }, ?_, keyed, valid, rfl⟩
      simp [Plan.writes, Store.written, here]
  | updateOwner action =>
      obtain ⟨stored, found, owned, rfl⟩ := UpdateOwner.settle_plan_eq_ok_iff.mp settled
      have here : stored.name = action.name := Table.key_of_get? found
      refine UpdateOwner.settle_plan_eq_ok_iff.mpr
        ⟨{ stored with owner := action.owner }, ?_, owned, rfl⟩
      simp [Plan.writes, Store.written, here]

end Plans

namespace Action

variable {context : Context} {action : Action} {store : Store} {plan : Plan}

/-- An action that added a record cannot be in order once more. -/
theorem rejected_again (settled : (action.plan context).settle store = .ok plan)
    (adds : action.creates ≠ []) (later : Instant) :
    ∃ reason, (action.validate { context with time := later }).settle
      (store.rewritten plan.writes) = .error (.ofReason reason) := by
  have fails := rejectsOnly_validate { context with time := later } action
    (store.rewritten plan.writes)
  cases again : (action.validate { context with time := later }).settle
      (store.rewritten plan.writes) with
  | error failure =>
      rw [again] at fails
      rcases fails with ⟨reason, rfl⟩ | ⟨error, -, opening, misconfigured⟩
      · exact ⟨reason, rfl⟩
      · have checked : context.config.check = .ok () := config_check_of_settle settled opening
        exact nomatch misconfigured.symm.trans checked
  | ok other =>
      obtain ⟨key, created⟩ := List.exists_mem_of_ne_nil _ adds
      obtain ⟨-, entry, there⟩ := added_of_mem_creates settled created
      obtain ⟨missing, -⟩ := added_of_mem_creates (settle_validate_eq_ok_iff.mp again).2 created
      exact nomatch there.symm.trans missing

/-- Of an action that went through, submitted again at any time: if it added records it is rejected,
and if it added none it goes through again unless it moves a balance. Either way the store stays as
the first time left it. -/
theorem apply_again (applied : (action.apply context store NoFaults.mk).result = .ok ())
    (later : Instant) :
    let after := (action.apply context store NoFaults.mk).store
    let again := action.apply { context with time := later } after NoFaults.mk
    (action.creates ≠ [] → again.store = after ∧ ∃ reason,
      again.result = .error (.rejected ⟨reason, some ⟨action.kind.name, action.encode⟩⟩)) ∧
    (action.creates = [] → action.kind ≠ .transferBalance →
      again.store = after ∧ again.result = .ok ()) := by
  intro after again
  rcases action.apply_noFaults_cases context store with
    ⟨failure, -, failed, -⟩ | ⟨plan, settled, -, left⟩
  · exact nomatch applied.symm.trans failed
  obtain ⟨authorized, planned⟩ := settle_validate_eq_ok_iff.mp settled
  have left : after = store.rewritten plan.writes := left
  constructor
  · intro adds
    obtain ⟨reason, refused⟩ := rejected_again planned adds later
    obtain ⟨result, same⟩ := apply_of_refused (left ▸ refused)
    exact ⟨same, reason, result⟩
  · intro nothing unmoved
    have authorized' : { context with time := later : Context }.authorized action.scope = true :=
      authorized
    have planned' : (action.plan { context with time := later }).settle after = .ok plan :=
      left ▸ settle_again planned nothing unmoved later
    obtain ⟨result, left'⟩ := apply_of_settle authorized' planned'
    have carriedOut : plan.CarriedOut store after := left ▸ Plan.carriedOut_of_settle planned
    exact ⟨left'.trans (carriedOut.unchanged (Plan.carriedOut_of_settle planned')), result⟩

theorem apply_again_of_definition :
    let noon : Instant := ⟨⟨2018, 5, 1, by decide⟩, 12, 0, 0, 0⟩
    let later : Instant := ⟨⟨2018, 5, 1, by decide⟩, 12, 0, 30, 0⟩
    let context : Context := ⟨fun _ => true, noon, .standard⟩
    let group : Group := ⟨⟨"8254c329a92850f6d539dd376f4816ee"⟩, ⟨"k"⟩, 1, [⟨⟨"k"⟩, 1⟩]⟩
    let other : Group := ⟨⟨"189f40034be7a199f1fa9891668ee3ab"⟩, ⟨"j"⟩, 1, [⟨⟨"j"⟩, 1⟩]⟩
    let permission (name : String) (group : Group) : Permission := ⟨⟨name⟩, 1, [⟨group.id, 1⟩]⟩
    let creation : Action := .newDomain ⟨⟨"d"⟩, ⟨"k"⟩, permission "issue" group,
      permission "transfer" group, permission "manage" group, [group]⟩
    let update : Action :=
      .updateDomain ⟨⟨"d"⟩, some (permission "issue" other), none, none, [other]⟩
    let store := (creation.apply context .empty NoFaults.mk).store
    let after := (update.apply context store NoFaults.mk).store
    let again := update.apply { context with time := later } after NoFaults.mk
    (update.apply context store NoFaults.mk).result = .ok () ∧ update.creates ≠ [] ∧
      again.store = after ∧ ∃ reason,
        again.result = .error (.rejected ⟨reason, some ⟨"updatedomain", update.encode⟩⟩) := by
  intro noon later context group other permission creation update store after again
  have finished : (update.apply context store NoFaults.mk).result.isOk = true := by decide +kernel
  -- From here on the first action is a black box, so that nothing applies it again.
  clear_value store
  obtain ⟨⟨⟩, applied⟩ : ∃ done, (update.apply context store NoFaults.mk).result = .ok done := by
    cases result : (update.apply context store NoFaults.mk).result with
    | error failure => nomatch result ▸ finished
    | ok done => exact ⟨done, rfl⟩
  exact ⟨applied, by decide, (apply_again applied later).1 (by decide)⟩

end Action

end TokenLedger
