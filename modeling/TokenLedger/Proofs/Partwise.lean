import TokenLedger.Proofs.Amendment
import TokenLedger.Proofs.History

/-!
Updates of a domain, slot by slot.

An update that gives several permissions may be made in parts, one slot after the other, if the
first part brings the definitions along (`UpdateDomain.apply_parts`). What the later parts refer to
is then stored, where the whole update defined it. Two parts are compared with the whole
(`UpdateDomain.Splits.leaves_leaves_iff`), and a row of parts is put together one part at a time.
-/

set_option autoImplicit false

namespace TokenLedger

section Definitions

variable {store : Store} {domain : Domain} {definitions : List Group}

theorem Store.rewritten_updateDomain :
    store.rewritten (Plan.updateDomain domain definitions).writes =
      { store with
        domains := store.domains.insert domain
        groups := definitions.foldl Table.insert store.groups } := by
  rw [Plan.writes, rewritten_cons, rewritten_addGroup]
  rfl

/-- Once the definitions are stored, references are in order that were before along with them. -/
theorem Permission.resolves_updateDomain_iff
    (absent : ∀ group ∈ definitions, store.groups.contains group.id = false)
    {permission : Permission} {allowsOwner : Bool} :
    permission.Resolves (store.rewritten (Plan.updateDomain domain definitions).writes) []
        allowsOwner ↔
      permission.Resolves store definitions allowsOwner := by
  have stored (id : GroupId) : (store.rewritten
      (Plan.updateDomain domain definitions).writes).groups.contains id = true ↔
        store.groups.contains id = true ∨ ∃ group ∈ definitions, group.id = id :=
    Store.contains_groups_rewritten_addGroup
  refine forall₂_congr fun reference _ => ?_
  by_cases owner : reference.id = .owner
  · rw [if_pos owner, if_pos owner]
  · rw [if_neg owner, if_neg owner, stored]
    by_cases there : store.groups.contains reference.id = true
    · have undefined : ¬∃ group ∈ definitions, group.id = reference.id := by
        rintro ⟨group, defined, same⟩
        exact Bool.false_ne_true ((absent group defined).symm.trans (same ▸ there))
      simp [there, undefined]
    · simp [there]

end Definitions

/-- The store once an update has been made of this domain. -/
def Store.amended (store : Store) (action : UpdateDomain) (stored : Domain) : Store :=
  store.rewritten (Plan.updateDomain (action.amended stored) action.groups).writes

theorem Store.get?_domains_amended {store : Store} {name : Name} {stored : Domain}
    (found : store.domains.get? name = some stored) (action : UpdateDomain) :
    (store.amended action stored).domains.get? name = some (action.amended stored) := by
  have here : (action.amended stored).name = name := Table.key_of_get? found
  simp [amended, rewritten_updateDomain, here]

namespace UpdateDomain

/-- The update is in order, and of the store that it leaves this holds. -/
def Leaves (action : UpdateDomain) (store : Store) (holds : Store → Prop) : Prop :=
  ∃ plan, action.plan.settle store = .ok plan ∧ holds (store.rewritten plan.writes)

theorem leaves_iff {action : UpdateDomain} {store : Store} {holds : Store → Prop} :
    action.Leaves store holds ↔ ∃ stored, store.domains.get? action.name = some stored ∧
      action.InOrder store ∧ holds (store.amended action stored) := by
  simp only [Leaves, settle_plan_iff_inOrder]
  constructor
  · rintro ⟨plan, ⟨stored, found, inOrder, rfl⟩, held⟩
    exact ⟨stored, found, inOrder, held⟩
  · rintro ⟨stored, found, inOrder, held⟩
    exact ⟨_, ⟨stored, found, inOrder, rfl⟩, held⟩

/-- The update is made in two parts. Each permission is given by one of them at most, and the first
part brings the definitions along. -/
structure Splits (whole first second : UpdateDomain) : Prop where
  first_name : first.name = whole.name
  second_name : second.name = whole.name
  first_groups : first.groups = whole.groups
  second_groups : second.groups = []
  permissions : ∀ slot : Slot,
    first.permission? slot = whole.permission? slot ∧ second.permission? slot = none ∨
      first.permission? slot = none ∧ second.permission? slot = whole.permission? slot

namespace Splits

variable {whole first second : UpdateDomain} {store : Store} {stored : Domain}

theorem amended_amended (splits : whole.Splits first second) (domain : Domain) :
    second.amended (first.amended domain) = whole.amended domain := by
  have each (slot : Slot) (permission : Permission) :
      (second.permission? slot).getD ((first.permission? slot).getD permission) =
        (whole.permission? slot).getD permission := by
    rcases splits.permissions slot with ⟨given, other⟩ | ⟨other, given⟩ <;> simp [given, other]
  have issue := each .issue domain.issue
  have transfer := each .transfer domain.transfer
  have manage := each .manage domain.manage
  simp only [permission?] at issue transfer manage
  simp only [amended, issue, transfer, manage]

/-- What holds of each permission of the whole holds of those of the parts, and the other way round.
-/
theorem forall_given_iff (splits : whole.Splits first second) {holds : Slot → Permission → Prop} :
    (∀ slot permission, whole.permission? slot = some permission → holds slot permission) ↔
      (∀ slot permission, first.permission? slot = some permission → holds slot permission) ∧
        ∀ slot permission, second.permission? slot = some permission → holds slot permission := by
  simp only [← forall_and]
  refine forall₂_congr fun slot permission => ?_
  rcases splits.permissions slot with ⟨given, other⟩ | ⟨other, given⟩ <;> simp [given, other]

/-- Both parts leave behind what the whole does. -/
theorem store_amended_amended (splits : whole.Splits first second) (store : Store)
    (stored : Domain) :
    (store.amended first stored).amended second (first.amended stored) =
      store.amended whole stored := by
  have same : Keyed.key (first.amended stored) = Keyed.key (whole.amended stored) := rfl
  simp only [Store.amended, Store.rewritten_updateDomain, splits.amended_amended,
    splits.first_groups, splits.second_groups, List.foldl_nil, Table.insert_insert _ same]

theorem resolves_iff (splits : whole.Splits first second)
    (undefined : ∀ group ∈ whole.groups, store.groups.contains group.id = false)
    (stored : Domain) {permission : Permission} {allowsOwner : Bool} :
    permission.Resolves (store.amended first stored) second.groups allowsOwner ↔
      permission.Resolves store whole.groups allowsOwner := by
  rw [splits.second_groups, ← splits.first_groups]
  rw [← splits.first_groups] at undefined
  exact Permission.resolves_updateDomain_iff undefined

theorem inOrder_first (splits : whole.Splits first second) (inOrder : whole.InOrder store) :
    first.InOrder store where
  definitions := splits.first_groups ▸ inOrder.definitions
  named := splits.first_name ▸ inOrder.named
  given := splits.first_groups ▸ (splits.forall_given_iff.mp inOrder.given).1
  undefined := splits.first_groups ▸ inOrder.undefined

theorem inOrder_second (splits : whole.Splits first second) (inOrder : whole.InOrder store)
    (stored : Domain) : second.InOrder (store.amended first stored) where
  definitions := splits.second_groups ▸ rfl
  named := splits.second_name ▸ inOrder.named
  given slot permission present := by
    rw [splits.resolves_iff inOrder.undefined stored]
    exact (splits.forall_given_iff.mp inOrder.given).2 slot permission present
  undefined := splits.second_groups ▸ List.forall_mem_nil _

theorem inOrder (splits : whole.Splits first second) (early : first.InOrder store)
    (late : second.InOrder (store.amended first stored)) : whole.InOrder store where
  definitions := splits.first_groups ▸ early.definitions
  named := splits.first_name ▸ early.named
  given := by
    have undefined := splits.first_groups ▸ early.undefined
    refine splits.forall_given_iff.mpr ⟨splits.first_groups ▸ early.given, ?_⟩
    intro slot permission present
    rw [← splits.resolves_iff undefined stored]
    exact late.given slot permission present
  undefined := splits.first_groups ▸ early.undefined

/-- The whole is in order just if the first part is, and then the second. Both ways lead to the same
store. -/
theorem leaves_leaves_iff (splits : whole.Splits first second) {holds : Store → Prop} :
    (first.Leaves store fun middle => second.Leaves middle holds) ↔ whole.Leaves store holds := by
  simp only [leaves_iff, splits.first_name, splits.second_name]
  refine exists_congr fun stored => and_congr_right fun found => ?_
  rw [Store.get?_domains_amended found first]
  constructor
  · rintro ⟨early, amended, there, late, held⟩
    cases Option.some.inj there
    exact ⟨splits.inOrder early late, splits.store_amended_amended store stored ▸ held⟩
  · rintro ⟨inOrder, held⟩
    refine ⟨splits.inOrder_first inOrder, _, rfl, splits.inOrder_second inOrder stored, ?_⟩
    rw [splits.store_amended_amended]
    exact held

end Splits

section Parts

variable (action : UpdateDomain)

/-- The update with the permissions for these slots only. -/
def only (slots : List Slot) : UpdateDomain where
  name := action.name
  issue := if .issue ∈ slots then action.issue else none
  transfer := if .transfer ∈ slots then action.transfer else none
  manage := if .manage ∈ slots then action.manage else none
  groups := action.groups

/-- The part for one slot, without the definitions. -/
def later (slot : Slot) : UpdateDomain := { action.only [slot] with groups := [] }

/-- One update for each slot, in this order. The first brings the definitions along. -/
def parts : List Slot → List UpdateDomain
  | [] => []
  | first :: rest => action.only [first] :: rest.map action.later

@[simp] theorem permission?_only (slots : List Slot) (slot : Slot) :
    (action.only slots).permission? slot =
      if slot ∈ slots then action.permission? slot else none := by
  cases slot <;> rfl

@[simp] theorem permission?_later (part slot : Slot) :
    (action.later part).permission? slot =
      if slot = part then action.permission? slot else none := by
  have same : (action.later part).permission? slot = (action.only [part]).permission? slot := by
    cases slot <;> rfl
  simp [same]

theorem only_of_perm {order : List Slot} (orders : order.Perm Slot.all) :
    action.only order = action := by
  have each (slot : Slot) : slot ∈ order := by
    rw [orders.mem_iff]
    cases slot <;> decide
  simp [only, each]

theorem splits_only {done : List Slot} {slot : Slot} (fresh : slot ∉ done) :
    (action.only (done ++ [slot])).Splits (action.only done) (action.later slot) where
  first_name := rfl
  second_name := rfl
  first_groups := rfl
  second_groups := rfl
  permissions other := by
    by_cases before : other ∈ done
    · have different : other ≠ slot := fun same => fresh (same ▸ before)
      simp [before, different]
    · simp [before]

variable {action} {store after : Store}

/-- The step is the update, by somebody who may manage the domain. -/
theorem leads_cons_iff_leaves {step : Step} {rest : List Step}
    (update : step.action = .updateDomain action)
    (authorized : step.context.authorized (.domainManage action.name) = true) :
    store.Leads (step :: rest) after ↔
      action.Leaves store fun middle => middle.Leads rest after := by
  have settles (plan : Plan) : (step.action.validate step.context).settle store = .ok plan ↔
      action.plan.settle store = .ok plan := by
    rw [Action.settle_validate_eq_ok_iff, update]
    exact and_iff_right authorized
  simp only [Store.leads_cons_iff, settles, Leaves]

/-- The parts for some slots, made after those for others, lead where one update for all of them
leads. -/
theorem leads_later {done rest : List Slot} (apart : (done ++ rest).Nodup) {steps : List Step}
    (parts : steps.map Step.action = rest.map fun slot => .updateDomain (action.later slot))
    (authorized : ∀ step ∈ steps, step.context.authorized (.domainManage action.name) = true) :
    ((action.only done).Leaves store fun middle => middle.Leads steps after) ↔
      (action.only (done ++ rest)).Leaves store fun last => last = after := by
  -- Over the slots still to come: what has been done counts as one update for all slots so far.
  induction rest generalizing done steps with
  | nil =>
      obtain rfl := List.map_eq_nil_iff.mp parts
      simp only [List.append_nil, Store.leads_nil_iff]
  | cons slot rest inductionHypothesis =>
      obtain ⟨step, steps, rfl, part, parts⟩ := List.map_eq_cons_iff.mp parts
      obtain ⟨first, others⟩ := List.forall_mem_cons.mp authorized
      have fresh : slot ∉ done := by
        intro before
        exact (List.nodup_append.mp apart).2.2 slot before slot List.mem_cons_self rfl
      have next (middle : Store) : middle.Leads (step :: steps) after ↔
          (action.later slot).Leaves middle fun middle => middle.Leads steps after :=
        leads_cons_iff_leaves part first
      rw [List.append_cons] at apart ⊢
      rw [← inductionHypothesis apart parts others, ← (action.splits_only fresh).leaves_leaves_iff]
      simp only [next]

theorem not_leads_of_denied {step : Step} {rest : List Step}
    (update : step.action = .updateDomain action)
    (denied : ¬step.context.authorized (.domainManage action.name) = true) :
    ¬store.Leads (step :: rest) after := by
  rw [Store.leads_cons_iff]
  rintro ⟨plan, settled, -⟩
  rw [Action.settle_validate_eq_ok_iff, update] at settled
  exact denied settled.1

/-- The parts lead where the whole update leads, in whichever order they are made. -/
theorem leads_parts_iff {order : List Slot} (orders : order.Perm Slot.all) {context : Context}
    {steps : List Step} (parts : steps.map Step.action = (action.parts order).map .updateDomain)
    (oracle : ∀ step ∈ steps, step.context.authorized = context.authorized) :
    store.Leads steps after ↔ store.Leads [⟨context, .updateDomain action⟩] after := by
  cases order with
  | nil => exact nomatch orders.length_eq
  | cons slot rest =>
      obtain ⟨step, steps, rfl, part, parts⟩ := List.map_eq_cons_iff.mp parts
      by_cases authorized : context.authorized (.domainManage action.name) = true
      · have authorized' : ∀ other ∈ step :: steps,
            other.context.authorized (.domainManage action.name) = true := by
          intro other member
          rw [oracle other member]
          exact authorized
        obtain ⟨first, others⟩ := List.forall_mem_cons.mp authorized'
        have apart : ([slot] ++ rest).Nodup := orders.nodup_iff.mpr (by decide)
        have whole : action.only ([slot] ++ rest) = action := action.only_of_perm orders
        rw [List.map_map] at parts
        rw [leads_cons_iff_leaves part first, leads_later apart parts others, whole,
          leads_cons_iff_leaves rfl authorized]
        simp only [Store.leads_nil_iff]
      · have denied : ¬step.context.authorized (.domainManage action.name) = true := by
          rw [oracle step List.mem_cons_self]
          exact authorized
        exact iff_of_false (not_leads_of_denied part denied) (not_leads_of_denied rfl authorized)

end Parts

/-- An update goes through just if its parts for the three slots all do, made one after the other in
any order by those who may do the same, the first one with the definitions. Both ways leave the same
store. -/
theorem apply_parts {action : UpdateDomain} {order : List Slot} (orders : order.Perm Slot.all)
    {context : Context} {steps : List Step}
    (parts : steps.map Step.action = (action.parts order).map .updateDomain)
    (oracle : ∀ step ∈ steps, step.context.authorized = context.authorized) (store : Store) :
    let whole := (Action.updateDomain action).apply context store NoFaults.mk
    (whole.result = .ok () ↔ store.Completes steps) ∧
      (whole.result = .ok () → store.replay steps = whole.store) := by
  intro whole
  have leads (after : Store) :
      store.Leads steps after ↔ whole.result = .ok () ∧ whole.store = after :=
    (leads_parts_iff orders parts oracle).trans Store.leads_singleton_iff
  constructor
  · constructor
    · intro finished
      exact ((leads whole.store).mpr ⟨finished, rfl⟩).1
    · intro completes
      exact ((leads (store.replay steps)).mp ⟨completes, rfl⟩).1
  · intro finished
    exact ((leads whole.store).mpr ⟨finished, rfl⟩).2

theorem apply_parts_of_definition :
    let noon : Instant := ⟨⟨2018, 5, 1, by decide⟩, 12, 0, 0, 0⟩
    let later : Instant := ⟨⟨2018, 5, 1, by decide⟩, 12, 0, 30, 0⟩
    let context : Context := ⟨fun _ => true, noon, .standard⟩
    let group : Group := ⟨⟨"8254c329a92850f6d539dd376f4816ee"⟩, ⟨"k"⟩, 1, [⟨⟨"k"⟩, 1⟩]⟩
    let permission (name : String) : Permission := ⟨⟨name⟩, 1, [⟨group.id, 1⟩]⟩
    let bare : Permission := ⟨⟨""⟩, 0, []⟩
    let store := Store.empty.written (.addDomain ⟨⟨"d"⟩, ⟨"j"⟩, noon, bare, bare, bare⟩)
    let action : UpdateDomain :=
      ⟨⟨"d"⟩, some (permission "issue"), none, some (permission "manage"), [group]⟩
    let whole := (Action.updateDomain action).apply context store NoFaults.mk
    let steps : List Step :=
      [⟨context, .updateDomain ⟨⟨"d"⟩, none, none, some (permission "manage"), [group]⟩⟩,
        ⟨{ context with time := later },
          .updateDomain ⟨⟨"d"⟩, some (permission "issue"), none, none, []⟩⟩,
        ⟨context, .updateDomain ⟨⟨"d"⟩, none, none, none, []⟩⟩]
    [Slot.manage, .issue, .transfer].Perm Slot.all ∧
      steps.map Step.action = (action.parts [.manage, .issue, .transfer]).map .updateDomain ∧
      whole.result = .ok () ∧ store.Completes steps ∧ store.replay steps = whole.store := by
  intro noon later context group permission bare store action whole steps
  have orders : [Slot.manage, .issue, .transfer].Perm Slot.all := by decide
  have parts : steps.map Step.action =
      (action.parts [.manage, .issue, .transfer]).map .updateDomain := rfl
  have fine : whole.result.isOk = true := by decide +kernel
  obtain ⟨⟨⟩, finished⟩ := exists_eq_ok_of_isOk fine
  have oracle : ∀ step ∈ steps, step.context.authorized = context.authorized := by
    simp [steps]
  obtain ⟨completes, same⟩ := apply_parts orders parts oracle store
  exact ⟨orders, parts, finished, completes.mp finished, same finished⟩

end UpdateDomain

end TokenLedger
