import TokenLedger.Proofs.Permanence
import TokenLedger.Proofs.PermissionTree

/-!
Domains that are frozen.

A domain whose manage threshold is zero is meant to stay as it is. An update of a domain does not
look at the threshold that is stored, though: all it needs is the authority to manage the domain. So
a frozen domain stays frozen just as long as nobody updates it with that authority
(`Store.replay_frozen`).
-/

set_option autoImplicit false

namespace TokenLedger

/-- Nobody is to manage the domain any more. -/
def Domain.Frozen (domain : Domain) : Prop := domain.manage.threshold = 0

instance (domain : Domain) : Decidable domain.Frozen :=
  inferInstanceAs (Decidable (domain.manage.threshold = 0))

/-- The step is an update of the domain by somebody who has the authority to manage it. -/
def Step.Manages (step : Step) (name : Name) : Prop :=
  ∃ update, step.action = .updateDomain update ∧ update.name = name ∧
    step.context.authorized (.domainManage name) = true

section Denial

variable {store : Store} {name : Name} {domain : Domain}

/-- Unless an update of it is authorized, a domain is left as it is. -/
theorem Store.get?_domains_after (found : store.domains.get? name = some domain) {step : Step}
    (unmanaged : ¬step.Manages name) : (store.after step).domains.get? name = some domain := by
  obtain ⟨entry, left, -⟩ :=
    Persists.step store step (.domain name) (.domain domain) (lookup?_domain_iff.mpr found)
  obtain ⟨kept, there, rfl⟩ := Option.map_eq_some_iff.mp left
  by_cases same : kept = domain
  · exact same ▸ there
  · obtain ⟨-, authorized, update, action, named, -⟩ := Action.domain_revised found there same
    exact absurd ⟨update, action, named, authorized⟩ unmanaged

end Denial

section Thawing

variable {store : Store} {name : Name} {domain : Domain}

/-- Let those manage the domain who may issue in it. -/
def Domain.thawing (domain : Domain) : UpdateDomain where
  name := domain.name
  issue := none
  transfer := none
  manage := some { domain.issue with name := ⟨Slot.manage.name⟩ }
  groups := []

/-- What fits for issuing fits for managing, so the update is in order. -/
theorem Domain.settle_thawing (tree : store.PermissionTree)
    (found : store.domains.get? domain.name = some domain) :
    domain.thawing.plan.settle store =
      .ok (.updateDomain (domain.thawing.amended domain) []) := by
  have rooted := (tree.domains domain.name domain found).2
  refine UpdateDomain.settle_plan_eq_ok_iff.mpr
    ⟨domain, found, rfl, (Domain.rooted_iff.mp rooted).1, ?_, nofun, rfl⟩
  intro slot permission given
  cases slot with
  | issue | transfer => exact nomatch given
  | manage =>
      cases given
      refine ⟨Slot.check_eq_ok_iff.mpr ⟨rfl, nofun, rooted.issue.valid⟩, ?_⟩
      intro reference member
      have other : reference.id.text ≠ "" := rooted.issueGroups reference member
      obtain ⟨group, stored⟩ := rooted.issue.stored reference member other
      have notOwner : reference.id ≠ .owner := fun owner => other (congrArg GroupId.text owner)
      rw [if_neg notOwner]
      simp [thawing, Table.contains, stored]

/-- With the authority to manage it, a domain is opened again, however it was frozen. -/
theorem Domain.apply_thawing (tree : store.PermissionTree)
    (found : store.domains.get? domain.name = some domain) {context : Context}
    (authorized : context.authorized (.domainManage domain.name) = true) :
    let outcome := (Action.updateDomain domain.thawing).apply context store NoFaults.mk
    outcome.result = .ok () ∧ ∃ thawed, outcome.store.domains.get? domain.name = some thawed ∧
      ¬thawed.Frozen := by
  intro outcome
  have rooted := (tree.domains domain.name domain found).2
  have planned : ((Action.updateDomain domain.thawing).plan context).settle store = _ :=
    Domain.settle_thawing tree found
  obtain ⟨finished, left⟩ := Action.apply_of_settle authorized planned
  refine ⟨finished, domain.thawing.amended domain, ?_,
    UInt32.pos_iff_ne_zero.mp rooted.issueThreshold⟩
  rw [left]
  simp [Plan.writes, Store.written, UpdateDomain.amended]

end Thawing

/-- A domain that is frozen at some point of a run from an empty ledger stays as it is as long as no
later step updates it with the authority to manage it. With that authority it can be changed at any
time, and opened again. -/
theorem Store.replay_frozen (steps : List Step) {name : Name} {domain : Domain}
    (found : (Store.empty.replay steps).domains.get? name = some domain) (frozen : domain.Frozen) :
    (∀ later : List Step, (∀ step ∈ later, ¬step.Manages name) →
        (Store.empty.replay (steps ++ later)).domains.get? name = some domain) ∧
      ∀ context : Context, context.authorized (.domainManage name) = true →
        ∃ update : UpdateDomain,
          let outcome := (Action.updateDomain update).apply context (Store.empty.replay steps)
            NoFaults.mk
          outcome.result = .ok () ∧ ∃ thawed, outcome.store.domains.get? name = some thawed ∧
            thawed ≠ domain ∧ ¬thawed.Frozen := by
  constructor
  · intro later unmanaged
    rw [replay_append]
    refine replay_induction_of_mem (fun store => store.domains.get? name = some domain) found ?_
    intro store step listed there
    exact get?_domains_after there (unmanaged step listed)
  · intro context authorized
    obtain rfl : domain.name = name := Table.key_of_get? found
    have tree : (Store.empty.replay steps).PermissionTree :=
      replay_induction .empty (fun _ step tree => tree.after step) steps
    obtain ⟨finished, thawed, there, opened⟩ := Domain.apply_thawing tree found authorized
    refine ⟨domain.thawing, finished, thawed, there, ?_, opened⟩
    rintro rfl
    exact opened frozen

theorem Store.replay_frozen_by_update :
    let noon : Instant := ⟨⟨2018, 5, 1, by decide⟩, 12, 0, 0, 0⟩
    let context : Context := ⟨fun _ => true, noon, .standard⟩
    let group : Group := ⟨⟨"8254c329a92850f6d539dd376f4816ee"⟩, ⟨"k"⟩, 1, [⟨⟨"k"⟩, 1⟩]⟩
    let permission (name : String) : Permission := ⟨⟨name⟩, 1, [⟨group.id, 1⟩]⟩
    let creation : Action := .newDomain ⟨⟨"d"⟩, ⟨"k"⟩, permission "issue", permission "transfer",
      permission "manage", [group]⟩
    let freezing : Action := .updateDomain ⟨⟨"d"⟩, none, none, some ⟨⟨"manage"⟩, 0, []⟩, []⟩
    let frozen : Domain := ⟨⟨"d"⟩, ⟨"k"⟩, noon, permission "issue", permission "transfer",
      ⟨⟨"manage"⟩, 0, []⟩⟩
    let steps : List Step := [⟨context, creation⟩, ⟨context, freezing⟩]
    let denied : Context := ⟨fun _ => false, noon, .standard⟩
    let update : Action := .updateDomain ⟨⟨"d"⟩, none, none, some (permission "manage"), []⟩
    (Store.empty.replay steps).domains.get? ⟨"d"⟩ = some frozen ∧ frozen.Frozen ∧
      (Store.empty.replay (steps ++ [⟨denied, update⟩])).domains.get? ⟨"d"⟩ = some frozen := by
  intro noon context group permission creation freezing frozen steps denied update
  have found : (Store.empty.replay steps).domains.get? ⟨"d"⟩ = some frozen := by decide +kernel
  have isFrozen : frozen.Frozen := rfl
  refine ⟨found, isFrozen, (replay_frozen steps found isFrozen).1 [⟨denied, update⟩] ?_⟩
  exact List.forall_mem_singleton.mpr fun ⟨_, _, _, authorized⟩ => nomatch authorized

theorem Store.replay_thawed :
    let noon : Instant := ⟨⟨2018, 5, 1, by decide⟩, 12, 0, 0, 0⟩
    let context : Context := ⟨fun _ => true, noon, .standard⟩
    let group : Group := ⟨⟨"8254c329a92850f6d539dd376f4816ee"⟩, ⟨"k"⟩, 1, [⟨⟨"k"⟩, 1⟩]⟩
    let permission (name : String) : Permission := ⟨⟨name⟩, 1, [⟨group.id, 1⟩]⟩
    let creation : Action := .newDomain ⟨⟨"d"⟩, ⟨"k"⟩, permission "issue", permission "transfer",
      ⟨⟨"manage"⟩, 0, []⟩, [group]⟩
    let update : Action := .updateDomain ⟨⟨"d"⟩, none, none, some (permission "manage"), []⟩
    let domain (manage : Permission) : Domain :=
      ⟨⟨"d"⟩, ⟨"k"⟩, noon, permission "issue", permission "transfer", manage⟩
    (Store.empty.replay [⟨context, creation⟩]).domains.toList = [domain ⟨⟨"manage"⟩, 0, []⟩] ∧
      (Store.empty.replay [⟨context, creation⟩, ⟨context, update⟩]).domains.toList =
        [domain (permission "manage")] := by
  decide +kernel

end TokenLedger
