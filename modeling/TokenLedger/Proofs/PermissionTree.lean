import TokenLedger.Proofs.Footprint
import TokenLedger.Proofs.History

/-!
The permission tree stays intact.

Every domain in a store refers to groups that are stored too, and every group is one that its own
key stands for. An action brings new references in only after it has found their groups,
in the store or among its own definitions, and it writes all its definitions. No group is ever
removed, so what was found before is still there.
-/

set_option autoImplicit false

namespace TokenLedger

/-- A permission that can be met and has all the groups that it refers to. -/
structure Permission.Rooted (permission : Permission) (store : Store) (name : String) : Prop where
  named : permission.name.text = name
  valid : permission.isValid = true
  stored : ∀ reference ∈ permission.groups, reference.id.text ≠ "" →
    ∃ group, store.groups.get? reference.id = some group

structure Domain.Rooted (domain : Domain) (store : Store) : Prop where
  named : domain.name.text ≠ ""
  issue : domain.issue.Rooted store "issue"
  transfer : domain.transfer.Rooted store "transfer"
  manage : domain.manage.Rooted store "manage"
  issueThreshold : 0 < domain.issue.threshold
  transferThreshold : 0 < domain.transfer.threshold
  issueGroups : ∀ reference ∈ domain.issue.groups, reference.id.text ≠ ""
  manageGroups : ∀ reference ∈ domain.manage.groups, reference.id.text ≠ ""

structure Group.Rooted (group : Group) : Prop where
  valid : group.isValid = true
  keyed : group.keys ≠ []
  named : group.id.text ≠ ""
  derived : group.id = GroupId.ofKey group.key

/-- Every record is filed under its own name and is in order. -/
structure Store.PermissionTree (store : Store) : Prop where
  domains : ∀ name domain, store.domains.get? name = some domain →
    domain.name = name ∧ domain.Rooted store
  groups : ∀ id group, store.groups.get? id = some group → group.id = id ∧ group.Rooted

section Groups

variable {group : Group}

theorem Group.keys_ne_nil_of_isValid (valid : group.isValid = true) : group.keys ≠ [] := by
  intro none
  simp only [isValid, Weighted.wellFormed, none, Weighted.completes, Bool.and_eq_true, bne_iff_ne,
    decide_eq_true_eq] at valid
  obtain ⟨needed, met⟩ := valid
  apply needed
  apply UInt32.toNat_inj.mp
  simpa [UInt64.le_iff_toNat_le] using met

theorem Group.rooted_of_derived (valid : group.isValid = true)
    (derived : group.id = GroupId.ofKey group.key) : group.Rooted where
  valid := valid
  keyed := keys_ne_nil_of_isValid valid
  named := by
    intro empty
    exact GroupId.ofKey_ne_owner group.key (GroupId.ext (derived ▸ empty))
  derived := derived

end Groups

section Domains

variable {slot : Slot} {permission : Permission} {domain : Domain} {store after : Store}

/-- The permission passes the check of the slot, and each reference is to the owner, where that is
allowed, or to a stored group. -/
structure Slot.Fits (slot : Slot) (permission : Permission) (store : Store) : Prop where
  checked : slot.check permission = .ok ()
  found : ∀ reference ∈ permission.groups,
    if reference.id = .owner then slot.allowsOwner = true
    else store.groups.contains reference.id = true

theorem Slot.Fits.mono (fits : slot.Fits permission store)
    (grown : ∀ id, store.groups.contains id = true → after.groups.contains id = true) :
    slot.Fits permission after where
  checked := fits.checked
  found reference member := by
    have there := fits.found reference member
    split
    case isTrue owner => simpa [owner] using there
    case isFalse other => exact grown reference.id (by simpa [other] using there)

theorem Slot.fits_iff :
    slot.Fits permission store ↔ permission.Rooted store slot.name ∧
      (slot.needsThreshold = true → 0 < permission.threshold) ∧
      (slot.allowsOwner = false → ∀ reference ∈ permission.groups, reference.id.text ≠ "") := by
  have text_eq (id : GroupId) : id.text = "" ↔ id = .owner := GroupId.ext_iff.symm
  constructor
  · rintro ⟨checked, found⟩
    obtain ⟨named, threshold, valid⟩ := Slot.check_eq_ok_iff.mp checked
    refine ⟨⟨named, valid, ?_⟩, ?_, ?_⟩
    · intro reference member other
      have there := found reference member
      rw [if_neg (by rwa [← text_eq])] at there
      exact Table.contains_iff.mp there
    · intro needed
      exact UInt32.pos_iff_ne_zero.mpr (threshold needed)
    · intro excluded reference member owner
      have allowed := found reference member
      rw [if_pos ((text_eq _).mp owner), excluded] at allowed
      contradiction
  · rintro ⟨rooted, threshold, excluded⟩
    refine ⟨Slot.check_eq_ok_iff.mpr ⟨rooted.named, ?_, rooted.valid⟩, ?_⟩
    · intro needed
      exact UInt32.pos_iff_ne_zero.mp (threshold needed)
    · intro reference member
      by_cases owner : reference.id = .owner
      · rw [if_pos owner]
        by_cases allowed : slot.allowsOwner = true
        · exact allowed
        · exact absurd ((text_eq _).mpr owner) (excluded (by simpa using allowed) reference member)
      · rw [if_neg owner]
        exact Table.contains_iff.mpr (rooted.stored reference member (by rwa [ne_eq, text_eq]))

theorem Domain.rooted_iff :
    domain.Rooted store ↔
      domain.name.isEmpty = false ∧ ∀ slot : Slot, slot.Fits (domain.permission slot) store := by
  have isEmpty_eq : domain.name.isEmpty = false ↔ domain.name.text ≠ "" := by simp [Name.isEmpty]
  rw [isEmpty_eq, Slot.forall_iff]
  simp only [Slot.fits_iff, permission, Slot.name, Slot.needsThreshold, Slot.allowsOwner]
  constructor
  · intro rooted
    exact ⟨rooted.named,
      ⟨rooted.issue, fun _ => rooted.issueThreshold, fun _ => rooted.issueGroups⟩,
      ⟨rooted.transfer, fun _ => rooted.transferThreshold, by simp⟩,
      ⟨rooted.manage, by simp, fun _ => rooted.manageGroups⟩⟩
  · rintro ⟨named, ⟨issue, issueThreshold, issueGroups⟩, ⟨transfer, transferThreshold, -⟩,
      ⟨manage, -, manageGroups⟩⟩
    exact ⟨named, issue, transfer, manage, issueThreshold trivial, transferThreshold trivial,
      issueGroups trivial, manageGroups trivial⟩

theorem Domain.Rooted.mono (rooted : domain.Rooted store)
    (grown : ∀ id, store.groups.contains id = true → after.groups.contains id = true) :
    domain.Rooted after := by
  obtain ⟨named, fits⟩ := Domain.rooted_iff.mp rooted
  exact Domain.rooted_iff.mpr ⟨named, fun slot => (fits slot).mono grown⟩

end Domains

section Definitions

variable {store : Store} {definitions : List Group}

/-- What a definition brings in resolves in the store that all definitions are written to. -/
theorem Slot.fits_of_resolves {slot : Slot} {permission : Permission}
    (checked : slot.check permission = .ok ())
    (resolves : permission.Resolves store definitions slot.allowsOwner) :
    slot.Fits permission (store.rewritten (definitions.map Write.addGroup)) where
  checked := checked
  found reference member := by
    have resolved := resolves reference member
    split
    case isTrue owner => simpa [owner] using resolved
    case isFalse other =>
      rw [if_neg other] at resolved
      rw [Store.contains_groups_rewritten_addGroup]
      by_cases stored : store.groups.contains reference.id = true
      · exact .inl stored
      · right
        by_cases defined : ∃ group ∈ definitions, group.id = reference.id
        · exact defined
        · exact absurd (iff_of_false stored defined) resolved

end Definitions

namespace Store.PermissionTree

variable {store : Store} {definitions : List Group} {domain : Domain}

theorem empty : Store.empty.PermissionTree where
  domains _ _ found := nomatch found
  groups _ _ found := nomatch found

theorem of_same_tables {after : Store} (tree : store.PermissionTree)
    (domains : after.domains = store.domains) (groups : after.groups = store.groups) :
    after.PermissionTree where
  domains name domain found := by
    obtain ⟨named, rooted⟩ := tree.domains name domain (domains ▸ found)
    refine ⟨named, rooted.mono ?_⟩
    intro id there
    rwa [groups]
  groups id group found := tree.groups id group (groups ▸ found)

/-- A domain and its definitions may be written as soon as all fits once they are. -/
theorem writeDomain (tree : store.PermissionTree)
    (definable : checkDefinitions [] definitions = .ok ()) (named : domain.name.isEmpty = false)
    (fits : ∀ slot : Slot, slot.Fits (domain.permission slot)
      (store.rewritten (definitions.map Write.addGroup))) :
    (store.rewritten (.addDomain domain :: definitions.map Write.addGroup)).PermissionTree where
  domains name found there := by
    rw [Store.rewritten_cons, Store.domains_rewritten_addGroup] at there
    simp only [Store.written, Table.get?_insert, key_domain] at there
    have grown : ∀ id,
        (store.rewritten (definitions.map Write.addGroup)).groups.contains id = true →
          (store.rewritten (.addDomain domain :: definitions.map Write.addGroup)).groups.contains
            id = true := by
      intro id
      rw [Store.rewritten_cons, Store.contains_groups_rewritten_addGroup,
        Store.contains_groups_rewritten_addGroup]
      exact fun member => member
    split at there
    case isTrue same =>
      cases there
      exact ⟨same, Domain.rooted_iff.mpr ⟨named, fun slot => (fits slot).mono grown⟩⟩
    case isFalse =>
      obtain ⟨same, rooted⟩ := tree.domains name found there
      refine ⟨same, rooted.mono ?_⟩
      intro id stored
      exact grown id (Store.contains_groups_rewritten_addGroup.mpr (.inl stored))
  groups id group there := by
    refine ⟨Table.key_of_get? there, ?_⟩
    rcases Store.get?_groups_rewritten_addGroup there with defined | stored
    · obtain ⟨valid, derived⟩ := (checkDefinitions_eq_ok_iff.mp definable).1 group defined
      exact Group.rooted_of_derived valid (by simpa [Group.idMatchesKey] using derived)
    · exact (tree.groups id group stored).2

theorem updateGroup (tree : store.PermissionTree) {stored : Group} {threshold : UInt32}
    {keys : List KeyWeight} {id : GroupId} (found : store.groups.get? id = some stored)
    (valid : { stored with threshold, keys : Group }.isValid = true) :
    (store.written (.updateGroup { stored with threshold, keys })).PermissionTree where
  domains name domain there := by
    obtain ⟨named, rooted⟩ := tree.domains name domain there
    refine ⟨named, rooted.mono ?_⟩
    intro other known
    simp [Store.written, known]
  groups other group there := by
    refine ⟨Table.key_of_get? there, ?_⟩
    simp only [Store.written, Table.get?_insert] at there
    split at there
    · cases there
      exact Group.rooted_of_derived valid (tree.groups id stored found).2.derived
    · exact (tree.groups other group there).2

theorem after (tree : store.PermissionTree) (step : Step) : (store.after step).PermissionTree := by
  rcases step with ⟨context, action⟩
  rcases action.apply_noFaults_cases context store with ⟨-, -, -, same⟩ | ⟨plan, settled, -, left⟩
  · exact tree.of_same_tables (congrArg Store.domains same) (congrArg Store.groups same)
  have planned := (Action.settle_validate_eq_ok_iff.mp settled).2
  unfold Store.after
  cases action with
  | newDomain action =>
      obtain ⟨-, definable, named, checked, resolves, -, rfl⟩ :=
        NewDomain.settle_plan_eq_ok_iff.mp planned
      rw [left]
      apply tree.writeDomain definable named
      intro slot
      have fits := Slot.fits_of_resolves (checked slot) (resolves slot)
      cases slot <;> exact fits
  | updateDomain action =>
      obtain ⟨stored, found, definable, -, checked, -, rfl⟩ :=
        UpdateDomain.settle_plan_eq_ok_iff.mp planned
      rw [left]
      obtain ⟨named, kept⟩ := Domain.rooted_iff.mp (tree.domains _ stored found).2
      have stillNamed : (action.amended stored).name.isEmpty = false := named
      apply tree.writeDomain definable stillNamed
      intro slot
      rw [action.permission_amended]
      cases given : action.permission? slot with
      | some permission =>
          obtain ⟨fitting, resolves⟩ := checked slot permission given
          exact Slot.fits_of_resolves fitting resolves
      | none =>
          refine (kept slot).mono ?_
          intro id there
          exact Store.contains_groups_rewritten_addGroup.mpr (.inl there)
  | updateGroup action =>
      obtain ⟨stored, found, -, valid, rfl⟩ := UpdateGroup.settle_plan_eq_ok_iff.mp planned
      rw [left]
      exact tree.updateGroup found valid
  | issueTokens | transferToken | newAccount | updateOwner | transferBalance =>
      apply tree.of_same_tables
      · apply Action.domains_apply
        simp [Action.targets]
      · apply Action.groups_apply
        simp [Action.targets]

end Store.PermissionTree

/-- Whatever actions are applied to a ledger that starts out empty, in order or not, its permission
tree is intact. -/
theorem Store.replay_permissionTree (steps : List Step) :
    (Store.empty.replay steps).PermissionTree :=
  replay_induction .empty (fun _ step tree => tree.after step) steps

end TokenLedger
