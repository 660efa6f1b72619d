import TokenLedger.Proofs.Calls

/-!
How the references of a permission are resolved, whoever answers for the groups.

The references are looked at one after the other. Whether a group is stored is asked once for each,
and never about the owner. What is wrong with a reference is an `Objection`, and the first ends the
check (`Permission.consult_resolve_cases`). Whatever answers the questions may do so as it likes
(`Respondent`). A store with faults before it is one case of that (`Check.consult_store`).
-/

set_option autoImplicit false

namespace TokenLedger

/-- Whatever answers the questions of a check. It may fail to, and it keeps a state, so nothing is
assumed about its answers. -/
class Respondent (σ : Type) where
  answer : (query : Query) → σ → Except StoreError query.Answer × σ

/-- A store behind a source of faults. -/
instance {φ : Type} [FaultSource φ] : Respondent (Store × φ) where
  answer query state :=
    match FaultSource.strike (.ask query) state.2 with
    | (some error, left) => (.error error, state.1, left)
    | (none, left) => (state.1.ask query, state.1, left)

/-- Carry out a check before a respondent. The first question that is not answered ends it. The
report tells the state at the end in place of the faults. -/
def Check.consult {σ α : Type} [Respondent σ] : Check α → σ → Report σ α
  | .done value, state => ⟨.ok value, [], [], state⟩
  | .fail failure, state => ⟨.error failure, [], [], state⟩
  | .note event next, state =>
      let report := next.consult state
      { report with log := event :: report.log }
  | .ask query next, state =>
      match Respondent.answer query state with
      | (.error error, state) => ⟨.error (.store error), [.ask query], [], state⟩
      | (.ok answer, state) =>
          let report := (next answer).consult state
          { report with calls := .ask query :: report.calls }

/-- A run against a store is a consultation of the store and its faults. -/
theorem Check.consult_store {φ α : Type} [FaultSource φ] (check : Check α) (store : Store)
    (faults : φ) :
    check.consult (store, faults) =
      let report := check.run store faults
      ⟨report.result, report.calls, report.log, store, report.faults⟩ := by
  induction check generalizing faults with
  | done value => rfl
  | fail failure => rfl
  | note event next inductionHypothesis => simp only [consult, run, inductionHypothesis]
  | ask query next inductionHypothesis =>
      simp only [consult, run, Respondent.answer]
      rcases FaultSource.strike (.ask query) faults with ⟨_ | error, left⟩
      · cases store.ask query with
        | error error => rfl
        | ok answer => simp only [inductionHypothesis]
      · rfl

/-- The respondent knows these groups and no others, and says so whenever it is asked. -/
def Respondent.Knows {σ : Type} [Respondent σ] (state : σ) (known : GroupId → Bool) : Prop :=
  ∃ keeps : σ → Prop, keeps state ∧ ∀ now, keeps now → ∀ id,
    (answer (.existsGroup id) now).1 = .ok (known id) ∧ keeps (answer (.existsGroup id) now).2

theorem Respondent.knows_store (store : Store) :
    Knows (store, NoFaults.mk) store.groups.contains := by
  refine ⟨fun state => state.1 = store, rfl, fun now same id => ?_⟩
  cases same
  exact ⟨rfl, rfl⟩

/-- What is heard about a reference: nothing about the owner, and else whether the group is stored,
or why there is no answer. -/
inductive Enquiry where
  | owner
  | group (id : GroupId) (reply : Except StoreError Bool)

section Enquiring

variable {σ : Type} [Respondent σ]

/-- Enquire about one reference. -/
def Respondent.enquire (id : GroupId) (state : σ) : Enquiry × σ :=
  if id.isOwner then (.owner, state)
  else (.group id (answer (.existsGroup id) state).1, (answer (.existsGroup id) state).2)

/-- What is heard about all references, if none ends the check. -/
def Respondent.enquiries : List GroupWeight → σ → List Enquiry
  | [], _ => []
  | reference :: rest, state =>
      (enquire reference.id state).1 :: enquiries rest (enquire reference.id state).2

theorem Respondent.enquire_owner {id : GroupId} (owner : id = .owner) (state : σ) :
    enquire id state = (.owner, state) := by
  rw [enquire, if_pos ((GroupId.isOwner_iff id).mpr owner)]

theorem Respondent.enquire_group {id : GroupId} (other : id ≠ .owner) (state : σ) :
    enquire id state =
      (.group id (answer (.existsGroup id) state).1, (answer (.existsGroup id) state).2) := by
  rw [enquire, if_neg (mt (GroupId.isOwner_iff id).mp other)]

end Enquiring

/-- One question for each reference, the owner aside. -/
def referenceCalls (references : List GroupWeight) : List Call :=
  (references.filter fun reference => reference.id ≠ .owner).map fun reference =>
    .ask (.existsGroup reference.id)

theorem referenceCalls_cons_of_owner {reference : GroupWeight} (owner : reference.id = .owner)
    (rest : List GroupWeight) : referenceCalls (reference :: rest) = referenceCalls rest := by
  simp [referenceCalls, owner]

theorem referenceCalls_cons_of_group {reference : GroupWeight} (other : reference.id ≠ .owner)
    (rest : List GroupWeight) :
    referenceCalls (reference :: rest) =
      .ask (.existsGroup reference.id) :: referenceCalls rest := by
  simp [referenceCalls, other]

theorem referenceCalls_cons (reference : GroupWeight) (rest : List GroupWeight) :
    referenceCalls (reference :: rest) = referenceCalls [reference] ++ referenceCalls rest := by
  by_cases owner : reference.id = .owner
  · rw [referenceCalls_cons_of_owner owner, referenceCalls_cons_of_owner owner]
    rfl
  · rw [referenceCalls_cons_of_group owner, referenceCalls_cons_of_group owner]
    rfl

/-- The enquiry in this position is the first that something is wrong with. -/
inductive FirstObjection (objects : Enquiry → Failure → Prop) :
    List Enquiry → Nat → Failure → Prop where
  | here {enquiry : Enquiry} {failure : Failure} (objection : objects enquiry failure)
      (rest : List Enquiry) : FirstObjection objects (enquiry :: rest) 0 failure
  | later {enquiry : Enquiry} {rest : List Enquiry} {position : Nat} {failure : Failure}
      (fine : ∀ other, ¬objects enquiry other)
      (found : FirstObjection objects rest position failure) :
      FirstObjection objects (enquiry :: rest) (position + 1) failure

namespace FirstObjection

variable {objects : Enquiry → Failure → Prop} {enquiries : List Enquiry} {position position' : Nat}
  {failure failure' : Failure}

theorem unique (one : ∀ enquiry first second, objects enquiry first → objects enquiry second →
      first = second)
    (found : FirstObjection objects enquiries position failure)
    (found' : FirstObjection objects enquiries position' failure') :
    position = position' ∧ failure = failure' := by
  induction found generalizing position' with
  | here objection rest =>
      cases found' with
      | here objection' => exact ⟨rfl, one _ _ _ objection objection'⟩
      | later fine => exact absurd objection (fine _)
  | later fine _ inductionHypothesis =>
      cases found' with
      | here objection => exact absurd objection (fine _)
      | later _ found' =>
          obtain ⟨rfl, same⟩ := inductionHypothesis found'
          exact ⟨rfl, same⟩

theorem exists_objection (found : FirstObjection objects enquiries position failure) :
    ∃ enquiry ∈ enquiries, objects enquiry failure := by
  induction found with
  | here objection rest => exact ⟨_, List.mem_cons_self, objection⟩
  | later _ _ inductionHypothesis =>
      obtain ⟨enquiry, listed, objection⟩ := inductionHypothesis
      exact ⟨enquiry, List.mem_cons_of_mem _ listed, objection⟩

end FirstObjection

namespace Permission

/-- What is wrong with a reference: the owner is not allowed, there is no answer about the group, or
it is both stored and defined, or neither. -/
inductive Objection (permission : Permission) (defined : List Group) (allowsOwner : Bool) :
    Enquiry → Failure → Prop where
  | ownerNotAllowed (denied : allowsOwner = false) :
      Objection permission defined allowsOwner .owner
        (.ofReason (.ownerNotAllowed permission.name))
  | unanswered (id : GroupId) (error : StoreError) :
      Objection permission defined allowsOwner (.group id (.error error)) (.store error)
  | unresolved (id : GroupId) (stored : Bool)
      (same : stored = true ↔ ∃ group ∈ defined, group.id = id) :
      Objection permission defined allowsOwner (.group id (.ok stored))
        (.ofReason (.unresolvedGroup id))

variable {permission : Permission} {defined : List Group} {allowsOwner : Bool}

theorem Objection.unique (enquiry : Enquiry) (first second : Failure)
    (objection : permission.Objection defined allowsOwner enquiry first)
    (objection' : permission.Objection defined allowsOwner enquiry second) : first = second := by
  cases objection <;> cases objection' <;> rfl

theorem no_objection_owner_iff :
    (∀ failure, ¬permission.Objection defined allowsOwner .owner failure) ↔
      allowsOwner = true := by
  constructor
  · intro fine
    cases denied : allowsOwner with
    | true => rfl
    | false => exact absurd (.ownerNotAllowed denied) (fine _)
  · rintro allowed failure ⟨denied⟩
    exact Bool.false_ne_true (denied.symm.trans allowed)

theorem no_objection_group_iff {id : GroupId} {reply : Except StoreError Bool} :
    (∀ failure, ¬permission.Objection defined allowsOwner (.group id reply) failure) ↔
      ∃ stored, reply = .ok stored ∧ ¬(stored = true ↔ ∃ group ∈ defined, group.id = id) := by
  constructor
  · intro fine
    cases reply with
    | error error => exact absurd (.unanswered id error) (fine _)
    | ok stored => exact ⟨stored, rfl, fun same => fine _ (.unresolved id stored same)⟩
  · rintro ⟨stored, rfl, differ⟩ failure ⟨⟩
    exact differ ‹_›

/-- Only the identifiers of the definitions matter. -/
theorem objection_congr {defined' : List Group}
    (same : ∀ id, (∃ group ∈ defined, group.id = id) ↔ ∃ group ∈ defined', group.id = id) :
    permission.Objection defined allowsOwner = permission.Objection defined' allowsOwner := by
  funext enquiry failure
  apply propext
  constructor
  · rintro (denied | ⟨id, error⟩ | ⟨id, stored, alike⟩)
    · exact .ownerNotAllowed denied
    · exact .unanswered id error
    · exact .unresolved id stored (alike.trans (same id))
  · rintro (denied | ⟨id, error⟩ | ⟨id, stored, alike⟩)
    · exact .ownerNotAllowed denied
    · exact .unanswered id error
    · exact .unresolved id stored (alike.trans (same id).symm)

/-- Nothing is wrong with any reference. -/
theorem no_objections_iff (permission : Permission) {enquiries : List Enquiry} :
    (∀ enquiry ∈ enquiries, ∀ failure, ¬permission.Objection defined allowsOwner enquiry failure) ↔
      (.owner ∈ enquiries → allowsOwner = true) ∧
        ∀ id reply, .group id reply ∈ enquiries →
          ∃ stored, reply = .ok stored ∧ ¬(stored = true ↔ ∃ group ∈ defined, group.id = id) := by
  constructor
  · intro fine
    refine ⟨fun listed => no_objection_owner_iff.mp (fine _ listed), fun id reply listed => ?_⟩
    exact no_objection_group_iff.mp (fine _ listed)
  · rintro ⟨owner, group⟩ enquiry listed
    cases enquiry with
    | owner => exact no_objection_owner_iff.mpr (owner listed)
    | group id reply => exact no_objection_group_iff.mpr (group id reply listed)

section Consulting

variable {σ α : Type} [Respondent σ] {reference : GroupWeight} {state : σ} {failure : Failure}

/-- The check of one reference. -/
def resolveReference (permission : Permission) (defined : List Group) (allowsOwner : Bool)
    (reference : GroupWeight) : Check Unit :=
  if reference.id.isOwner then Check.ensure allowsOwner (.ownerNotAllowed permission.name)
  else resolveGroup defined reference.id

theorem resolve_eq (permission : Permission) (defined : List Group) (allowsOwner : Bool) :
    permission.resolve defined allowsOwner =
      forM permission.groups (permission.resolveReference defined allowsOwner) :=
  rfl

theorem resolveReference_owner (owner : reference.id = .owner) :
    permission.resolveReference defined allowsOwner reference =
      Check.ensure allowsOwner (.ownerNotAllowed permission.name) :=
  if_pos ((GroupId.isOwner_iff _).mpr owner)

theorem resolveReference_group (other : reference.id ≠ .owner) :
    permission.resolveReference defined allowsOwner reference =
      resolveGroup defined reference.id :=
  if_neg (mt (GroupId.isOwner_iff _).mp other)

/-- A group is asked about, and then judged by the answer. -/
theorem consult_resolveGroup_bind (id : GroupId) (next : Unit → Check α) (state : σ) :
    (resolveGroup defined id >>= next).consult state =
      match Respondent.answer (.existsGroup id) state with
      | (.error error, left) => ⟨.error (.store error), [.ask (.existsGroup id)], [], left⟩
      | (.ok stored, left) =>
          let inline := defined.any fun group => group.id = id
          let report :=
            (Check.ensure (stored != inline) (.unresolvedGroup id) >>= next).consult left
          { report with
            calls := .ask (.existsGroup id) :: report.calls
            log := .resolving id stored inline :: report.log } := by
  change (Check.ask (.existsGroup id) _).consult state = _
  rw [Check.consult]
  rcases Respondent.answer (.existsGroup id) state with ⟨error | stored, left⟩
  · rfl
  · rfl

theorem differ_iff {stored : Bool} {id : GroupId} :
    (stored != defined.any fun group => group.id = id) = true ↔
      ¬(stored = true ↔ ∃ group ∈ defined, group.id = id) := by
  cases stored <;> simp

theorem consult_reference_of_objection (next : Unit → Check α)
    (objection : permission.Objection defined allowsOwner
      (Respondent.enquire reference.id state).1 failure) :
    let report := (permission.resolveReference defined allowsOwner reference >>= next).consult state
    report.result = .error failure ∧ report.calls = referenceCalls [reference] := by
  by_cases owner : reference.id = .owner
  · rw [Respondent.enquire_owner owner] at objection
    rw [resolveReference_owner owner, referenceCalls_cons_of_owner owner]
    cases objection with
    | ownerNotAllowed denied =>
        rw [denied]
        exact ⟨rfl, rfl⟩
  · rw [Respondent.enquire_group owner] at objection
    rw [resolveReference_group owner, referenceCalls_cons_of_group owner, consult_resolveGroup_bind]
    rcases answered : Respondent.answer (.existsGroup reference.id) state with
      ⟨error | stored, left⟩
    · rw [answered] at objection
      cases objection
      exact ⟨rfl, rfl⟩
    · rw [answered] at objection
      cases objection with
      | unresolved _ _ same =>
          have alike := Bool.eq_false_iff.mpr (mt differ_iff.mp (not_not_intro same))
          simp only [alike]
          exact ⟨rfl, rfl⟩

/-- A reference with nothing wrong is passed over, once its group has been asked about. -/
theorem consult_reference_of_no_objection (next : Unit → Check α)
    (fine : ∀ failure, ¬permission.Objection defined allowsOwner
      (Respondent.enquire reference.id state).1 failure) :
    let report := (permission.resolveReference defined allowsOwner reference >>= next).consult state
    let later := (next ()).consult (Respondent.enquire reference.id state).2
    report.result = later.result ∧ report.calls = referenceCalls [reference] ++ later.calls := by
  by_cases owner : reference.id = .owner
  · rw [Respondent.enquire_owner owner] at fine ⊢
    rw [resolveReference_owner owner, referenceCalls_cons_of_owner owner,
      no_objection_owner_iff.mp fine]
    exact ⟨rfl, rfl⟩
  · rw [Respondent.enquire_group owner] at fine ⊢
    rw [resolveReference_group owner, referenceCalls_cons_of_group owner, consult_resolveGroup_bind]
    obtain ⟨stored, told, differ⟩ := no_objection_group_iff.mp fine
    rcases answered : Respondent.answer (.existsGroup reference.id) state with ⟨reply, left⟩
    rw [answered] at told
    cases told
    simp only [differ_iff.mpr differ]
    exact ⟨rfl, rfl⟩

/-- The first reference with something wrong ends the check. No group after it is asked about. -/
theorem consult_resolve_cases (references : List GroupWeight) (state : σ) :
    let report :=
      (forM references (permission.resolveReference defined allowsOwner)).consult state
    (∃ position failure,
        FirstObjection (permission.Objection defined allowsOwner)
          (Respondent.enquiries references state) position failure ∧
        report.result = .error failure ∧
        report.calls = referenceCalls (references.take (position + 1))) ∨
      (∀ enquiry ∈ Respondent.enquiries references state, ∀ failure,
          ¬permission.Objection defined allowsOwner enquiry failure) ∧
        report.result = .ok () ∧ report.calls = referenceCalls references := by
  induction references generalizing state with
  | nil => exact .inr ⟨List.forall_mem_nil _, rfl, rfl⟩
  | cons reference rest inductionHypothesis =>
      simp only [List.forM_cons, Respondent.enquiries]
      by_cases wrong : ∃ failure, permission.Objection defined allowsOwner
        (Respondent.enquire reference.id state).1 failure
      · obtain ⟨failure, objection⟩ := wrong
        obtain ⟨result, calls⟩ := consult_reference_of_objection
          (fun _ => forM rest (permission.resolveReference defined allowsOwner)) objection
        exact .inl ⟨0, failure, .here objection _, result, calls⟩
      · have fine := not_exists.mp wrong
        obtain ⟨result, calls⟩ := consult_reference_of_no_objection
          (fun _ => forM rest (permission.resolveReference defined allowsOwner)) fine
        rw [result, calls]
        rcases inductionHypothesis (Respondent.enquire reference.id state).2 with
          ⟨position, failure, found, failed, asked⟩ | ⟨others, finished, asked⟩
        · refine .inl ⟨position + 1, failure, .later fine found, failed, ?_⟩
          rw [asked, List.take_succ_cons, referenceCalls_cons reference (rest.take _)]
        · refine .inr ⟨List.forall_mem_cons.mpr ⟨fine, others⟩, finished, ?_⟩
          rw [asked, referenceCalls_cons reference rest]

end Consulting

/-- What resolving the references comes to, one after the other. -/
structure JudgedByFirst {σ : Type} (permission : Permission) (defined : List Group)
    (allowsOwner : Bool) (enquiries : List Enquiry) (report : Check.Report σ Unit) : Prop where
  accepted : report.result = .ok () ↔
    (.owner ∈ enquiries → allowsOwner = true) ∧
      ∀ id reply, .group id reply ∈ enquiries →
        ∃ stored, reply = .ok stored ∧ ¬(stored = true ↔ ∃ group ∈ defined, group.id = id)
  rejected : ∀ failure, report.result = .error failure ↔
    ∃ position,
      FirstObjection (permission.Objection defined allowsOwner) enquiries position failure
  asked : ∀ position failure,
    FirstObjection (permission.Objection defined allowsOwner) enquiries position failure →
      report.calls = referenceCalls (permission.groups.take (position + 1))
  asked_all : report.result = .ok () → report.calls = referenceCalls permission.groups
  owner_unasked : .ask (.existsGroup .owner) ∉ report.calls

section Judging

variable {σ : Type} [Respondent σ]

theorem owner_not_mem_referenceCalls (references : List GroupWeight) :
    .ask (.existsGroup .owner) ∉ referenceCalls references := by
  intro asked
  obtain ⟨reference, listed, same⟩ := List.mem_map.mp asked
  have other : reference.id ≠ .owner := by simpa using (List.mem_filter.mp listed).2
  exact other (Query.existsGroup.inj (Call.ask.inj same))

theorem judgedByFirst (permission : Permission) (defined : List Group) (allowsOwner : Bool)
    (state : σ) :
    permission.JudgedByFirst defined allowsOwner (Respondent.enquiries permission.groups state)
      ((permission.resolve defined allowsOwner).consult state) := by
  rw [resolve_eq]
  rcases consult_resolve_cases permission.groups state with
    ⟨position, failure, found, failed, asked⟩ | ⟨fine, finished, asked⟩
  · obtain ⟨enquiry, listed, objection⟩ := found.exists_objection
    constructor
    case accepted =>
      rw [failed, ← permission.no_objections_iff]
      exact ⟨nofun, fun fine => absurd objection (fine enquiry listed failure)⟩
    case rejected =>
      intro other
      rw [failed]
      constructor
      · intro same
        cases same
        exact ⟨position, found⟩
      · rintro ⟨position', found'⟩
        rw [(found.unique Objection.unique found').2]
    case asked =>
      intro position' other found'
      rw [asked, (found.unique Objection.unique found').1]
    case asked_all =>
      intro finished
      cases failed.symm.trans finished
    case owner_unasked =>
      rw [asked]
      exact owner_not_mem_referenceCalls _
  · have nowhere {position : Nat} {failure : Failure} :
        ¬FirstObjection (permission.Objection defined allowsOwner)
          (Respondent.enquiries permission.groups state) position failure := by
      intro found
      obtain ⟨enquiry, listed, objection⟩ := found.exists_objection
      exact fine enquiry listed _ objection
    constructor
    case accepted =>
      rw [finished, ← permission.no_objections_iff]
      exact ⟨fun _ => fine, fun _ => rfl⟩
    case rejected =>
      intro failure
      rw [finished]
      exact ⟨nofun, fun ⟨_, found⟩ => absurd found nowhere⟩
    case asked => exact fun position failure found => absurd found nowhere
    case asked_all => exact fun _ => asked
    case owner_unasked =>
      rw [asked]
      exact owner_not_mem_referenceCalls _

section Known

variable {permission : Permission} {defined : List Group} {allowsOwner : Bool} {state : σ}
  {known : GroupId → Bool}

/-- What a respondent tells about a reference that knows these groups and no others. -/
def expected (known : GroupId → Bool) (reference : GroupWeight) : Enquiry :=
  if reference.id = .owner then .owner else .group reference.id (.ok (known reference.id))

theorem enquiries_of_knows (knows : Respondent.Knows state known) (references : List GroupWeight) :
    Respondent.enquiries references state = references.map (expected known) := by
  obtain ⟨keeps, kept, answers⟩ := knows
  induction references generalizing state with
  | nil => rfl
  | cons reference rest inductionHypothesis =>
      rw [Respondent.enquiries, List.map_cons, expected]
      by_cases owner : reference.id = .owner
      · rw [Respondent.enquire_owner owner, if_pos owner, inductionHypothesis kept]
      · obtain ⟨told, still⟩ := answers state kept reference.id
        rw [Respondent.enquire_group owner, if_neg owner, told, inductionHypothesis still]

theorem no_objection_expected_iff {reference : GroupWeight} :
    (∀ failure, ¬permission.Objection defined allowsOwner (expected known reference) failure) ↔
      if reference.id = .owner then allowsOwner = true
      else ¬(known reference.id = true ↔ ∃ group ∈ defined, group.id = reference.id) := by
  unfold expected
  split
  · exact no_objection_owner_iff
  · rw [no_objection_group_iff]
    constructor
    · rintro ⟨stored, told, differ⟩
      cases told
      exact differ
    · intro differ
      exact ⟨known reference.id, rfl, differ⟩

/-- Two respondents that know the same groups let the same references pass and turn down others for
the same failure. -/
theorem result_congr {τ : Type} [Respondent τ] {state' : τ} {defined' : List Group}
    (knows : Respondent.Knows state known) (knows' : Respondent.Knows state' known)
    (same : ∀ id, (∃ group ∈ defined, group.id = id) ↔ ∃ group ∈ defined', group.id = id) :
    ((permission.resolve defined allowsOwner).consult state).result =
      ((permission.resolve defined' allowsOwner).consult state').result := by
  have here := permission.judgedByFirst defined allowsOwner state
  have there := permission.judgedByFirst defined' allowsOwner state'
  rw [enquiries_of_knows knows] at here
  rw [enquiries_of_knows knows'] at there
  have alike (failure : Failure) :
      ((permission.resolve defined allowsOwner).consult state).result = .error failure ↔
        ((permission.resolve defined' allowsOwner).consult state').result = .error failure := by
    rw [here.rejected, there.rejected, objection_congr same]
  cases failed : ((permission.resolve defined allowsOwner).consult state).result with
  | error failure => exact ((alike failure).mp failed).symm
  | ok finished =>
      cases failed' : ((permission.resolve defined' allowsOwner).consult state').result with
      | error failure => cases failed.symm.trans ((alike failure).mpr failed')
      | ok finished' => rfl

/-- If nothing that is defined is stored, a reference has to be to one of the groups stored or
defined. -/
theorem result_eq_ok_iff_of_new (knows : Respondent.Knows state known)
    (new : ∀ group ∈ defined, known group.id = false) :
    ((permission.resolve defined allowsOwner).consult state).result = .ok () ↔
      ∀ reference ∈ permission.groups,
        if reference.id = .owner then allowsOwner = true
        else known reference.id = true ∨ ∃ group ∈ defined, group.id = reference.id := by
  rw [(permission.judgedByFirst defined allowsOwner state).accepted, ← permission.no_objections_iff,
    enquiries_of_knows knows, List.forall_mem_map]
  refine forall₂_congr fun reference _ => no_objection_expected_iff.trans ?_
  split
  · rfl
  · have apart : (∃ group ∈ defined, group.id = reference.id) → known reference.id = false := by
      rintro ⟨group, listed, same⟩
      exact same ▸ new group listed
    by_cases inline : ∃ group ∈ defined, group.id = reference.id
    · simp [inline, apart inline]
    · simp [inline]

end Known

end Judging

/-- References are resolved one after the other, whoever answers for the groups: the first with
something wrong decides, and no group after it is asked about. Of a respondent that always answers
only the groups that it knows matter, and of the definitions only their identifiers. -/
theorem judged_by_references {σ : Type} [Respondent σ] (permission : Permission)
    (defined : List Group) (allowsOwner : Bool) (state : σ) :
    permission.JudgedByFirst defined allowsOwner (Respondent.enquiries permission.groups state)
        ((permission.resolve defined allowsOwner).consult state) ∧
      (∀ known, Respondent.Knows state known →
        (∀ (τ : Type) [Respondent τ] (state' : τ) (defined' : List Group),
          Respondent.Knows state' known →
          (∀ id, (∃ group ∈ defined, group.id = id) ↔ ∃ group ∈ defined', group.id = id) →
          ((permission.resolve defined allowsOwner).consult state).result =
            ((permission.resolve defined' allowsOwner).consult state').result) ∧
        ((∀ group ∈ defined, known group.id = false) →
          (((permission.resolve defined allowsOwner).consult state).result = .ok () ↔
            ∀ reference ∈ permission.groups,
              if reference.id = .owner then allowsOwner = true
              else known reference.id = true ∨ ∃ group ∈ defined, group.id = reference.id))) ∧
      (∀ (φ : Type) [FaultSource φ] (store : Store) (faults : φ),
        (permission.resolve defined allowsOwner).consult (store, faults) =
            (let report := (permission.resolve defined allowsOwner).run store faults
            ⟨report.result, report.calls, report.log, store, report.faults⟩) ∧
          Respondent.Knows (store, NoFaults.mk) store.groups.contains) ∧
      (Reason.ownerNotAllowed permission.name).message =
        "Owner group is not allowed in " ++ permission.name.text ++ " permission" ∧
      ∀ id, (Reason.unresolvedGroup id).message =
        "Group " ++ toString id ++
          " is not valid, may already be defined or not provide defines" := by
  refine ⟨permission.judgedByFirst defined allowsOwner state, fun known knows => ⟨?_, ?_⟩,
    fun φ _ store faults => ⟨Check.consult_store _ store faults, Respondent.knows_store store⟩,
    ?_, ?_⟩
  · intro τ _ state' defined' knows' same
    exact result_congr knows knows' same
  · exact result_eq_ok_iff_of_new knows
  · rfl
  · exact fun id => rfl

theorem judged_by_references_of_lost_answer :
    let group (id : String) : Group := ⟨⟨id⟩, ⟨id⟩, 1, []⟩
    let reference (id : String) : GroupWeight := ⟨⟨id⟩, 1⟩
    let permission : Permission :=
      ⟨⟨"transfer"⟩, 1, [reference "d", reference "", reference "c", reference "b", reference "a"]⟩
    let store : Store := { Store.empty with groups := Table.empty.insert (group "c") }
    let faults : List Fault := [⟨.existsGroup, 2, .storage "lost"⟩]
    let report := (permission.resolve [group "d"] true).consult (store, faults)
    permission.JudgedByFirst [group "d"] true
        (Respondent.enquiries permission.groups (store, faults)) report ∧
      FirstObjection (permission.Objection [group "d"] true)
        (Respondent.enquiries permission.groups (store, faults)) 3 (.store (.storage "lost")) ∧
      report.result = .error (.store (.storage "lost")) ∧
      report.calls = [.ask (.existsGroup ⟨"d"⟩), .ask (.existsGroup ⟨"c"⟩),
        .ask (.existsGroup ⟨"b"⟩)] := by
  intro group reference permission store faults report
  have judged := (permission.judged_by_references [group "d"] true (store, faults)).1
  have heard : Respondent.enquiries permission.groups (store, faults) =
      [.group ⟨"d"⟩ (.ok false), .owner, .group ⟨"c"⟩ (.ok true),
        .group ⟨"b"⟩ (.error (.storage "lost")), .group ⟨"a"⟩ (.ok false)] := rfl
  have first : FirstObjection (permission.Objection [group "d"] true)
      (Respondent.enquiries permission.groups (store, faults)) 3 (.store (.storage "lost")) := by
    rw [heard]
    refine .later ?defined (.later ?owner (.later ?stored (.here (.unanswered _ _) _)))
    case owner => exact no_objection_owner_iff.mpr rfl
    case defined => exact no_objection_group_iff.mpr ⟨false, rfl, by decide⟩
    case stored => exact no_objection_group_iff.mpr ⟨true, rfl, by decide⟩
  exact ⟨judged, first, (judged.rejected _).mpr ⟨3, first⟩, judged.asked 3 _ first⟩

end Permission

end TokenLedger
