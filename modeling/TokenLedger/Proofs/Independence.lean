import TokenLedger.Proofs.Questions
import TokenLedger.Proofs.Succession

/-!
Independent actions commute.

An action depends on the entries of its targets and on the presence of the records that it consults
(`Action.apply_congr_of_agrees`), and it changes nothing but its targets. So of two actions with
different targets neither notices the other, unless one adds a record that the other consults.
In particular an update of a group is not noticed by actions that refer to the group: what they
consult is whether the group is there, not its keys.
-/

set_option autoImplicit false

namespace TokenLedger

namespace Action

/-- The records that an action is to add. -/
def creates : Action → List RecordKey
  | .newDomain action => .domain action.name :: action.groups.map fun group => .group group.id
  | .updateDomain action => action.groups.map fun group => .group group.id
  | .issueTokens action => action.names.map fun name => .token ⟨action.domain, name⟩
  | .newAccount action => [.account action.name]
  | .transferToken _ | .updateGroup _ | .updateOwner _ | .transferBalance _ => []

/-- The actions have no target in common, and neither adds a record that the other consults. As only
domains and groups are consulted, the tokens and accounts that are added stand in nobody's way. -/
structure Independent (first second : Action) : Prop where
  targets : ∀ key ∈ first.targets, key ∉ second.targets
  firstCreates : ∀ key ∈ first.creates, key ∉ second.consults
  secondCreates : ∀ key ∈ second.creates, key ∉ first.consults

theorem independent_iff {first second : Action} : first.Independent second ↔
    (∀ key ∈ first.targets, key ∉ second.targets) ∧
      (∀ key ∈ first.creates, key ∉ second.consults) ∧
        ∀ key ∈ second.creates, key ∉ first.consults :=
  ⟨fun ⟨targets, first, second⟩ => ⟨targets, first, second⟩,
    fun ⟨targets, first, second⟩ => ⟨targets, first, second⟩⟩

instance (first second : Action) : Decidable (first.Independent second) :=
  decidable_of_iff _ independent_iff.symm

theorem Independent.symm {first second : Action} (independent : first.Independent second) :
    second.Independent first where
  targets key target shared := independent.targets key shared target
  firstCreates := independent.secondCreates
  secondCreates := independent.firstCreates

/-- The stores are the same as far as the action can tell. -/
structure Agrees (action : Action) (store other : Store) : Prop where
  targets : ∀ key ∈ action.targets, store.lookup? key = other.lookup? key
  consults : ∀ key ∈ action.consults,
    (store.lookup? key).isSome = (other.lookup? key).isSome

/-- Whichever of the actions comes first, each comes to the same, and so does the store. -/
structure Commutes (context : Context) (store : Store) (first second : Action) : Prop where
  firstResult :
    (first.apply context (second.apply context store NoFaults.mk).store NoFaults.mk).result =
      (first.apply context store NoFaults.mk).result
  secondResult :
    (second.apply context (first.apply context store NoFaults.mk).store NoFaults.mk).result =
      (second.apply context store NoFaults.mk).result
  sameStore :
    (second.apply context (first.apply context store NoFaults.mk).store NoFaults.mk).store =
      (first.apply context (second.apply context store NoFaults.mk).store NoFaults.mk).store

end Action

section Agreement

variable {store other : Store} {key : RecordKey}

theorem Table.get?_foldl_insert_congr {α κ : Type} [Keyed α κ] [LT κ] [LE κ]
    [Std.IsLinearOrder κ] [Std.LawfulOrderLT κ] [DecidableLT κ] [DecidableEq κ]
    {table other : Table α} {k : κ} (same : table.get? k = other.get? k) (batch : List α) :
    (batch.foldl insert table).get? k = (batch.foldl insert other).get? k := by
  induction batch generalizing table other with
  | nil => exact same
  | cons record rest inductionHypothesis =>
      apply inductionHypothesis
      simp only [get?_insert, same]

namespace Store

/-- Stores with the same entries are the same. -/
theorem ext_lookup? (agree : ∀ key, store.lookup? key = other.lookup? key) : store = other := by
  apply ext_get?
  · exact fun name => lookup?_domain_congr.mp (agree (.domain name))
  · exact fun id => lookup?_group_congr.mp (agree (.group id))
  · exact fun key => lookup?_token_congr.mp (agree (.token key))
  · exact fun name => lookup?_account_congr.mp (agree (.account name))

theorem ask_congr {query : Query} (same : store.lookup? query.key = other.lookup? query.key) :
    store.ask query = other.ask query := by
  cases query with
  | existsDomain name | readDomain name =>
      simp only [ask, Table.contains, lookup?_domain_congr.mp same]
  | existsGroup id | readGroup id =>
      simp only [ask, Table.contains, lookup?_group_congr.mp same]
  | existsToken domain name | readToken domain name =>
      simp only [ask, Table.contains, lookup?_token_congr.mp same]
  | existsAccount name | readAccount name =>
      simp only [ask, Table.contains, lookup?_account_congr.mp same]

theorem ask_presence_congr (same : (store.lookup? key).isSome = (other.lookup? key).isSome) :
    store.ask key.presence = other.ask key.presence := by
  cases key <;> simpa [lookup?, ask, RecordKey.presence, Table.contains] using same

/-- What a write leaves under a key depends on nothing but what was there. -/
theorem lookup?_written_congr (same : store.lookup? key = other.lookup? key) (write : Write) :
    (store.written write).lookup? key = (other.written write).lookup? key := by
  by_cases touched : key ∈ write.keys
  case neg => rw [store.lookup?_written touched, other.lookup?_written touched, same]
  cases write with
  | addDomain | updateDomain | addGroup | updateGroup | addAccount | updateAccount =>
      cases List.mem_singleton.mp touched
      simp [lookup?, written]
  | issueTokens batch =>
      obtain ⟨token, -, rfl⟩ := List.mem_map.mp touched
      have tokens := lookup?_token_congr.mp same
      exact lookup?_token_congr.mpr (Table.get?_foldl_insert_congr tokens batch)
  | transferToken domain name owner =>
      cases List.mem_singleton.mp touched
      have same : store.tokens.get? ⟨domain, name⟩ = other.tokens.get? ⟨domain, name⟩ :=
        lookup?_token_congr.mp same
      simp only [written, same]
      cases other.tokens.get? ⟨domain, name⟩ with
      | none => exact lookup?_token_congr.mpr same
      | some token => simp [lookup?, same]

theorem lookup?_rewritten_congr (same : store.lookup? key = other.lookup? key)
    (writes : List Write) :
    (store.rewritten writes).lookup? key = (other.rewritten writes).lookup? key := by
  induction writes generalizing store other with
  | nil => exact same
  | cons write rest inductionHypothesis =>
      exact inductionHypothesis (lookup?_written_congr same write)

end Store

end Agreement

namespace Action

variable {context : Context} {action first second : Action} {store other : Store}

theorem settle_congr_of_agrees (context : Context) (agrees : action.Agrees store other) :
    (action.validate context).settle store = (action.validate context).settle other := by
  refine Check.settle_congr (action.asksOnly_validate context) ?_
  rintro query (target | ⟨key, consulted, rfl⟩)
  · exact Store.ask_congr (agrees.targets query.key target)
  · exact Store.ask_presence_congr (agrees.consults key consulted)

/-- In stores that agree an action comes to the same, and it leaves the same under each key under
which the stores are the same. -/
theorem apply_congr_of_agrees (context : Context) (agrees : action.Agrees store other) :
    (action.apply context store NoFaults.mk).result =
        (action.apply context other NoFaults.mk).result ∧
      ∀ key, store.lookup? key = other.lookup? key →
        (action.apply context store NoFaults.mk).store.lookup? key =
          (action.apply context other NoFaults.mk).store.lookup? key := by
  have settled := settle_congr_of_agrees context agrees
  rcases action.apply_noFaults_cases context store with
    ⟨failure, failed, result, same⟩ | ⟨plan, planned, result, left⟩
  all_goals
    rcases action.apply_noFaults_cases context other with
      ⟨failure', failed', result', same'⟩ | ⟨plan', planned', result', left'⟩
  · cases Except.error.inj (failed.symm.trans (settled.trans failed'))
    exact ⟨result.trans result'.symm, fun key => by rw [same, same']; exact id⟩
  · exact nomatch failed.symm.trans (settled.trans planned')
  · exact nomatch planned.symm.trans (settled.trans failed')
  · cases Except.ok.inj (planned.symm.trans (settled.trans planned'))
    refine ⟨result.trans result'.symm, fun key agree => ?_⟩
    rw [left, left']
    exact Store.lookup?_rewritten_congr agree plan.writes

theorem Adds.key_mem_creates {entry : Entry} (adds : action.Adds context entry) :
    entry.key ∈ action.creates := by
  cases adds with
  | domain action => exact List.mem_cons_self
  | groupOfNew action defined => exact List.mem_cons_of_mem _ (List.mem_map.mpr ⟨_, defined, rfl⟩)
  | groupOfUpdate action defined => exact List.mem_map.mpr ⟨_, defined, rfl⟩
  | token action listed _ => exact List.mem_map.mpr ⟨_, listed, rfl⟩
  | account action => exact List.mem_singleton_self _

/-- An action neither adds nor removes a record that it is not to add. -/
theorem isSome_lookup?_apply_of_not_mem {key : RecordKey} (uncreated : key ∉ action.creates) :
    ((action.apply context store NoFaults.mk).store.lookup? key).isSome =
      (store.lookup? key).isSome := by
  rcases action.apply_successions context store with ⟨-, same⟩ | ⟨-, -, successions⟩
  · rw [same]
  · cases successions key with
    | kept same => rw [same]
    | added _ there adds =>
        exact absurd (Store.key_of_lookup? there ▸ adds.key_mem_creates) uncreated
    | revised found there _ => rw [found, there, Option.isSome_some, Option.isSome_some]

/-- An action does not notice one that it is independent of. -/
theorem Independent.agrees (independent : first.Independent second) (context : Context)
    (store : Store) : first.Agrees (second.apply context store NoFaults.mk).store store where
  targets key target := lookup?_apply context store NoFaults.mk (independent.targets key target)
  consults key consulted := by
    apply isSome_lookup?_apply_of_not_mem
    intro created
    exact independent.secondCreates key created consulted

theorem Independent.commutes (independent : first.Independent second) (context : Context)
    (store : Store) : Commutes context store first second := by
  have ⟨firstResult, firstEntries⟩ :=
    apply_congr_of_agrees context (independent.agrees context store)
  have ⟨secondResult, secondEntries⟩ :=
    apply_congr_of_agrees context (independent.symm.agrees context store)
  refine ⟨firstResult, secondResult, Store.ext_lookup? fun key => ?_⟩
  by_cases target : key ∈ first.targets
  · -- The second action touches the entry in neither order.
    have untouched := independent.targets key target
    rw [lookup?_apply context _ _ untouched,
      firstEntries key (lookup?_apply context store _ untouched)]
  · rw [lookup?_apply context _ _ target,
      secondEntries key (lookup?_apply context store _ target)]

/-- An update of a group is independent of every action that neither updates nor defines it. -/
theorem independent_updateGroup {update : UpdateGroup} (other : .group update.id ∉ action.targets) :
    (Action.updateGroup update).Independent action where
  targets key target := by
    cases List.mem_singleton.mp target
    exact other
  firstCreates := nofun
  secondCreates := fun _ _ => List.not_mem_nil

/-- Independent actions come to the same in either order, failures included, and leave the same
store. An update of a group commutes even with the actions that refer to the group. -/
theorem apply_comm (context : Context) (store : Store) :
    (∀ first second : Action, first.Independent second → Commutes context store first second) ∧
      ∀ (update : UpdateGroup) (action : Action), .group update.id ∉ action.targets →
        Commutes context store (.updateGroup update) action := by
  refine ⟨fun first second independent => independent.commutes context store, ?_⟩
  intro update action other
  exact (independent_updateGroup other).commutes context store

theorem apply_comm_of_reference :
    let noon : Instant := ⟨⟨2018, 5, 1, by decide⟩, 12, 0, 0, 0⟩
    let context : Context := ⟨fun _ => true, noon, .standard⟩
    let permission (name : String) : Permission := ⟨⟨name⟩, 1, [⟨⟨"g"⟩, 1⟩]⟩
    let store := Store.empty.written (.addGroup ⟨⟨"g"⟩, ⟨"k"⟩, 1, [⟨⟨"k"⟩, 1⟩]⟩)
    let update : Action := .updateGroup ⟨⟨"g"⟩, 2, [⟨⟨"k"⟩, 2⟩]⟩
    let creation : Action := .newDomain
      ⟨⟨"d"⟩, ⟨"k"⟩, permission "issue", permission "transfer", permission "manage", []⟩
    (update.apply context store NoFaults.mk).result = .ok () ∧
      (creation.apply context store NoFaults.mk).result = .ok () ∧
      update.Independent creation ∧ Commutes context store update creation := by
  intro noon context permission store update creation
  have independent : update.Independent creation := by decide
  exact ⟨rfl, rfl, independent, (apply_comm context store).1 update creation independent⟩

end Action

end TokenLedger
