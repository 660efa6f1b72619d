import TokenLedger.Proofs.Application

/-!
What a dry run of an action promises.

Checking an action and applying it come to the same, and what is applied is the plan that checking
came to (`Action.apply_of_dryRun`). A plan that is carried out files its records, each under its own
key, and changes nothing else (`Plan.CarriedOut`).
-/

set_option autoImplicit false

namespace TokenLedger

/-- What an entry is found under. -/
def Entry.key : Entry → RecordKey
  | .domain record => .domain record.name
  | .group record => .group record.id
  | .token record => .token record.key
  | .account record => .account record.name

/-- The entries are filed in the store, and the rest of it is as it was before. -/
structure Filed (before after : Store) (entries : List Entry) : Prop where
  filed : ∀ entry ∈ entries, after.lookup? entry.key = some entry
  kept : ∀ key, (∀ entry ∈ entries, entry.key ≠ key) → after.lookup? key = before.lookup? key

/-- The records of the plan are filed, and nothing else is changed. -/
def Plan.CarriedOut (before after : Store) : Plan → Prop
  | .newDomain domain groups | .updateDomain domain groups =>
      Filed before after (.domain domain :: groups.map .group)
  | .issueTokens tokens => Filed before after (tokens.map .token)
  | .transferToken domain name owner => ∃ token, before.tokens.get? ⟨domain, name⟩ = some token ∧
      Filed before after [.token { token with owner }]
  | .updateGroup group => Filed before after [.group group]
  | .newAccount account | .updateOwner account => Filed before after [.account account]
  | .transferBalance source target => Filed before after [.account source, .account target]

namespace Filed

variable {before middle after store : Store} {first second : List Entry}

theorem append (start : Filed before middle first) (rest : Filed middle after second)
    (apart : ∀ entry ∈ first, ∀ other ∈ second, other.key ≠ entry.key) :
    Filed before after (first ++ second) where
  filed entry member := by
    rcases List.mem_append.mp member with early | late
    · rw [rest.kept entry.key (apart entry early)]
      exact start.filed entry early
    · exact rest.filed entry late
  kept key others := by
    obtain ⟨early, late⟩ := List.forall_mem_append.mp others
    rw [rest.kept key late, start.kept key early]

theorem cons {entry : Entry} (start : Filed before middle [entry])
    (rest : Filed middle after second) (apart : ∀ other ∈ second, other.key ≠ entry.key) :
    Filed before after (entry :: second) :=
  start.append rest (by simpa using apart)

/-- A write that is about these entries changes nothing besides them. -/
theorem of_written {write : Write} {entries : List Entry}
    (about : write.keys = entries.map Entry.key)
    (filed : ∀ entry ∈ entries, (store.written write).lookup? entry.key = some entry) :
    Filed store (store.written write) entries where
  filed := filed
  kept key others := by
    apply store.lookup?_written
    rw [about]
    intro touched
    obtain ⟨entry, member, same⟩ := List.mem_map.mp touched
    exact others entry member same

theorem addDomain (store : Store) (domain : Domain) :
    Filed store (store.written (.addDomain domain)) [.domain domain] :=
  of_written rfl (by simp [Store.lookup?, Store.written, Entry.key])

theorem addGroup (store : Store) (group : Group) :
    Filed store (store.written (.addGroup group)) [.group group] :=
  of_written rfl (by simp [Store.lookup?, Store.written, Entry.key])

theorem addAccount (store : Store) (account : Account) :
    Filed store (store.written (.addAccount account)) [.account account] :=
  of_written rfl (by simp [Store.lookup?, Store.written, Entry.key])

theorem addGroups (store : Store) {groups : List Group} (distinct : (groups.map Group.id).Nodup) :
    Filed store (store.rewritten (groups.map .addGroup)) (groups.map .group) := by
  induction groups generalizing store with
  | nil => exact ⟨by simp, fun _ _ => rfl⟩
  | cons group rest inductionHypothesis =>
      obtain ⟨once, distinct⟩ := List.nodup_cons.mp distinct
      refine (addGroup store group).cons (inductionHypothesis _ distinct) ?_
      intro entry member same
      obtain ⟨other, listed, rfl⟩ := List.mem_map.mp member
      exact once (List.mem_map.mpr ⟨other, listed, RecordKey.group.inj same⟩)

theorem issueTokens (store : Store) {batch : List Token} (distinct : (batch.map Token.key).Nodup) :
    Filed store (store.written (.issueTokens batch)) (batch.map .token) := by
  apply of_written
  · simp [Write.keys, Entry.key]
  · intro entry member
    obtain ⟨token, listed, rfl⟩ := List.mem_map.mp member
    have found := store.tokens.get?_foldl_insert_of_mem distinct listed
    simp only [Store.lookup?, Store.written, Entry.key]
    rw [← key_token, found]
    rfl

theorem transferToken {domain name : Name} {token : Token} (owner : List PublicKey)
    (found : store.tokens.get? ⟨domain, name⟩ = some token) :
    Filed store (store.written (.transferToken domain name owner))
      [.token { token with owner }] := by
  have here : token.key = ⟨domain, name⟩ := Table.key_of_get? found
  apply of_written
  · simp [Write.keys, Entry.key, ← here, Token.key]
  · simp [Store.lookup?, Store.written, Entry.key, found, Token.key]

end Filed

section Plans

variable {context : Context} {action : Action} {store : Store} {plan : Plan}

theorem Plan.carriedOut_of_settle (settled : (action.plan context).settle store = .ok plan) :
    plan.CarriedOut store (store.rewritten plan.writes) := by
  have apart {domain : Domain} {groups : List Group} :
      ∀ other ∈ groups.map Entry.group, other.key ≠ (Entry.domain domain).key := by
    simp [Entry.key]
  cases action with
  | newDomain action =>
      obtain ⟨-, definitions, -, -, -, -, rfl⟩ := NewDomain.settle_plan_eq_ok_iff.mp settled
      have distinct := distinct_nil_left.mp (checkDefinitions_eq_ok_iff.mp definitions).2
      exact (Filed.addDomain store _).cons (.addGroups _ distinct) apart
  | updateDomain action =>
      obtain ⟨stored, -, definitions, -, -, -, rfl⟩ := UpdateDomain.settle_plan_eq_ok_iff.mp settled
      have distinct := distinct_nil_left.mp (checkDefinitions_eq_ok_iff.mp definitions).2
      exact (Filed.addDomain store _).cons (.addGroups _ distinct) apart
  | issueTokens action =>
      obtain ⟨-, -, -, -, rfl⟩ := IssueTokens.settle_plan_eq_ok_iff.mp settled
      obtain ⟨⟨-, distinct⟩, -⟩ := Action.acceptsAll_of_settle settled
      exact .issueTokens store distinct
  | transferToken action =>
      obtain ⟨issued, rfl⟩ := TransferToken.settle_plan_eq_ok_iff.mp settled
      obtain ⟨token, found⟩ := Table.contains_iff.mp issued
      exact ⟨token, found, .transferToken action.owner found⟩
  | updateGroup action =>
      obtain ⟨stored, -, -, -, rfl⟩ := UpdateGroup.settle_plan_eq_ok_iff.mp settled
      exact .addGroup store _
  | newAccount action =>
      obtain ⟨-, -, -, rfl⟩ := NewAccount.settle_plan_eq_ok_iff.mp settled
      exact .addAccount store _
  | updateOwner action =>
      obtain ⟨stored, -, -, rfl⟩ := UpdateOwner.settle_plan_eq_ok_iff.mp settled
      exact .addAccount store _
  | transferBalance action =>
      obtain ⟨source, target, debited, credited, moves, rfl⟩ :=
        TransferBalance.moves_of_settle settled
      refine (Filed.addAccount store debited).cons (.addAccount _ credited) ?_
      simp [Entry.key, moves.debited_name, moves.credited_name, moves.different.symm]

end Plans

/-- What an action comes to if it is only checked. -/
def Action.dryRun (context : Context) (action : Action) (store : Store) : Except Failure Plan :=
  ((action.validate context).run store NoFaults.mk).result

/-- Without faults an action succeeds just if its dry run does. The plan of the dry run has the
writes that are due for the action, and exactly this plan is carried out. Otherwise the failure is
reported, marked with the action. -/
theorem Action.apply_of_dryRun (context : Context) (action : Action) (store : Store) :
    ((action.apply context store NoFaults.mk).result = .ok () ↔
        ∃ plan, action.dryRun context store = .ok plan) ∧
      (∀ plan, action.dryRun context store = .ok plan →
        action.Sequence context store plan.writes ∧
          plan.CarriedOut store (action.apply context store NoFaults.mk).store) ∧
      ∀ failure, action.dryRun context store = .error failure →
        (action.apply context store NoFaults.mk).result =
          .error (failure.submittedAs ⟨action.kind.name, action.encode⟩) ∧
        (action.apply context store NoFaults.mk).store = store := by
  unfold dryRun
  rw [Check.result_run_noFaults]
  rcases action.apply_noFaults_cases context store with
    ⟨failure, settled, result, same⟩ | ⟨plan, settled, result, left⟩
  · rw [settled, result, same]
    refine ⟨by simp, by simp, ?_⟩
    intro other same
    cases same
    exact ⟨rfl, rfl⟩
  · rw [settled, result, left]
    refine ⟨by simp, ?_, by simp⟩
    intro other same
    cases same
    have planned := (settle_validate_eq_ok_iff.mp settled).2
    exact ⟨sequence_of_settle planned, Plan.carriedOut_of_settle planned⟩

end TokenLedger
