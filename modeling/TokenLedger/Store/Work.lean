import TokenLedger.Store

/-!
Writes as work on a store.

Work changes a store step by step, and where it breaks off the steps before stay made. Every write
looks at all that it needs before it changes anything, so one that fails leaves the store as it was
(`Store.attempt_of_error`).
-/

set_option autoImplicit false

namespace TokenLedger

/-- Work on a store, which may break off. -/
abbrev Work := ExceptT StoreError (StateM Store)

/-- What work came to, and the store that it left behind. -/
structure Attempt where
  result : Except StoreError Unit
  store : Store

/-- Put a store through work. -/
def Work.on (work : Work Unit) (store : Store) : Attempt :=
  let left := (work.run.run store).run
  ⟨left.1, left.2⟩

/-- Go on with more work, unless the work before broke off. -/
def Attempt.andThen (attempt : Attempt) (next : Work Unit) : Attempt :=
  match attempt.result with
  | .ok () => next.on attempt.store
  | .error _ => attempt

namespace Work

/-- Change the store if it is fit for the change, and else break off. -/
def guarded (fit : Store → Bool) (error : StoreError) (change : Store → Store) : Work Unit := do
  if fit (← get) then modify change else throw error

/-- Look through a batch, and break off at a token that is filed already or was seen before. -/
def lookThrough : List TokenKey → List Token → Work Unit
  | _, [] => return
  | seen, token :: rest => do
      if (← get).tokens.contains token.key || token.key ∈ seen then
        throw (.alreadyExists (Store.tokenLabel token.domain token.name))
      else lookThrough (token.key :: seen) rest

def fileAll (batch : List Token) : Work Unit :=
  batch.forM fun token => modify fun store => { store with tokens := store.tokens.insert token }

def handOver (domain name : Name) (owner : List PublicKey) : Work Unit := do
  match (← get).tokens.get? ⟨domain, name⟩ with
  | some token =>
      modify fun store => { store with tokens := store.tokens.insert { token with owner } }
  | none => throw (.notFound (Store.tokenLabel domain name))

end Work

/-- What is done to a store for a write. -/
def Write.work : Write → Work Unit
  | .addDomain domain =>
      .guarded (fun store => !store.domains.contains domain.name)
        (.alreadyExists (Store.domainLabel domain.name))
        fun store => { store with domains := store.domains.insert domain }
  | .updateDomain domain =>
      .guarded (fun store => store.domains.contains domain.name)
        (.notFound (Store.domainLabel domain.name))
        fun store => { store with domains := store.domains.insert domain }
  | .addGroup group =>
      .guarded (fun store => !store.groups.contains group.id)
        (.alreadyExists (Store.groupLabel group.id))
        fun store => { store with groups := store.groups.insert group }
  | .updateGroup group =>
      .guarded (fun store => store.groups.contains group.id)
        (.notFound (Store.groupLabel group.id))
        fun store => { store with groups := store.groups.insert group }
  | .issueTokens batch => do
      Work.lookThrough [] batch
      Work.fileAll batch
  | .transferToken domain name owner => .handOver domain name owner
  | .addAccount account =>
      .guarded (fun store => !store.accounts.contains account.name)
        (.alreadyExists (Store.accountLabel account.name))
        fun store => { store with accounts := store.accounts.insert account }
  | .updateAccount account =>
      .guarded (fun store => store.accounts.contains account.name)
        (.notFound (Store.accountLabel account.name))
        fun store => { store with accounts := store.accounts.insert account }

/-- Try a write on a store. -/
def Store.attempt (store : Store) (write : Write) : Attempt := write.work.on store

namespace Work

theorem on_get_bind (next : Store → Work Unit) (store : Store) :
    (get >>= next).on store = (next store).on store :=
  rfl

theorem on_bind (first next : Work Unit) (store : Store) :
    (first >>= fun _ => next).on store = (first.on store).andThen next := by
  change (⟨(ExceptT.bindCont (fun _ => next) (first store).1 (first store).2).1,
      (ExceptT.bindCont (fun _ => next) (first store).1 (first store).2).2⟩ : Attempt) =
    (⟨(first store).1, (first store).2⟩ : Attempt).andThen next
  rcases first store with ⟨error | ⟨⟩, after⟩ <;> rfl

theorem on_guarded (fit : Store → Bool) (error : StoreError) (change : Store → Store)
    (store : Store) :
    (guarded fit error change).on store =
      if fit store then ⟨.ok (), change store⟩ else ⟨.error error, store⟩ := by
  rw [guarded, on_get_bind]
  split <;> rfl

/-- Looking through a batch leaves the store alone, whatever is found. -/
theorem on_lookThrough (seen : List TokenKey) (batch : List Token) (store : Store) :
    (lookThrough seen batch).on store =
      ⟨(Store.collision? store.tokens seen batch).elim (.ok ()) fun token =>
        .error (.alreadyExists (Store.tokenLabel token.domain token.name)), store⟩ := by
  induction batch generalizing seen with
  | nil => rfl
  | cons token rest inductionHypothesis =>
      rw [lookThrough, on_get_bind, Store.collision?]
      split
      · rfl
      · exact inductionHypothesis (token.key :: seen)

theorem on_fileAll (batch : List Token) (store : Store) :
    (fileAll batch).on store =
      ⟨.ok (), { store with tokens := batch.foldl Table.insert store.tokens }⟩ := by
  induction batch generalizing store with
  | nil => rfl
  | cons token rest inductionHypothesis =>
      exact inductionHypothesis { store with tokens := store.tokens.insert token }

end Work

namespace Store

variable {store after : Store} {write : Write} {error : StoreError}

/-- A write comes to the same whether the store is changed step by step or another takes its
place. -/
theorem attempt_eq (store : Store) (write : Write) :
    store.attempt write =
      ⟨(store.perform write).map fun _ => (), (store.perform write).toOption.getD store⟩ := by
  cases write with
  | addDomain domain | updateDomain domain =>
      simp only [attempt, Write.work, Work.on_guarded, perform]
      cases store.domains.contains domain.name <;> rfl
  | addGroup group | updateGroup group =>
      simp only [attempt, Write.work, Work.on_guarded, perform]
      cases store.groups.contains group.id <;> rfl
  | issueTokens batch =>
      simp only [attempt, Write.work, Work.on_bind, Work.on_lookThrough, perform, issue]
      cases collision? store.tokens [] batch with
      | none => exact Work.on_fileAll batch store
      | some token => rfl
  | transferToken domain name owner =>
      simp only [attempt, Write.work, Work.handOver, Work.on_get_bind, perform]
      cases store.tokens.get? ⟨domain, name⟩ <;> rfl
  | addAccount account | updateAccount account =>
      simp only [attempt, Write.work, Work.on_guarded, perform]
      cases store.accounts.contains account.name <;> rfl

theorem attempt_of_ok (performed : store.perform write = .ok after) :
    store.attempt write = ⟨.ok (), after⟩ := by
  rw [attempt_eq, performed]
  rfl

/-- A write that fails leaves the store as it was. -/
theorem attempt_of_error (failed : store.perform write = .error error) :
    store.attempt write = ⟨.error error, store⟩ := by
  rw [attempt_eq, failed]
  rfl

end Store

end TokenLedger
