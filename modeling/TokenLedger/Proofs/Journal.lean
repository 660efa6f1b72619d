import TokenLedger.Proofs.DryRun
import TokenLedger.Proofs.Maps
import TokenLedger.Proofs.Succession

/-!
Sessions: any calls to a store, from when it was empty.

A journal lists the writes that went through since the store was last cleared. What the store
answers is read off the journal: under each key there is what the latest filing left there, and a
token has the owner of the latest transfer since (`IsLatest`). At the same time the store answers as
four maps do that are told the keys (`Session.serves_maps`).
-/

set_option autoImplicit false

namespace TokenLedger

section Entries

/-- The records that a write files whole. -/
def Write.entries : Write → List Entry
  | .addDomain domain | .updateDomain domain => [.domain domain]
  | .addGroup group | .updateGroup group => [.group group]
  | .issueTokens batch => batch.map .token
  | .transferToken _ _ _ => []
  | .addAccount account | .updateAccount account => [.account account]

/-- The owner that a write hands the record under a key to. -/
def Write.newOwner? (key : RecordKey) : Write → Option (List PublicKey)
  | .transferToken domain name owner => if key = .token ⟨domain, name⟩ then some owner else none
  | _ => none

/-- The write is to add records, and not to replace or to change them. -/
def Write.adds : Write → Bool
  | .addDomain _ | .addGroup _ | .issueTokens _ | .addAccount _ => true
  | .updateDomain _ | .updateGroup _ | .transferToken _ _ _ | .updateAccount _ => false

/-- The entry, with a new owner if it is a token and there is one. -/
def Entry.handedTo : Entry → Option (List PublicKey) → Entry
  | .token issued, some owner => .token { issued with owner }
  | entry, _ => entry

@[simp] theorem Entry.handedTo_none (entry : Entry) : entry.handedTo none = entry := by
  cases entry <;> rfl

theorem Entry.handedTo_handedTo (entry : Entry) (first second : Option (List PublicKey)) :
    (entry.handedTo first).handedTo second = entry.handedTo (second <|> first) := by
  cases second with
  | none => simp
  | some owner => cases entry <;> cases first <;> rfl

variable {store : Store} {write : Write} {key : RecordKey}

/-- The entry is what the latest filing left under the key. A token has the owner of the latest
transfer after that. The latest write comes first in the journal. -/
def IsLatest (journal : List Write) (key : RecordKey) (entry : Entry) : Prop :=
  ∃ later filing earlier filed, journal = later ++ filing :: earlier ∧
    filed ∈ filing.entries ∧ filed.key = key ∧
    (∀ write ∈ later, ∀ other ∈ write.entries, other.key ≠ key) ∧
    entry = filed.handedTo (later.findSome? (Write.newOwner? key))

theorem Store.lookup?_written_of_filed (accepted : store.Accepts write) {entry : Entry}
    (filed : entry ∈ write.entries) : (store.written write).lookup? entry.key = some entry := by
  cases write with
  | addDomain domain | updateDomain domain => exact (Filed.addDomain store domain).filed entry filed
  | addGroup group | updateGroup group => exact (Filed.addGroup store group).filed entry filed
  | issueTokens batch => exact (Filed.issueTokens store accepted.2).filed entry filed
  | transferToken domain name owner => exact absurd filed List.not_mem_nil
  | addAccount account | updateAccount account =>
      exact (Filed.addAccount store account).filed entry filed

/-- What a write does not file it leaves alone, but for the owner of a token that it transfers. -/
theorem Store.lookup?_written_of_not_filed (store : Store)
    (others : ∀ entry ∈ write.entries, entry.key ≠ key) :
    (store.written write).lookup? key =
      (store.lookup? key).map fun entry => entry.handedTo (Write.newOwner? key write) := by
  by_cases touched : key ∈ write.keys
  case neg =>
    rw [store.lookup?_written touched]
    cases write with
    | transferToken domain name owner =>
        have elsewhere : key ≠ .token ⟨domain, name⟩ := by simpa [Write.keys] using touched
        simp [Write.newOwner?, elsewhere]
    | _ => simp [Write.newOwner?]
  cases write with
  | addDomain domain | updateDomain domain | addGroup group | updateGroup group
  | addAccount account | updateAccount account =>
      cases List.mem_singleton.mp touched
      exact absurd rfl (others _ (List.mem_singleton_self _))
  | issueTokens batch =>
      obtain ⟨token, member, rfl⟩ := List.mem_map.mp touched
      exact absurd rfl (others _ (List.mem_map.mpr ⟨token, member, rfl⟩))
  | transferToken domain name owner =>
      cases List.mem_singleton.mp touched
      cases found : store.tokens.get? ⟨domain, name⟩ with
      | none => simp [lookup?, written, found]
      | some token =>
          have here : token.key = ⟨domain, name⟩ := Table.key_of_get? found
          have there := (Filed.transferToken owner found).filed _ (List.mem_singleton_self _)
          have same : (Entry.token { token with owner }).key = .token ⟨domain, name⟩ :=
            congrArg RecordKey.token here
          rw [same] at there
          rw [there]
          simp [lookup?, found, Write.newOwner?, Entry.handedTo]

theorem isLatest_cons_iff {journal : List Write} {entry : Entry} :
    IsLatest (write :: journal) key entry ↔
      (entry ∈ write.entries ∧ entry.key = key) ∨
        (∀ other ∈ write.entries, other.key ≠ key) ∧
          ∃ before, IsLatest journal key before ∧
            entry = before.handedTo (Write.newOwner? key write) := by
  constructor
  · rintro ⟨later, filing, earlier, filed, split, member, named, others, rfl⟩
    cases later with
    | nil =>
        cases split
        simp only [List.findSome?_nil, Entry.handedTo_none]
        exact .inl ⟨member, named⟩
    | cons last later =>
        obtain ⟨rfl, rfl⟩ := List.cons.inj split
        obtain ⟨first, others⟩ := List.forall_mem_cons.mp others
        refine .inr ⟨first, _, ⟨later, filing, earlier, filed, rfl, member, named, others, rfl⟩, ?_⟩
        rw [Entry.handedTo_handedTo, List.findSome?_cons]
        cases Write.newOwner? key write <;> rfl
  · rintro (⟨member, named⟩ |
      ⟨first, _, ⟨later, filing, earlier, filed, rfl, member, named, others, rfl⟩, rfl⟩)
    · exact ⟨[], write, journal, entry, rfl, member, named, by simp, by simp⟩
    · refine ⟨write :: later, filing, earlier, filed, rfl, member, named,
        List.forall_mem_cons.mpr ⟨first, others⟩, ?_⟩
      rw [Entry.handedTo_handedTo, List.findSome?_cons]
      cases Write.newOwner? key write <;> rfl

/-- A write that goes through is the latest in the journal from then on. -/
theorem Store.isLatest_written {journal : List Write} (accepted : store.Accepts write)
    (before : ∀ key entry, store.lookup? key = some entry ↔ IsLatest journal key entry)
    (key : RecordKey) (entry : Entry) :
    (store.written write).lookup? key = some entry ↔ IsLatest (write :: journal) key entry := by
  rw [isLatest_cons_iff]
  by_cases touched : ∃ filed ∈ write.entries, filed.key = key
  · obtain ⟨filed, member, rfl⟩ := touched
    have there := lookup?_written_of_filed accepted member
    constructor
    · intro found
      cases Option.some.inj (there.symm.trans found)
      exact .inl ⟨member, rfl⟩
    · rintro (⟨listed, named⟩ | ⟨others, -⟩)
      · rw [← named]
        exact lookup?_written_of_filed accepted listed
      · exact absurd rfl (others filed member)
  · have others : ∀ filed ∈ write.entries, filed.key ≠ key :=
      fun filed member named => touched ⟨filed, member, named⟩
    rw [store.lookup?_written_of_not_filed others, Option.map_eq_some_iff]
    constructor
    · rintro ⟨stored, found, rfl⟩
      exact .inr ⟨others, stored, (before key stored).mp found, rfl⟩
    · rintro (⟨member, named⟩ | ⟨-, stored, latest, rfl⟩)
      · exact absurd named (others entry member)
      · exact ⟨stored, (before key stored).mpr latest, rfl⟩

end Entries

namespace Store

/-- Whether there is such a record, as the store answers it. -/
def present (store : Store) : RecordKey → Except StoreError Bool
  | .domain name => store.ask (.existsDomain name)
  | .group id => store.ask (.existsGroup id)
  | .token key => store.ask (.existsToken key.domain key.name)
  | .account name => store.ask (.existsAccount name)

/-- The record, as the store reads it. -/
def read (store : Store) : RecordKey → Except StoreError Entry
  | .domain name => (store.ask (.readDomain name)).map .domain
  | .group id => (store.ask (.readGroup id)).map .group
  | .token key => (store.ask (.readToken key.domain key.name)).map .token
  | .account name => (store.ask (.readAccount name)).map .account

variable {store : Store} {key : RecordKey}

theorem present_eq (store : Store) (key : RecordKey) :
    store.present key = .ok (store.lookup? key).isSome := by
  cases key <;> simp [present, ask, lookup?, Table.contains]

theorem map_found_eq_ok_iff {α β : Type} {label : String} {record? : Option α} {wrap : α → β}
    {result : β} :
    (found label record?).map wrap = .ok result ↔ record?.map wrap = some result := by
  cases record? <;> simp [found, Except.map]

theorem read_eq_ok_iff {entry : Entry} :
    store.read key = .ok entry ↔ store.lookup? key = some entry := by
  cases key <;> exact map_found_eq_ok_iff

theorem read_congr {other : Store} (same : store.lookup? key = other.lookup? key) :
    store.read key = other.read key := by
  cases key with
  | domain name => simp only [read, ask, lookup?_domain_congr.mp same]
  | group id => simp only [read, ask, lookup?_group_congr.mp same]
  | token key => simp only [read, ask, lookup?_token_congr.mp same]
  | account name => simp only [read, ask, lookup?_account_congr.mp same]

/-- A write that adds goes through if all its records are missing and come once each, and any other
write if its records are there. -/
theorem accepts_iff {write : Write} :
    store.Accepts write ↔
      if write.adds then write.keys.Nodup ∧ ∀ key ∈ write.keys, store.present key = .ok false
      else ∀ key ∈ write.keys, store.present key = .ok true := by
  cases write with
  | addDomain | updateDomain | addGroup | updateGroup | addAccount | updateAccount =>
      simp [Accepts, Write.adds, Write.keys, present, ask]
  | transferToken => simp [Accepts, Write.adds, Write.keys, present, ask]
  | issueTokens batch =>
      have keys : (Write.issueTokens batch).keys = (batch.map Token.key).map .token := by
        simp [Write.keys]
      rw [keys, List.nodup_map_iff fun _ _ => RecordKey.token.inj]
      simp [Accepts, Write.adds, present, ask, and_comm]

theorem key_of_read {entry : Entry} (found : store.read key = .ok entry) : entry.key = key :=
  key_of_lookup? (read_eq_ok_iff.mp found)

end Store

/-- What may come to a store: a call, or the order to forget everything. -/
inductive Request where
  | call (call : Call)
  | clear
  deriving DecidableEq, Repr

/-- A store, and the writes that went through since it was last cleared, the latest first. -/
structure Session where
  store : Store
  journal : List Write

namespace Session

def start : Session := ⟨.empty, []⟩

/-- A write that goes through is entered in the journal, and one that fails is not. The store is the
one that the write left. -/
def write (session : Session) (write : Write) : Session :=
  let attempt := session.store.attempt write
  match attempt.result with
  | .ok () => ⟨attempt.store, write :: session.journal⟩
  | .error _ => ⟨attempt.store, session.journal⟩

def handle (session : Session) : Request → Session
  | .call (.ask _) => session
  | .call (.perform write) => session.write write
  | .clear => start

/-- The session after these requests. -/
def after (requests : List Request) : Session := requests.foldl handle start

end Session

namespace Maps

def write (maps : Maps) (write : Write) : Maps :=
  match maps.perform write with
  | .ok maps => maps
  | .error _ => maps

def handle (maps : Maps) : Request → Maps
  | .call (.ask _) => maps
  | .call (.perform write) => maps.write write
  | .clear => empty

/-- The maps after these requests. -/
def after (requests : List Request) : Maps := requests.foldl handle empty

/-- What a map holds under a key. -/
def lookup? (maps : Maps) : RecordKey → Option Entry
  | .domain name => (maps.domains.lookup name).map .domain
  | .group id => (maps.groups.lookup id).map .group
  | .token key => (maps.tokens.lookup key).map .token
  | .account name => (maps.accounts.lookup name).map .account

end Maps

theorem Store.Matches.lookup? {store : Store} {maps : Maps} (same : store.Matches maps)
    (key : RecordKey) : maps.lookup? key = store.lookup? key := by
  cases key with
  | domain name => simp only [Maps.lookup?, Store.lookup?, same.domains name]
  | group id => simp only [Maps.lookup?, Store.lookup?, same.groups id]
  | token key => simp only [Maps.lookup?, Store.lookup?, same.tokens key]
  | account name => simp only [Maps.lookup?, Store.lookup?, same.accounts name]

namespace Session

/-- The store is what the maps hold and what the journal tells. -/
structure Sound (session : Session) (maps : Maps) : Prop where
  matching : session.store.Matches maps
  latest : ∀ key entry, session.store.lookup? key = some entry ↔ IsLatest session.journal key entry

variable {session : Session} {maps : Maps}

theorem Sound.start : start.Sound .empty where
  matching := .empty
  latest key entry := by
    constructor
    · intro found
      cases key <;> exact nomatch found
    · rintro ⟨later, filing, earlier, filed, split, -⟩
      simp [Session.start] at split

theorem write_of_ok {write : Write} {after : Store}
    (performed : session.store.perform write = .ok after) :
    session.write write = ⟨after, write :: session.journal⟩ := by
  simp only [Session.write, Store.attempt_of_ok performed]

theorem write_of_error {write : Write} {error : StoreError}
    (failed : session.store.perform write = .error error) : session.write write = session := by
  simp only [Session.write, Store.attempt_of_error failed]

theorem Sound.write (sound : session.Sound maps) (write : Write) :
    (session.write write).Sound (maps.write write) := by
  have alike := sound.matching.perform write
  unfold Maps.write
  generalize maps.perform write = answer at alike ⊢
  cases performed : session.store.perform write with
  | error error =>
      rw [performed] at alike
      rw [write_of_error performed]
      cases alike
      exact sound
  | ok after =>
      rw [performed] at alike
      rw [write_of_ok performed]
      cases alike with
      | ok matching =>
          obtain ⟨accepted, rfl⟩ := Store.perform_eq_ok_iff.mp performed
          exact ⟨matching, Store.isLatest_written accepted sound.latest⟩

theorem sound_after (requests : List Request) : (after requests).Sound (.after requests) := by
  induction requests using List.reverseRecOn with
  | nil => exact .start
  | append_singleton earlier request inductionHypothesis =>
      simp only [after, Maps.after, List.foldl_append, List.foldl_cons, List.foldl_nil]
      cases request with
      | clear => exact .start
      | call call =>
          cases call with
          | ask query => exact inductionHypothesis
          | perform write => exact inductionHypothesis.write write

/-- What a store answers in a session, call by call. -/
structure Serves (session : Session) (maps : Maps) : Prop where
  asked : ∀ query, session.store.ask query = maps.ask query
  performed : ∀ write, Alike Store.Matches (session.store.perform write) (maps.perform write)
  /-- Each record is filed under the key that it carries. -/
  ownKey : ∀ key entry, maps.lookup? key = some entry → entry.key = key
  present : ∀ key, session.store.present key = .ok true ∨ session.store.present key = .ok false
  present_iff : ∀ key, session.store.present key = .ok true ↔
    ∃ entry, session.store.read key = .ok entry
  read_key : ∀ key entry, session.store.read key = .ok entry → entry.key = key
  read_iff : ∀ key entry, session.store.read key = .ok entry ↔
    IsLatest session.journal key entry
  adds : ∀ write, write.adds = true → ((∃ after, session.store.perform write = .ok after) ↔
    write.keys.Nodup ∧ ∀ key ∈ write.keys, session.store.present key = .ok false)
  replaces : ∀ write, write.adds = false → ((∃ after, session.store.perform write = .ok after) ↔
    ∀ key ∈ write.keys, session.store.present key = .ok true)
  goesThrough : ∀ write after, session.store.perform write = .ok after →
    session.store.attempt write = ⟨.ok (), after⟩
  /-- A call that fails changes nothing, and so does one that only asks. -/
  fails : ∀ write error, session.store.perform write = .error error →
    session.store.attempt write = ⟨.error error, session.store⟩ ∧
      session.handle (.call (.perform write)) = session
  asks : ∀ query, session.handle (.call (.ask query)) = session
  /-- A call changes nothing but the entries under its own keys. -/
  elsewhere : ∀ write, ∀ key ∉ write.keys,
    (session.handle (.call (.perform write))).store.read key = session.store.read key

theorem lookup?_write (session : Session) {write : Write} {key : RecordKey}
    (other : key ∉ write.keys) :
    (session.write write).store.lookup? key = session.store.lookup? key := by
  cases performed : session.store.perform write with
  | error error => rw [write_of_error performed]
  | ok after =>
      rw [write_of_ok performed]
      obtain ⟨-, rfl⟩ := Store.perform_eq_ok_iff.mp performed
      exact session.store.lookup?_written other

/-- Whatever is asked of a store that was empty at first, it serves as four finite maps that are
told the keys, and it remembers what was written last. -/
theorem serves_maps (requests : List Request) : (after requests).Serves (.after requests) := by
  have sound := sound_after requests
  generalize after requests = session at sound ⊢
  generalize Maps.after requests = maps at sound ⊢
  constructor
  case asked => exact sound.matching.ask
  case performed => exact sound.matching.perform
  case ownKey =>
    intro key entry found
    rw [sound.matching.lookup?] at found
    exact Store.key_of_lookup? found
  case present =>
    intro key
    rw [Store.present_eq]
    cases session.store.lookup? key <;> simp
  case present_iff =>
    intro key
    simp only [Store.present_eq, Store.read_eq_ok_iff, Except.ok.injEq, Option.isSome_iff_exists]
  case read_key => exact fun key entry found => Store.key_of_read found
  case read_iff =>
    intro key entry
    rw [Store.read_eq_ok_iff, sound.latest]
  case adds =>
    intro write adds
    simp [Store.perform_eq_ok_iff, Store.accepts_iff, adds]
  case replaces =>
    intro write replaces
    simp [Store.perform_eq_ok_iff, Store.accepts_iff, replaces]
  case goesThrough => exact fun write after performed => Store.attempt_of_ok performed
  case fails =>
    intro write error failed
    exact ⟨Store.attempt_of_error failed, write_of_error failed⟩
  case asks => exact fun query => rfl
  case elsewhere =>
    intro write key other
    exact Store.read_congr (session.lookup?_write other)

end Session

end TokenLedger
