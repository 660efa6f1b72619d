import TokenLedger.Scope

/-!
Scopes that are shown alike.

A scope is shown as a pair of texts, and names are chosen freely. So a domain may bear one of the
words for the other kinds of scope, and a token the name of a permission. These are the only scopes
that the pair confuses (`Scope.Collides`). A set of authorized scopes holds the scopes themselves
and confuses none (`Scope.pair_collides_iff`).
-/

set_option autoImplicit false

namespace TokenLedger

/-- The kinds of scope that are shown by a word of their own, in place of the name of a domain. -/
inductive WordKind where
  | domain
  | group
  | account
  deriving DecidableEq, Repr

namespace WordKind

def word : WordKind → String
  | .domain => "domain"
  | .group => "group"
  | .account => "account"

/-- The scope of that kind for what the text names. -/
def scope : WordKind → String → Scope
  | .domain, text => .newDomain ⟨text⟩
  | .group, text => .group ⟨text⟩
  | .account, text => .account ⟨text⟩

variable (kind : WordKind) (text : String)

@[simp] theorem kind_scope : (kind.scope text).kind = kind.word := by
  cases kind <;> rfl

@[simp] theorem key_scope : (kind.scope text).key = text := by
  cases kind <;> rfl

theorem word_injective {kind other : WordKind} (same : kind.word = other.word) : kind = other := by
  cases kind <;> cases other <;> simp_all [word]

end WordKind

namespace Scope

/-- The scopes within a domain. -/
inductive Within (domain : Name) : Scope → Prop where
  | issue : Within domain (.domainIssue domain)
  | manage : Within domain (.domainManage domain)
  | token (name : Name) : Within domain (.token domain name)

/-- Two scopes that differ and are shown alike. A scope with a word of its own comes first, and a
token last. -/
inductive Collides : Scope → Scope → Prop where
  | issueToken (domain : Name) : Collides (.domainIssue domain) (.token domain ⟨"issue"⟩)
  | manageToken (domain : Name) : Collides (.domainManage domain) (.token domain ⟨"manage"⟩)
  | wordToken (kind : WordKind) (text : String) :
      Collides (kind.scope text) (.token ⟨kind.word⟩ ⟨text⟩)
  | wordIssue (kind : WordKind) : Collides (kind.scope "issue") (.domainIssue ⟨kind.word⟩)
  | wordManage (kind : WordKind) : Collides (kind.scope "manage") (.domainManage ⟨kind.word⟩)

/-- The domain does not bear the word for another kind, nor the token the name of a permission. -/
def Plain : Scope → Prop
  | .domainIssue domain | .domainManage domain => domain.text ∉ ["domain", "group", "account"]
  | .token domain name =>
      domain.text ∉ ["domain", "group", "account"] ∧ name.text ∉ ["issue", "manage"]
  | .newDomain _ | .group _ | .account _ => True

variable {a b : Scope} {domain : Name}

theorem worded_or_within (scope : Scope) :
    (∃ kind text, scope = WordKind.scope kind text) ∨ ∃ domain, scope.Within domain := by
  cases scope with
  | newDomain name => exact .inl ⟨.domain, name.text, rfl⟩
  | group id => exact .inl ⟨.group, id.text, rfl⟩
  | account name => exact .inl ⟨.account, name.text, rfl⟩
  | domainIssue domain => exact .inr ⟨domain, .issue⟩
  | domainManage domain => exact .inr ⟨domain, .manage⟩
  | token domain name => exact .inr ⟨domain, .token name⟩

theorem Within.kind (within : a.Within domain) : a.kind = domain.text := by
  cases within <;> rfl

theorem collides_of_worded {kind : WordKind} {text : String} (within : b.Within domain)
    (kinds : kind.word = domain.text) (keys : text = b.key) : (kind.scope text).Collides b := by
  obtain rfl : domain = ⟨kind.word⟩ := Name.ext kinds.symm
  cases within with
  | issue =>
      obtain rfl : text = "issue" := keys
      exact .wordIssue kind
  | manage =>
      obtain rfl : text = "manage" := keys
      exact .wordManage kind
  | token name =>
      obtain rfl : name = ⟨text⟩ := Name.ext keys.symm
      exact .wordToken kind text

theorem eq_or_collides_of_within (first : a.Within domain) (second : b.Within domain)
    (keys : a.key = b.key) : a = b ∨ a.Collides b ∨ b.Collides a := by
  cases first with
  | issue =>
      cases second with
      | issue => exact .inl rfl
      | manage => simp [key, Slot.name] at keys
      | token name =>
          obtain rfl : name = ⟨"issue"⟩ := Name.ext keys.symm
          exact .inr (.inl (.issueToken domain))
  | manage =>
      cases second with
      | issue => simp [key, Slot.name] at keys
      | manage => exact .inl rfl
      | token name =>
          obtain rfl : name = ⟨"manage"⟩ := Name.ext keys.symm
          exact .inr (.inl (.manageToken domain))
  | token name =>
      cases second with
      | issue =>
          obtain rfl : name = ⟨"issue"⟩ := Name.ext keys
          exact .inr (.inr (.issueToken domain))
      | manage =>
          obtain rfl : name = ⟨"manage"⟩ := Name.ext keys
          exact .inr (.inr (.manageToken domain))
      | token other =>
          obtain rfl : name = other := Name.ext keys
          exact .inl rfl

theorem eq_or_collides (kinds : a.kind = b.kind) (keys : a.key = b.key) :
    a = b ∨ a.Collides b ∨ b.Collides a := by
  rcases a.worded_or_within with ⟨kind, text, rfl⟩ | ⟨domain, first⟩
  · rcases b.worded_or_within with ⟨other, text', rfl⟩ | ⟨domain, second⟩
    · rw [WordKind.kind_scope, WordKind.kind_scope] at kinds
      rw [WordKind.key_scope, WordKind.key_scope] at keys
      exact .inl (by rw [WordKind.word_injective kinds, keys])
    · rw [WordKind.kind_scope, second.kind] at kinds
      rw [WordKind.key_scope] at keys
      exact .inr (.inl (collides_of_worded second kinds keys))
  · rcases b.worded_or_within with ⟨other, text', rfl⟩ | ⟨domain', second⟩
    · rw [WordKind.kind_scope, first.kind] at kinds
      rw [WordKind.key_scope] at keys
      exact .inr (.inr (collides_of_worded first kinds.symm keys.symm))
    · rw [first.kind, second.kind] at kinds
      obtain rfl : domain = domain' := Name.ext kinds
      exact eq_or_collides_of_within first second keys

namespace Collides

theorem shown (collides : a.Collides b) : a.kind = b.kind ∧ a.key = b.key := by
  cases collides with
  | issueToken domain | manageToken domain => exact ⟨rfl, rfl⟩
  | wordToken kind text => exact ⟨kind.kind_scope text, kind.key_scope text⟩
  | wordIssue kind | wordManage kind => exact ⟨kind.kind_scope _, kind.key_scope _⟩

theorem not_plain (collides : a.Collides b) : ¬b.Plain := by
  cases collides with
  | issueToken domain | manageToken domain => simp [Plain]
  | wordToken kind text => cases kind <;> simp [Plain, WordKind.word]
  | wordIssue kind | wordManage kind => cases kind <;> simp [Plain, WordKind.word]

end Collides

end Scope

theorem AuthorizedScopes.contains_foldl_insert (authorized : AuthorizedScopes)
    (inserted : List Scope) (scope : Scope) :
    (inserted.foldl insert authorized).contains scope = true ↔
      scope ∈ inserted ∨ authorized.contains scope = true := by
  induction inserted generalizing authorized with
  | nil => simp
  | cons first rest inductionHypothesis =>
      rw [List.foldl_cons, inductionHypothesis, contains_insert, List.mem_cons, Bool.or_eq_true,
        decide_eq_true_eq, or_left_comm, or_assoc]

/-- The pair that shows a scope tells which it is but for the collisions, so it tells all plain
scopes apart. A set of authorized scopes tells apart all scopes: it holds just what was inserted. -/
theorem Scope.pair_collides_iff :
    (∀ a b : Scope, (a.kind, a.key) = (b.kind, b.key) ↔ a = b ∨ a.Collides b ∨ b.Collides a) ∧
      (∀ a b : Scope, a.Plain → b.Plain → (a.kind, a.key) = (b.kind, b.key) → a = b) ∧
      ∀ (inserted : List Scope) (scope : Scope),
        (inserted.foldl AuthorizedScopes.insert .none).contains scope = true ↔
          scope ∈ inserted := by
  refine ⟨fun a b => ?_, fun a b plain plain' shown => ?_, fun inserted scope => ?_⟩
  · rw [Prod.mk.injEq]
    constructor
    · rintro ⟨kinds, keys⟩
      exact eq_or_collides kinds keys
    · rintro (rfl | collides | collides)
      · exact ⟨rfl, rfl⟩
      · exact collides.shown
      · exact ⟨collides.shown.1.symm, collides.shown.2.symm⟩
  · obtain ⟨kinds, keys⟩ := Prod.mk.inj shown
    rcases eq_or_collides kinds keys with same | collides | collides
    · exact same
    · exact absurd plain' collides.not_plain
    · exact absurd plain collides.not_plain
  · rw [AuthorizedScopes.contains_foldl_insert, AuthorizedScopes.contains_none]
    simp

end TokenLedger
