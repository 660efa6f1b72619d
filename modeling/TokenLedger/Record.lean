import TokenLedger.Amount
import TokenLedger.Group
import TokenLedger.Instant
import TokenLedger.Permission

/-!
The records of the ledger besides groups: domains, their tokens, and accounts.
-/

set_option autoImplicit false

namespace TokenLedger

structure Domain where
  name : Name
  issuer : PublicKey
  issueTime : Instant
  issue : Permission
  transfer : Permission
  manage : Permission
  deriving DecidableEq, Repr

namespace Domain

def permission (domain : Domain) : Slot → Permission
  | .issue => domain.issue
  | .transfer => domain.transfer
  | .manage => domain.manage

def withPermission (domain : Domain) (permission : Permission) : Slot → Domain
  | .issue => { domain with issue := permission }
  | .transfer => { domain with transfer := permission }
  | .manage => { domain with manage := permission }

end Domain

/-- A token, one of its kind within its domain. -/
structure Token where
  domain : Name
  name : Name
  owner : List PublicKey
  deriving DecidableEq, Repr

/-- What identifies a token. Tokens are ordered by domain and then by name. -/
structure TokenKey where
  domain : Name
  name : Name
  deriving DecidableEq, Repr

structure Account where
  name : Name
  creator : Name
  createTime : Instant
  balance : Amount
  frozenBalance : Amount
  owner : List PublicKey
  deriving DecidableEq, Repr

namespace TokenKey

instance : LT TokenKey :=
  ⟨fun a b => a.domain < b.domain ∨ a.domain = b.domain ∧ a.name < b.name⟩

instance : LE TokenKey :=
  ⟨fun a b => a.domain < b.domain ∨ a.domain = b.domain ∧ a.name ≤ b.name⟩

instance : DecidableLT TokenKey := fun a b =>
  inferInstanceAs (Decidable (a.domain < b.domain ∨ a.domain = b.domain ∧ a.name < b.name))

theorem lt_iff {a b : TokenKey} :
    a < b ↔ a.domain < b.domain ∨ a.domain = b.domain ∧ a.name < b.name := Iff.rfl

theorem le_iff {a b : TokenKey} :
    a ≤ b ↔ a.domain < b.domain ∨ a.domain = b.domain ∧ a.name ≤ b.name := Iff.rfl

instance : Std.IsLinearOrder TokenKey where
  le_refl a := .inr ⟨rfl, Std.IsPreorder.le_refl _⟩
  le_trans a b c ab bc := by
    rcases ab with ab | ⟨ab, names⟩ <;> rcases bc with bc | ⟨bc, names'⟩
    · exact .inl (Std.lt_trans ab bc)
    · exact .inl (bc ▸ ab)
    · exact .inl (ab ▸ bc)
    · exact .inr ⟨ab.trans bc, Std.IsPreorder.le_trans _ _ _ names names'⟩
  le_antisymm a b ab ba := by
    cases a; cases b
    rcases ab with ab | ⟨ab, names⟩ <;> rcases ba with ba | ⟨ba, names'⟩
    · exact absurd (Std.lt_trans ab ba) Std.lt_irrefl
    · exact absurd (ba ▸ ab) Std.lt_irrefl
    · exact absurd (ab ▸ ba) Std.lt_irrefl
    · cases ab
      cases Std.IsPartialOrder.le_antisymm _ _ names names'
      rfl
  le_total a b := by
    rcases Std.lt_trichotomy a.domain b.domain with less | same | greater
    · exact .inl (.inl less)
    · exact (Std.IsLinearPreorder.le_total a.name b.name).imp
        (fun names => .inr ⟨same, names⟩) fun names => .inr ⟨same.symm, names⟩
    · exact .inr (.inl greater)

instance : Std.LawfulOrderLT TokenKey := ⟨fun a b => by
  constructor
  · rintro (domains | ⟨domains, names⟩)
    · refine ⟨.inl domains, ?_⟩
      rintro (greater | ⟨same, _⟩)
      · exact Std.lt_irrefl (Std.lt_trans domains greater)
      · exact Std.lt_irrefl (same ▸ domains)
    · have split := (Std.LawfulOrderLT.lt_iff _ _).mp names
      refine ⟨.inr ⟨domains, split.1⟩, ?_⟩
      rintro (greater | ⟨_, notNames⟩)
      · exact Std.lt_irrefl (domains ▸ greater)
      · exact split.2 notNames
  · rintro ⟨domains | ⟨domains, names⟩, notGreater⟩
    · exact .inl domains
    · refine .inr ⟨domains, (Std.LawfulOrderLT.lt_iff _ _).mpr ⟨names, fun greater => ?_⟩⟩
      exact notGreater (.inr ⟨domains.symm, greater⟩)⟩

end TokenKey

def Token.key (token : Token) : TokenKey := ⟨token.domain, token.name⟩

end TokenLedger
