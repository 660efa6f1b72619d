import TokenLedger.Json.Actions
import TokenLedger.Json.Settings
import TokenLedger.Proofs.Instants
import TokenLedger.Proofs.Reading

/-!
Every value of the data model is read in the text that is written for it.

A form is lawful if what it writes is legible and read back by the form itself. Records are lawful
if their fields are, since the names of the fields differ.
-/

set_option autoImplicit false

namespace TokenLedger

open JsonForm (toJson ofJson? required orElse encode decode?)
open Json (isLegible_array isLegible_object isLegible_scalar isLegible_string)

/-- What the form writes is legible and read back. -/
class LawfulJsonForm (α : Type) [JsonForm α] : Prop where
  isLegible_toJson (a : α) : (toJson a).IsLegible
  ofJson?_toJson (a : α) : ofJson? (toJson a) = some a

open LawfulJsonForm (isLegible_toJson ofJson?_toJson)

namespace JsonForm

variable {α : Type} [JsonForm α] [LawfulJsonForm α]

attribute [simp] LawfulJsonForm.isLegible_toJson LawfulJsonForm.ofJson?_toJson

theorem decode?_encode (a : α) : decode? (encode a) = some a := by
  rw [decode?, encode, Json.read?_write (isLegible_toJson a)]
  exact ofJson?_toJson a

@[simp] theorem required_toJson (a : α) : required (some (toJson a)) = some a :=
  ofJson?_toJson a

@[simp] theorem orElse_toJson (default a : α) : orElse default (some (toJson a)) = some a :=
  ofJson?_toJson a

end JsonForm

namespace Json

/-- A name is found once among distinct names. -/
theorem filter_eq_singleton {members : List (String × Json)} {member : String × Json}
    (distinct : (members.map Prod.fst).Nodup) (mem : member ∈ members) :
    (members.filter fun other => other.1 = member.1) = [member] := by
  induction members with
  | nil => cases mem
  | cons head rest inductionHypothesis =>
      obtain ⟨fresh, others⟩ := List.nodup_cons.mp distinct
      rcases List.mem_cons.mp mem with rfl | later
      · have none : (rest.filter fun other => other.1 = member.1) = [] := by
          rw [List.filter_eq_nil_iff]
          intro other otherMem same
          exact fresh (List.mem_map.mpr ⟨other, otherMem, by simpa using same⟩)
        simp [none]
      · have other : head.1 ≠ member.1 := fun same =>
          fresh (same ▸ List.mem_map.mpr ⟨member, later, rfl⟩)
        simp [other, inductionHypothesis others later]

theorem fields?_cons {members : List (String × Json)} {member : String × Json}
    (distinct : (members.map Prod.fst).Nodup) (mem : member ∈ members) (names : List String) :
    (Json.object members).fields? (member.1 :: names) =
      ((Json.object members).fields? names).map (some member.2 :: ·) := by
  simp only [fields?, List.mapM_cons, filter_eq_singleton distinct mem]
  rw [Option.map_eq_bind]
  rfl

/-- The values of a record are found by the names they are written under. -/
theorem fields?_object {members asked : List (String × Json)}
    (distinct : (members.map Prod.fst).Nodup) (among : asked ⊆ members) :
    (Json.object members).fields? (asked.map Prod.fst) =
      some (asked.map fun member => some member.2) := by
  induction asked with
  | nil => rfl
  | cons member rest inductionHypothesis =>
      obtain ⟨mem, others⟩ := List.cons_subset.mp among
      rw [List.map_cons, fields?_cons distinct mem, inductionHypothesis others]
      rfl

/-- What is built from the fields of a record is built from the values it was written with. -/
theorem bind_fields?_object {α : Type} {names : List String} {members : List (String × Json)}
    (build : List (Option Json) → Option α) (same : members.map Prod.fst = names)
    (distinct : names.Nodup) :
    ((Json.object members).fields? names).bind build =
      build (members.map fun member => some member.2) := by
  subst same
  rw [fields?_object distinct (List.Subset.refl members)]
  rfl

end Json

section Values

instance : LawfulJsonForm String where
  isLegible_toJson := isLegible_string
  ofJson?_toJson _ := rfl

instance : LawfulJsonForm Name where
  isLegible_toJson name := isLegible_string name.text
  ofJson?_toJson _ := rfl

instance : LawfulJsonForm PublicKey where
  isLegible_toJson key := isLegible_string key.text
  ofJson?_toJson _ := rfl

instance : LawfulJsonForm GroupId where
  isLegible_toJson id := isLegible_string id.text
  ofJson?_toJson _ := rfl

instance : LawfulJsonForm Instant where
  isLegible_toJson _ := isLegible_string _
  ofJson?_toJson := Instant.ofString?_toString

instance : LawfulJsonForm Amount where
  isLegible_toJson amount := by
    have lower := amount.lower
    have upper := amount.upper
    exact isLegible_scalar.mpr (show amount.val.natAbs < 18446744073709551616 by omega)
  ofJson?_toJson := Amount.ofInt?_val

instance : LawfulJsonForm UInt32 where
  isLegible_toJson n := by
    have bound := n.toNat_lt
    exact isLegible_scalar.mpr (show (n.toNat : Int).natAbs < 18446744073709551616 by omega)
  ofJson?_toJson n := dif_pos n.toNat_lt

instance {α : Type} [JsonForm α] [LawfulJsonForm α] : LawfulJsonForm (List α) where
  isLegible_toJson items := isLegible_array (by simp)
  ofJson?_toJson items := by
    have read : (items.map toJson).mapM ofJson? = some items := by
      induction items with
      | nil => rfl
      | cons item rest inductionHypothesis => simp [inductionHypothesis]
    exact read

instance : LawfulJsonForm LogLevel where
  isLegible_toJson level := isLegible_string level.name
  ofJson?_toJson := LogLevel.ofName?_name

end Values

section Records

instance : LawfulJsonForm GroupWeight where
  isLegible_toJson member := isLegible_object (by simp)
  ofJson?_toJson member := (Json.bind_fields?_object _ rfl (by simp)).trans (by simp)

instance : LawfulJsonForm KeyWeight where
  isLegible_toJson member := isLegible_object (by simp)
  ofJson?_toJson member := (Json.bind_fields?_object _ rfl (by simp)).trans (by simp)

instance : LawfulJsonForm Permission where
  isLegible_toJson permission := isLegible_object (by simp)
  ofJson?_toJson permission := (Json.bind_fields?_object _ rfl (by simp)).trans (by simp)

instance : LawfulJsonForm Group where
  isLegible_toJson group := isLegible_object (by simp)
  ofJson?_toJson group := (Json.bind_fields?_object _ rfl (by simp)).trans (by simp)

instance : LawfulJsonForm Domain where
  isLegible_toJson domain := isLegible_object (by simp)
  ofJson?_toJson domain := (Json.bind_fields?_object _ rfl (by simp)).trans (by simp)

instance : LawfulJsonForm Token where
  isLegible_toJson token := isLegible_object (by simp)
  ofJson?_toJson token := (Json.bind_fields?_object _ rfl (by simp)).trans (by simp)

instance : LawfulJsonForm Account where
  isLegible_toJson account := isLegible_object (by simp)
  ofJson?_toJson account := (Json.bind_fields?_object _ rfl (by simp)).trans (by simp)

instance : LawfulJsonForm Config where
  isLegible_toJson config := isLegible_object (by simp)
  ofJson?_toJson config := (Json.bind_fields?_object _ rfl (by simp)).trans (by simp)

/-- A scope is read by the kind it is tagged with. -/
instance : LawfulJsonForm Scope where
  isLegible_toJson scope := by
    cases scope <;> exact isLegible_object (by simp)
  ofJson?_toJson scope := by
    cases scope <;> rfl

end Records

section Actions

/-- A permission is never written as null, so it is told from one that is left out. -/
instance : LawfulJsonForm (Option Permission) where
  isLegible_toJson
    | none => isLegible_scalar.mpr trivial
    | some permission => isLegible_toJson permission
  ofJson?_toJson
    | none => rfl
    | some permission => by
        have same : ofJson? (toJson (some permission)) =
            (ofJson? (toJson permission)).map (some : Permission → Option Permission) := rfl
        rw [same, ofJson?_toJson]
        rfl

instance : LawfulJsonForm NewDomain where
  isLegible_toJson action := isLegible_object (by simp)
  ofJson?_toJson action := (Json.bind_fields?_object _ rfl (by simp)).trans (by simp)

instance : LawfulJsonForm UpdateDomain where
  isLegible_toJson action := isLegible_object (by simp)
  ofJson?_toJson action := (Json.bind_fields?_object _ rfl (by simp)).trans (by simp)

instance : LawfulJsonForm IssueTokens where
  isLegible_toJson action := isLegible_object (by simp)
  ofJson?_toJson action := (Json.bind_fields?_object _ rfl (by simp)).trans (by simp)

instance : LawfulJsonForm TransferToken where
  isLegible_toJson action := isLegible_object (by simp)
  ofJson?_toJson action := (Json.bind_fields?_object _ rfl (by simp)).trans (by simp)

instance : LawfulJsonForm UpdateGroup where
  isLegible_toJson action := isLegible_object (by simp)
  ofJson?_toJson action := (Json.bind_fields?_object _ rfl (by simp)).trans (by simp)

instance : LawfulJsonForm NewAccount where
  isLegible_toJson action := isLegible_object (by simp)
  ofJson?_toJson action := (Json.bind_fields?_object _ rfl (by simp)).trans (by simp)

instance : LawfulJsonForm UpdateOwner where
  isLegible_toJson action := isLegible_object (by simp)
  ofJson?_toJson action := (Json.bind_fields?_object _ rfl (by simp)).trans (by simp)

instance : LawfulJsonForm TransferBalance where
  isLegible_toJson action := isLegible_object (by simp)
  ofJson?_toJson action := (Json.bind_fields?_object _ rfl (by simp)).trans (by simp)

theorem Action.isLegible_toJson (action : Action) : action.toJson.IsLegible := by
  cases action <;> exact LawfulJsonForm.isLegible_toJson _

theorem Action.ofJson?_toJson (action : Action) :
    Action.ofJson? action.toJson action.kind = some action := by
  cases action <;> simp [Action.toJson, Action.ofJson?, Action.kind]

theorem Action.decode?_encode (action : Action) :
    Action.decode? action.kind action.encode = some action := by
  rw [Action.decode?, Action.encode, Json.read?_write action.isLegible_toJson]
  exact action.ofJson?_toJson

end Actions

/-- Every value of the type is read in the text that is written for it. -/
def RoundTrips (α : Type) [JsonForm α] : Prop := ∀ a : α, decode? (encode a) = some a

/-- Decoding undoes encoding, whatever the value of whatever type of the data model. -/
theorem roundTrips :
    (RoundTrips Name ∧ RoundTrips PublicKey ∧ RoundTrips GroupId ∧ RoundTrips Amount ∧
      RoundTrips Instant) ∧
    (RoundTrips GroupWeight ∧ RoundTrips KeyWeight ∧ RoundTrips Permission ∧ RoundTrips Group ∧
      RoundTrips Domain ∧ RoundTrips Token ∧ RoundTrips Account) ∧
    (RoundTrips NewDomain ∧ RoundTrips UpdateDomain ∧ RoundTrips IssueTokens ∧
      RoundTrips TransferToken ∧ RoundTrips UpdateGroup ∧ RoundTrips NewAccount ∧
      RoundTrips UpdateOwner ∧ RoundTrips TransferBalance) ∧
    (∀ action : Action, Action.decode? action.kind action.encode = some action) ∧
    RoundTrips Scope ∧ RoundTrips LogLevel ∧ RoundTrips Config := by
  have lawful {α : Type} [JsonForm α] [LawfulJsonForm α] : RoundTrips α := JsonForm.decode?_encode
  exact ⟨⟨lawful, lawful, lawful, lawful, lawful⟩,
    ⟨lawful, lawful, lawful, lawful, lawful, lawful, lawful⟩,
    ⟨lawful, lawful, lawful, lawful, lawful, lawful, lawful, lawful⟩,
    Action.decode?_encode, lawful, lawful, lawful⟩

end TokenLedger
