import Mathlib.Data.List.Forall2
import TokenLedger.LogLevel

/-!
Which texts mean a level, whatever the case of their letters.

Two texts are the same up to the case of ASCII letters if they are so character by character.
Putting a text in lower case by the rules of Unicode may turn a letter outside ASCII into one of
ASCII, but none of those is part of a word for a level, so such texts mean no level
(`LogLevel.ofWord?_lowercase`).
-/

set_option autoImplicit false

namespace TokenLedger

namespace Text

section Letters

variable {c : Char}

theorem isUpper_iff_val : c.isUpper = true ↔ 65 ≤ c.val ∧ c.val ≤ 90 :=
  decide_eq_true_iff

theorem isUpper_iff : c.isUpper = true ↔ 65 ≤ c.toNat ∧ c.toNat ≤ 90 := by
  simp [isUpper_iff_val, UInt32.le_iff_toNat_le, ← Char.toNat_val]

theorem toList_toLower (text : String) : text.toLower.toList = text.toList.map Char.toLower :=
  String.toList_map

theorem toNat_toLower (c : Char) :
    c.toLower.toNat = if c.isUpper then c.toNat + 32 else c.toNat := by
  unfold Char.toLower
  split
  case isTrue capital =>
    have upper : c.isUpper = true := isUpper_iff_val.mpr capital
    have range := isUpper_iff.mp upper
    rw [if_pos upper]
    simp only [← Char.toNat_val, UInt32.toNat_add] at range ⊢
    have shift : ('a'.val - 'A'.val).toNat = 32 := rfl
    omega
  case isFalse other =>
    have lower : c.isUpper = false := Bool.eq_false_iff.mpr (mt isUpper_iff_val.mp other)
    rw [lower]
    rfl

/-- Only letters of ASCII are put in lower case here. -/
theorem toLower_of_large (large : 128 ≤ c.toNat) : c.toLower = c := by
  have lower : c.isUpper = false := by
    rw [Bool.eq_false_iff]
    intro upper
    have range := isUpper_iff.mp upper
    omega
  apply Char.toNat_inj.mp
  rw [toNat_toLower, lower]
  rfl

end Letters

/-- The same character, or the same letter of ASCII in its two cases. -/
def SameButCase (a b : Char) : Prop :=
  a = b ∨ (a.isUpper = true ∧ b.toNat = a.toNat + 32) ∨ (b.isUpper = true ∧ a.toNat = b.toNat + 32)

theorem toLower_eq_iff {a b : Char} (lower : b.isUpper = false) :
    a.toLower = b ↔ SameButCase a b := by
  rw [← Char.toNat_inj, toNat_toLower, SameButCase, lower]
  cases upper : a.isUpper with
  | true =>
      have different : a ≠ b := fun same => by simp [same, lower] at upper
      simp [different, eq_comm]
  | false => simp [Char.toNat_inj]

theorem map_toLower_eq_iff {xs ys : List Char} (lower : ∀ c ∈ ys, c.isUpper = false) :
    xs.map Char.toLower = ys ↔ List.Forall₂ SameButCase xs ys := by
  induction xs generalizing ys with
  | nil => simp [eq_comm]
  | cons x xs inductionHypothesis =>
      cases ys with
      | nil => simp
      | cons y ys =>
          obtain ⟨first, others⟩ := List.forall_mem_cons.mp lower
          rw [List.map_cons, List.cons.injEq, List.forall₂_cons, toLower_eq_iff first,
            inductionHypothesis others]

/-- A way to put texts in lower case. What becomes of a character may depend on those before it, of
which the nearest comes first, and on those after it. Only two characters outside ASCII become
characters of ASCII: the Kelvin sign, and the capital I with a dot, which keeps its dot. -/
structure Lowercasing where
  lower (before : List Char) (c : Char) (after : List Char) : List Char
  ascii : ∀ before c after, c.toNat < 128 → lower before c after = [c.toLower]
  kelvin : ∀ before after, lower before '\u212a' after = ['k']
  dotted : ∀ before after, lower before '\u0130' after = ['i', '\u0307']
  other : ∀ before c after, 128 ≤ c.toNat → c ≠ '\u212a' → c ≠ '\u0130' →
    lower before c after ≠ [] ∧ ∀ d ∈ lower before c after, 128 ≤ d.toNat

namespace Lowercasing

/-- The rest of a text in lower case, after these characters. -/
def rest (casing : Lowercasing) (before : List Char) : List Char → List Char
  | [] => []
  | c :: after => casing.lower before c after ++ casing.rest (c :: before) after

/-- The text in lower case. -/
def lowercase (casing : Lowercasing) (text : String) : String :=
  .ofList (casing.rest [] text.toList)

/-- Letters outside ASCII are left as they are, but for the two that give letters of ASCII. -/
def plain : Lowercasing where
  lower _ c _ :=
    if c = '\u212a' then ['k'] else if c = '\u0130' then ['i', '\u0307'] else [c.toLower]
  ascii before c after small := by
    have noKelvin : c ≠ '\u212a' := fun same => absurd (same ▸ small) (by decide)
    have noDot : c ≠ '\u0130' := fun same => absurd (same ▸ small) (by decide)
    rw [if_neg noKelvin, if_neg noDot]
  kelvin _ _ := rfl
  dotted _ _ := rfl
  other before c after large noKelvin noDot := by
    rw [if_neg noKelvin, if_neg noDot, toLower_of_large large]
    exact ⟨List.cons_ne_nil c [], List.forall_mem_singleton.mpr large⟩

instance : Inhabited Lowercasing := ⟨plain⟩

variable (casing : Lowercasing)

theorem rest_of_ascii {before cs : List Char} (ascii : ∀ c ∈ cs, c.toNat < 128) :
    casing.rest before cs = cs.map Char.toLower := by
  induction cs generalizing before with
  | nil => rfl
  | cons c after inductionHypothesis =>
      obtain ⟨first, others⟩ := List.forall_mem_cons.mp ascii
      rw [rest, casing.ascii before c after first, inductionHypothesis others]
      rfl

/-- A character outside ASCII leaves its mark. -/
theorem exists_mem_lower {c : Char} (large : 128 ≤ c.toNat) (before after : List Char) :
    ∃ d ∈ casing.lower before c after, 128 ≤ d.toNat ∨ d = 'k' := by
  by_cases kelvin : c = '\u212a'
  · rw [kelvin, casing.kelvin]
    exact ⟨'k', List.mem_cons_self, .inr rfl⟩
  by_cases dotted : c = '\u0130'
  · rw [dotted, casing.dotted]
    exact ⟨'\u0307', by simp, .inl (by decide)⟩
  obtain ⟨some, outside⟩ := casing.other before c after large kelvin dotted
  obtain ⟨d, listed⟩ := List.exists_mem_of_ne_nil _ some
  exact ⟨d, listed, .inl (outside d listed)⟩

theorem exists_mem_rest (before : List Char) {cs : List Char} {c : Char} (member : c ∈ cs)
    (large : 128 ≤ c.toNat) : ∃ d ∈ casing.rest before cs, 128 ≤ d.toNat ∨ d = 'k' := by
  induction cs generalizing before with
  | nil => exact absurd member List.not_mem_nil
  | cons first after inductionHypothesis =>
      rw [rest]
      rcases List.mem_cons.mp member with rfl | later
      · obtain ⟨d, listed, marked⟩ := casing.exists_mem_lower large before after
        exact ⟨d, List.mem_append_left _ listed, marked⟩
      · obtain ⟨d, listed, marked⟩ := inductionHypothesis (first :: before) later
        exact ⟨d, List.mem_append_right _ listed, marked⟩

end Lowercasing

end Text

namespace LogLevel

variable {level : LogLevel} {word text : String}

/-- The words for a level, in lower case. -/
def words : LogLevel → List String
  | .warn => ["warn", "warning"]
  | level => [level.name]

/-- The text is a word for the level, in any case of its letters. -/
def IsMeantBy (level : LogLevel) (text : String) : Prop :=
  ∃ word ∈ level.words, List.Forall₂ Text.SameButCase text.toList word.toList

theorem ofWord?_eq_some_iff : ofWord? word = some level ↔ word ∈ level.words := by
  unfold ofWord?
  split
  case isTrue same =>
    subst same
    cases level <;> decide
  case isFalse other =>
    constructor
    · intro found
      have named : level.name = word := by simpa using List.find?_some found
      cases level <;> simp_all [words, name]
    · intro listed
      cases level <;> simp_all [words, name] <;> rfl

/-- The words are of small letters of ASCII, and none has a k. -/
theorem plain_of_mem_words (listed : word ∈ level.words) :
    ∀ c ∈ word.toList, c.isUpper = false ∧ c.toNat < 128 ∧ c ≠ 'k' := by
  have plain : level.words.all fun word => word.toList.all fun c =>
      !c.isUpper && c.toNat < 128 && c != 'k' := by
    cases level <;> decide
  simpa [and_assoc] using List.all_eq_true.mp (List.all_eq_true.mp plain word listed)

theorem parse?_eq_some_iff : parse? text = some level ↔ level.IsMeantBy text := by
  rw [parse?, ofWord?_eq_some_iff]
  constructor
  · intro listed
    refine ⟨_, listed, (Text.map_toLower_eq_iff fun c member => ?_).mp ?_⟩
    · exact (plain_of_mem_words listed c member).1
    · rw [Text.toList_toLower]
  · rintro ⟨word, listed, alike⟩
    have same := (Text.map_toLower_eq_iff fun c member =>
      (plain_of_mem_words listed c member).1).mpr alike
    rw [← Text.toList_toLower] at same
    rw [String.toList_inj.mp same]
    exact listed

theorem ofWord?_eq_none_of_mem {c : Char} (member : c ∈ word.toList)
    (foreign : 128 ≤ c.toNat ∨ c = 'k') : ofWord? word = none := by
  rw [Option.eq_none_iff_forall_not_mem]
  intro level found
  obtain ⟨-, small, noK⟩ := plain_of_mem_words (ofWord?_eq_some_iff.mp found) c member
  rcases foreign with large | k
  · omega
  · exact noK k

/-- A text with a character outside ASCII means no level, however it is put in lower case. -/
theorem ofWord?_lowercase_of_large (casing : Text.Lowercasing) {c : Char} (member : c ∈ text.toList)
    (large : 128 ≤ c.toNat) : ofWord? (casing.lowercase text) = none := by
  obtain ⟨d, listed, marked⟩ := casing.exists_mem_rest [] member large
  refine ofWord?_eq_none_of_mem ?_ marked
  rwa [Text.Lowercasing.lowercase, String.toList_ofList]

theorem parse?_of_large {c : Char} (member : c ∈ text.toList) (large : 128 ≤ c.toNat) :
    parse? text = none := by
  refine ofWord?_eq_none_of_mem ?_ (.inl large)
  rw [Text.toList_toLower]
  exact List.mem_map.mpr ⟨c, member, Text.toLower_of_large large⟩

/-- Levels are read the same whether all letters or only those of ASCII are put in lower case. -/
theorem ofWord?_lowercase (casing : Text.Lowercasing) (text : String) :
    ofWord? (casing.lowercase text) = parse? text := by
  by_cases ascii : ∀ c ∈ text.toList, c.toNat < 128
  · have same : casing.lowercase text = text.toLower := by
      apply String.toList_inj.mp
      rw [Text.Lowercasing.lowercase, String.toList_ofList, casing.rest_of_ascii ascii,
        Text.toList_toLower]
    rw [same, parse?]
  · simp only [Classical.not_forall, Nat.not_lt] at ascii
    obtain ⟨c, member, large⟩ := ascii
    rw [ofWord?_lowercase_of_large casing member large, parse?_of_large member large]

end LogLevel

end TokenLedger
