import Mathlib.Data.Nat.Digits.Defs
import Mathlib.Order.Fin.Basic
import TokenLedger.Proofs.Listings
import TokenLedger.Proofs.Resolution

/-!
Identifiers of groups as numbers.

The identifier that a key gives is a numeral: thirty-two digits of hexadecimal for the number of
128 bits that the first half of the key's digest is. Two numerals with equally many digits are in
the order of the numbers, because the first digits that differ decide both, and because the
characters of the digits are in the order of the digits although other characters stand between
the last decimal digit and the first letter (`GroupId.ofKey_ranked`).
-/

set_option autoImplicit false

namespace TokenLedger

namespace Text

/-- The number that digits amount to, the first of which counts most. -/
def placeValue {base : Nat} (digits : List (Fin base)) : Nat :=
  -- `Nat.ofDigits` takes the digit that counts least first.
  Nat.ofDigits base (digits.map Fin.val).reverse

section PlaceValue

variable {base : Nat} {xs ys : List (Fin base)}

theorem placeValue_cons (x : Fin base) (xs : List (Fin base)) :
    placeValue (x :: xs) = placeValue xs + base ^ xs.length * x := by
  rw [placeValue, List.map_cons, Nat.ofDigits_reverse_cons, List.length_map, placeValue]

theorem lt_base_of_mem (digits : List (Fin base)) :
    ∀ d ∈ (digits.map Fin.val).reverse, d < base := by
  simp

theorem placeValue_lt (proper : 1 < base) (digits : List (Fin base)) :
    placeValue digits < base ^ digits.length := by
  have bound := Nat.ofDigits_lt_base_pow_length proper (lt_base_of_mem digits)
  rwa [List.length_reverse, List.length_map] at bound

/-- The first digits decide where they differ, whatever comes after them. -/
theorem placeValue_cons_lt_cons (proper : 1 < base) {x y : Fin base}
    (sameLength : xs.length = ys.length) (less : x < y) :
    placeValue (x :: xs) < placeValue (y :: ys) :=
  calc
    placeValue (x :: xs) = placeValue xs + base ^ xs.length * x := placeValue_cons x xs
    _ < base ^ xs.length + base ^ xs.length * x :=
      Nat.add_lt_add_right (placeValue_lt proper xs) _
    _ = base ^ xs.length * (x + 1) := by ring
    _ ≤ base ^ xs.length * y := Nat.mul_le_mul_left _ less
    _ = base ^ ys.length * y := by rw [sameLength]
    _ ≤ placeValue ys + base ^ ys.length * y := Nat.le_add_left _ _
    _ = placeValue (y :: ys) := (placeValue_cons y ys).symm

theorem placeValue_lt_iff (proper : 1 < base) (sameLength : xs.length = ys.length) :
    placeValue xs < placeValue ys ↔ xs < ys := by
  induction xs generalizing ys with
  | nil =>
      obtain rfl := List.eq_nil_of_length_eq_zero sameLength.symm
      simp
  | cons x xs inductionHypothesis =>
      cases ys with
      | nil => simp at sameLength
      | cons y ys =>
          have others : xs.length = ys.length := by simpa using sameLength
          rw [List.cons_lt_cons_iff, ← inductionHypothesis others]
          -- Only where the first digits agree do the others matter.
          rcases lt_trichotomy x y with less | rfl | greater
          · simp [less, placeValue_cons_lt_cons proper others less]
          · simp [placeValue_cons, others]
          · have reversed := placeValue_cons_lt_cons proper others.symm greater
            simp [greater.not_gt, greater.ne', reversed.not_gt]

theorem placeValue_inj (proper : 1 < base) (sameLength : xs.length = ys.length)
    (same : placeValue xs = placeValue ys) : xs = ys := by
  have reversed := Nat.ofDigits_inj_of_len_eq proper (by simpa using sameLength)
    (lt_base_of_mem xs) (lt_base_of_mem ys) same
  exact List.map_injective_iff.mpr Fin.val_injective (List.reverse_injective reversed)

end PlaceValue

namespace Hex

variable {cs ds : List Char} {m n : Nat}

/-- The characters of digits. -/
def numeral (digits : List (Fin 16)) : List Char := digits.map fun d => digit d.val

/-- The characters are digits in lower case, which amount to the number. -/
def Denotes (cs : List Char) (n : Nat) : Prop :=
  ∃ digits : List (Fin 16), cs = numeral digits ∧ placeValue digits = n

theorem isLower_digit : ∀ d : Fin 16,
    (digit d).isDigit = true ∨ ('a' ≤ digit d ∧ digit d ≤ 'f') := by
  decide

theorem digit_lt_digit_iff : ∀ {c d : Fin 16}, digit c < digit d ↔ c < d := by
  decide

theorem digit_inj : ∀ {c d : Fin 16}, digit c = digit d ↔ c = d := by
  decide

@[simp] theorem length_numeral (digits : List (Fin 16)) :
    (numeral digits).length = digits.length :=
  List.length_map _

theorem numeral_lt_iff {xs ys : List (Fin 16)} : numeral xs < numeral ys ↔ xs < ys := by
  unfold numeral
  induction xs generalizing ys with
  | nil => cases ys <;> simp
  | cons x xs inductionHypothesis =>
      cases ys with
      | nil => simp
      | cons y ys =>
          simp only [List.map_cons, List.cons_lt_cons_iff, digit_lt_digit_iff, digit_inj,
            inductionHypothesis]

theorem Denotes.isLower (denote : Denotes cs n) :
    ∀ c ∈ cs, c.isDigit = true ∨ ('a' ≤ c ∧ c ≤ 'f') := by
  obtain ⟨digits, rfl, -⟩ := denote
  exact List.forall_mem_map.mpr fun d _ => isLower_digit d

/-- Numerals with equally many digits are in the order of what they denote. -/
theorem Denotes.lt_iff (first : Denotes cs m) (second : Denotes ds n)
    (sameLength : cs.length = ds.length) : cs < ds ↔ m < n := by
  obtain ⟨xs, rfl, rfl⟩ := first
  obtain ⟨ys, rfl, rfl⟩ := second
  rw [numeral_lt_iff, placeValue_lt_iff (by decide) (by simpa using sameLength)]

theorem Denotes.unique (first : Denotes cs m) (second : Denotes cs n) : m = n := by
  have notLess : ¬m < n := fun less => List.lt_irrefl cs ((first.lt_iff second rfl).mpr less)
  have notGreater : ¬n < m := fun less => List.lt_irrefl cs ((second.lt_iff first rfl).mpr less)
  omega

/-- The two digits of a byte. -/
def halves (b : UInt8) : List (Fin 16) :=
  [⟨b.toNat / 16, by have bound := b.toNat_lt; omega⟩, ⟨b.toNat % 16, by omega⟩]

theorem bytes_eq_numeral (bs : List UInt8) : bytes bs = numeral (bs.flatMap halves) := by
  rw [bytes, numeral, List.map_flatMap]
  rfl

theorem length_flatMap_halves (bs : List UInt8) : (bs.flatMap halves).length = 2 * bs.length := by
  rw [← length_bytes, bytes_eq_numeral, length_numeral]

/-- A byte is one digit to the base of 256, and two to the base of sixteen. -/
theorem placeValue_halves (bs : List UInt8) :
    placeValue (bs.flatMap halves) = placeValue (bs.map UInt8.toFin) := by
  induction bs with
  | nil => rfl
  | cons b rest inductionHypothesis =>
      have size : 16 ^ (2 * rest.length) = 256 ^ rest.length := Nat.pow_mul 16 2 rest.length
      have byte : 16 * (b.toNat / 16) + b.toNat % 16 = b.toNat := Nat.div_add_mod b.toNat 16
      calc
        placeValue ((b :: rest).flatMap halves) =
            placeValue (rest.flatMap halves) + 16 ^ (2 * rest.length) * (b.toNat % 16) +
              16 ^ (2 * rest.length + 1) * (b.toNat / 16) := by
          simp only [List.flatMap_cons, halves, List.cons_append, List.nil_append, placeValue_cons,
            List.length_cons, length_flatMap_halves]
        _ = placeValue (rest.flatMap halves) +
              16 ^ (2 * rest.length) * (16 * (b.toNat / 16) + b.toNat % 16) := by ring
        _ = placeValue (rest.map UInt8.toFin) + 256 ^ rest.length * b.toNat := by
          rw [inductionHypothesis, size, byte]
        _ = placeValue ((b :: rest).map UInt8.toFin) := by
          rw [List.map_cons, placeValue_cons, List.length_map]
          rfl

theorem denotes_bytes (bs : List UInt8) : Denotes (bytes bs) (placeValue (bs.map UInt8.toFin)) :=
  ⟨bs.flatMap halves, bytes_eq_numeral bs, placeValue_halves bs⟩

end Hex

end Text

namespace PublicKey

/-- The digest of the key as a text. -/
def digest (key : PublicKey) : List UInt8 :=
  Digest.Sha256.digest key.text.toByteArray.data.toList

/-- The first sixteen bytes of the key's digest as one number, the first of which counts most. -/
def number (key : PublicKey) : Nat :=
  Text.placeValue ((key.digest.take 16).map UInt8.toFin)

theorem length_take_digest (key : PublicKey) : (key.digest.take 16).length = 16 := by
  simp [digest]

theorem number_lt (key : PublicKey) : key.number < 2 ^ 128 := by
  have bound := Text.placeValue_lt (by decide) ((key.digest.take 16).map UInt8.toFin)
  rwa [List.length_map, length_take_digest] at bound

theorem number_inj {a b : PublicKey} :
    a.number = b.number ↔ a.digest.take 16 = b.digest.take 16 := by
  constructor
  · intro same
    have sameLength : ((a.digest.take 16).map UInt8.toFin).length =
        ((b.digest.take 16).map UInt8.toFin).length := by
      rw [List.length_map, List.length_map, length_take_digest, length_take_digest]
    have digits := Text.placeValue_inj (by decide) sameLength same
    exact List.map_injective_iff.mpr (fun _ _ => UInt8.toFin_inj.mp) digits
  · intro same
    rw [number, number, same]

end PublicKey

namespace GroupId

/-- The identifier is a numeral of thirty-two digits for the number, in lower-case hexadecimal. -/
structure IsNumeral (id : GroupId) (number : Nat) : Prop where
  length : id.text.length = 32
  lowercase : ∀ c ∈ id.text.toList, c.isDigit = true ∨ ('a' ≤ c ∧ c ≤ 'f')
  denotes : Text.Hex.Denotes id.text.toList number

variable {a b : GroupId} {m n : Nat}

theorem ofKey_eq (key : PublicKey) :
    ofKey key = ⟨String.ofList (Text.Hex.bytes (key.digest.take 16))⟩ :=
  rfl

theorem isNumeral_ofKey (key : PublicKey) : (ofKey key).IsNumeral key.number := by
  have digits : (ofKey key).text.toList = Text.Hex.bytes (key.digest.take 16) := by
    rw [ofKey_eq, String.toList_ofList]
  have denote : Text.Hex.Denotes (ofKey key).text.toList key.number :=
    digits ▸ Text.Hex.denotes_bytes _
  constructor
  case length =>
    rw [← String.length_toList, digits, Text.Hex.length_bytes, key.length_take_digest]
  case lowercase => exact denote.isLower
  case denotes => exact denote

theorem IsNumeral.lt_iff (first : a.IsNumeral m) (second : b.IsNumeral n) : a < b ↔ m < n := by
  rw [lt_iff_text, String.lt_iff]
  refine first.denotes.lt_iff second.denotes ?_
  rw [String.length_toList, String.length_toList, first.length, second.length]

theorem IsNumeral.ne_owner (numeral : a.IsNumeral m) : a ≠ owner := by
  rintro rfl
  have length : owner.text.length = 32 := numeral.length
  exact absurd length (by decide)

theorem IsNumeral.owner_lt (numeral : a.IsNumeral m) : owner < a := by
  refine Std.lt_of_le_of_ne ?_ numeral.ne_owner.symm
  exact Std.not_lt.mp (not_lt_owner a)

/-- Identifiers that keys give are numerals of one length. They are in the order of the numbers, all
after the owner, and two keys share one just where their digests begin with the same sixteen bytes.
Definitions in order have such identifiers, so none of them defines the owner. -/
theorem ofKey_ranked :
    (∀ key : PublicKey, (ofKey key).IsNumeral key.number ∧ key.number < 2 ^ 128 ∧
      ofKey key ≠ owner ∧ owner < ofKey key) ∧
    (∀ a b : PublicKey, (ofKey a < ofKey b ↔ a.number < b.number) ∧
      (ofKey a ≤ ofKey b ↔ a.number ≤ b.number) ∧
      (ofKey a = ofKey b ↔ a.digest.take 16 = b.digest.take 16)) ∧
    ∀ definitions : List Group, checkDefinitions [] definitions = .ok () →
      ∀ group ∈ definitions, group.id.IsNumeral group.key.number ∧ group.id ≠ owner := by
  refine ⟨fun key => ?_, fun a b => ?_, fun definitions inOrder group defined => ?_⟩
  · have numeral := isNumeral_ofKey key
    exact ⟨numeral, key.number_lt, numeral.ne_owner, numeral.owner_lt⟩
  · have first := isNumeral_ofKey a
    have second := isNumeral_ofKey b
    refine ⟨first.lt_iff second, ?_, fun same => ?_, fun same => ?_⟩
    · rw [← Std.not_lt, second.lt_iff first, Nat.not_lt]
    · rw [same] at first
      exact PublicKey.number_inj.mp (first.denotes.unique second.denotes)
    · rw [ofKey_eq, ofKey_eq, same]
  · obtain ⟨-, derived, -⟩ := checkDefinitions_nil_eq_ok_iff.mp inOrder
    have numeral : group.id.IsNumeral group.key.number :=
      derived group defined ▸ isNumeral_ofKey group.key
    exact ⟨numeral, numeral.ne_owner⟩

theorem ofKey_ranked_of_definition :
    let group : Group := ⟨⟨"8254c329a92850f6d539dd376f4816ee"⟩, ⟨"k"⟩, 1, [⟨⟨"k"⟩, 1⟩]⟩
    checkDefinitions [] [group] = .ok () ∧ group ∈ [group] ∧
      group.id.IsNumeral group.key.number ∧ group.id ≠ owner := by
  intro group
  have inOrder : checkDefinitions [] [group] = .ok () := eq_ok_of_isOk (by decide +kernel)
  have defined : group ∈ [group] := List.mem_singleton_self group
  exact ⟨inOrder, defined, ofKey_ranked.2.2 [group] inOrder group defined⟩

end GroupId

end TokenLedger
