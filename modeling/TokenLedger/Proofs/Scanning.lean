import Mathlib.Data.List.Chain
import Mathlib.Data.List.Forall2
import Mathlib.Data.List.TakeWhile
import TokenLedger.Json.Token
import TokenLedger.Proofs.Numerals

/-!
Scanning undoes the spelling of tokens.

Strings are read back whatever characters they have, and words that are null, truth values or
integers of 64 bits. A word ends where another kind of token begins, so no word may follow another
(`scan?_chars`).
-/

set_option autoImplicit false

namespace TokenLedger

open TokenLedger.Text (Scientific)

/-- The word of the value is read as the value. -/
def Scalar.IsLegible : Scalar → Prop
  | .null | .bool _ => True
  | .int value => value.natAbs < Scientific.capacity
  | .decimal _ => False

namespace Json

open TokenLedger.Text.Decimal (digits)

section Numbers

variable {n : Nat}

theorem takeWhile_digits : (digits n).takeWhile Char.isDigit = digits n :=
  List.takeWhile_eq_self_iff.mpr fun _ => Text.Decimal.isDigit_of_mem_digits

theorem dropWhile_digits : (digits n).dropWhile Char.isDigit = [] :=
  List.dropWhile_eq_nil_iff.mpr fun _ => Text.Decimal.isDigit_of_mem_digits

theorem minus_not_mem_digits : '-' ∉ digits n := fun minus =>
  absurd (Text.Decimal.isDigit_of_mem_digits minus) (by decide)

theorem isBounded_digits (fits : n < Scientific.capacity) :
    (Scientific.ofDigits (digits n) [] 0).isBounded = true := by
  rw [Scientific.ofDigits_digits fits]
  exact Scientific.isBounded_of_lt fits

theorem number?_digits (fits : n < Scientific.capacity) :
    number? (digits n) = some (some (.int n)) := by
  have bounded := isBounded_digits fits
  unfold number?
  split
  next negative unsigned sign =>
    obtain ⟨rfl, rfl⟩ : negative = false ∧ unsigned = digits n := by
      split at sign
      next rest same =>
        have minus : '-' ∈ digits n := by
          rw [same]
          exact List.mem_cons_self
        exact absurd minus minus_not_mem_digits
      next =>
        cases sign
        exact ⟨rfl, rfl⟩
    simp [takeWhile_digits, dropWhile_digits, fraction?, exponent?, bounded,
      Text.Decimal.digits_ne_nil, Text.Decimal.head?_digits_eq_zero_iff,
      Text.Decimal.digits_eq_zero_iff]

theorem number?_minus_digits (positive : n ≠ 0) (fits : n < Scientific.capacity) :
    number? ('-' :: digits n) = some (some (.int (-n))) := by
  have bounded := isBounded_digits fits
  simp [number?, takeWhile_digits, dropWhile_digits, fraction?, exponent?, bounded,
    Text.Decimal.digits_ne_nil, Text.Decimal.head?_digits_eq_zero_iff,
    Text.Decimal.digits_eq_zero_iff, positive]

theorem number?_integer {value : Int} (fits : value.natAbs < Scientific.capacity) :
    number? (Text.Decimal.integer value) = some (some (.int value)) := by
  cases value with
  | ofNat n => exact number?_digits fits
  | negSucc n => exact number?_minus_digits (Nat.succ_ne_zero n) fits

end Numbers

section Words

variable {value : Scalar} {c : Char}

theorem isWordChar_of_isDigit (digit : c.isDigit = true) : Scan.isWordChar c = true := by
  simp [Scan.isWordChar, Char.isAlphanum, digit]

theorem isSpace_eq_false (wordChar : Scan.isWordChar c = true) : Scan.isSpace c = false := by
  by_contra space
  simp only [Bool.not_eq_false, Scan.isSpace, Bool.or_eq_true, decide_eq_true_eq, or_assoc] at space
  rcases space with rfl | rfl | rfl | rfl <;> exact absurd wordChar (by decide)

theorem outsideStep_of_isWordChar (tokens : List Token) (wordChar : Scan.isWordChar c = true) :
    Scan.outsideStep tokens c = some ⟨tokens, .inWord [c]⟩ := by
  have noQuote : c ≠ '"' := by
    rintro rfl
    exact absurd wordChar (by decide)
  simp [Scan.outsideStep, isSpace_eq_false wordChar, noQuote, wordChar]

theorem isWordChar_of_mem_integer {value : Int} (member : c ∈ Text.Decimal.integer value) :
    Scan.isWordChar c = true := by
  cases value with
  | ofNat n => exact isWordChar_of_isDigit (Text.Decimal.isDigit_of_mem_digits member)
  | negSucc n =>
      rcases List.mem_cons.mp member with rfl | digit
      · decide
      · exact isWordChar_of_isDigit (Text.Decimal.isDigit_of_mem_digits digit)

/-- An integer begins with a digit or a minus sign. -/
theorem integer_ne_cons (value : Int) (cs : List Char) (noDigit : c.isDigit = false)
    (noMinus : '-' ≠ c) : Text.Decimal.integer value ≠ c :: cs := by
  intro same
  cases value with
  | ofNat n =>
      have member : c ∈ digits n := by
        rw [show digits n = c :: cs from same]
        exact List.mem_cons_self
      simp [Text.Decimal.isDigit_of_mem_digits member] at noDigit
  | negSucc n => exact noMinus (List.cons.inj same).1

theorem word?_integer {value : Int} (fits : value.natAbs < Scientific.capacity) :
    word? (Text.Decimal.integer value) = some (some (.int value)) := by
  have noNull := integer_ne_cons value ['u', 'l', 'l'] (c := 'n') rfl (by decide)
  have noTrue := integer_ne_cons value ['r', 'u', 'e'] (c := 't') rfl (by decide)
  have noFalse := integer_ne_cons value ['a', 'l', 's', 'e'] (c := 'f') rfl (by decide)
  simp only [word?, noNull, noTrue, noFalse, if_false]
  exact number?_integer fits

theorem word?_scalarChars (legible : value.IsLegible) :
    word? (Token.scalarChars value) = some (some value) := by
  match value, legible with
  | .null, _ | .bool true, _ | .bool false, _ => rfl
  | .int value, fits => exact word?_integer fits

theorem isWordChar_scalarChars (legible : value.IsLegible) :
    ∀ c ∈ Token.scalarChars value, Scan.isWordChar c = true := by
  match value, legible with
  | .null, _ | .bool true, _ | .bool false, _ => exact List.all_eq_true.mp rfl
  | .int value, _ => exact fun _ => isWordChar_of_mem_integer

theorem scalarChars_ne_nil (legible : value.IsLegible) : Token.scalarChars value ≠ [] := by
  intro empty
  have read := word?_scalarChars legible
  rw [empty, show word? [] = none from rfl] at read
  cases read

end Words

section Strings

/-- The piece is one character by itself. -/
inductive Text.Piece.IsOf : Text.Piece → Char → Prop
  | char (c : Char) : IsOf (.char c) c
  | control (c : Char) (low : c.toNat < 0x20) : IsOf (.unit c.toNat) c

/-- A unit that is no half of a pair stands alone, whatever follows it. -/
theorem Text.join?_unit_cons {code : Nat} (rest : List Text.Piece)
    (noHigh : Text.isHighSurrogate code = false) (noLow : Text.isLowSurrogate code = false) :
    Text.join? (.unit code :: rest) = (Text.join? rest).map (Char.ofNat code :: ·) := by
  cases rest with
  | nil => simp [Text.join?, noHigh, noLow]
  | cons piece rest => cases piece <;> simp [Text.join?, noHigh, noLow]

theorem Text.join?_eq_some {pieces : List Text.Piece} {text : List Char}
    (each : List.Forall₂ Text.Piece.IsOf pieces text) : Text.join? pieces = some text := by
  induction each with
  | nil => rfl
  | @cons _ c _ _ one others inductionHypothesis =>
      cases one with
      | char => simp [Text.join?, inductionHypothesis]
      | control low =>
          have noHigh : Text.isHighSurrogate c.toNat = false := by
            simp only [Text.isHighSurrogate, Bool.and_eq_false_iff, decide_eq_false_iff_not]
            omega
          have noLow : Text.isLowSurrogate c.toNat = false := by
            simp only [Text.isLowSurrogate, Bool.and_eq_false_iff, decide_eq_false_iff_not]
            omega
          simp [Text.join?_unit_cons _ noHigh noLow, inductionHypothesis]

theorem foldlM_escape (tokens : List Token) (pieces : List Text.Piece) (c : Char) :
    ∃ piece, Text.Piece.IsOf piece c ∧
      (Text.escape c).foldlM Scan.step ⟨tokens, .inString pieces⟩ =
        some ⟨tokens, .inString (piece :: pieces)⟩ := by
  unfold Text.escape
  split
  case h_8 _ noQuote noBackslash _ _ _ _ _ =>
    -- A control character without a letter of its own is written, and read, by its code.
    split
    next low =>
      refine ⟨.unit c.toNat, .control c low, ?_⟩
      have byte : c.toNat.toUInt8.toNat = c.toNat :=
        UInt8.toNat_ofNat_of_lt' (Nat.lt_trans low (by decide))
      have first := Text.Hex.value?_digit (n := c.toNat / 16) (by omega)
      have second := Text.Hex.value?_digit (n := c.toNat % 16) (by omega)
      have zero : Text.Hex.value? '0' = some 0 := by decide
      simp [Text.Hex.byte, Scan.step, Scan.codeValue, byte, first, second, zero]
      omega
    next high =>
      exact ⟨.char c, .char c, by simp_all [Scan.step]⟩
  all_goals exact ⟨.char _, .char _, rfl⟩

/-- The characters of a string are read one by one. -/
theorem foldlM_escapes (tokens : List Token) (pieces : List Text.Piece) (text : List Char) :
    ∃ added, List.Forall₂ Text.Piece.IsOf added text ∧
      (text.flatMap Text.escape).foldlM Scan.step ⟨tokens, .inString pieces⟩ =
        some ⟨tokens, .inString (added.reverse ++ pieces)⟩ := by
  induction text generalizing pieces with
  | nil => exact ⟨[], .nil, rfl⟩
  | cons c text inductionHypothesis =>
      obtain ⟨piece, of, first⟩ := foldlM_escape tokens pieces c
      obtain ⟨added, each, others⟩ := inductionHypothesis (piece :: pieces)
      refine ⟨piece :: added, .cons of each, ?_⟩
      simp [List.foldlM_append, first, others]

/-- A string is had when its closing quote is. -/
theorem foldlM_closed (tokens : List Token) (text : String) :
    (text.toList.flatMap Text.escape ++ ['"']).foldlM Scan.step ⟨tokens, .inString []⟩ =
      some ⟨.string (some text) :: tokens, .outside⟩ := by
  obtain ⟨added, each, read⟩ := foldlM_escapes tokens [] text.toList
  simp [List.foldlM_append, read, Scan.step, Scan.stringToken, Text.join?_eq_some each]

end Strings

section Texts

namespace Token

/-- The text of the token is read as the token. -/
def IsLegible : Token → Prop
  | .word none | .string none => False
  | .word (some value) => value.IsLegible
  | _ => True

def isWord : Token → Bool
  | .word _ => true
  | _ => false

/-- Two tokens may be written next to each other. -/
def Apart (first second : Token) : Prop := first.isWord = true → second.isWord = false

end Token

/-- The scan has come to the tokens. A last word is counted as read though it may still go on. -/
inductive Scan.HasRead : Scan → List Token → Prop
  | outside (tokens : List Token) : HasRead ⟨tokens.reverse, .outside⟩ tokens
  | inWord {word : List Char} {value : Option Scalar} (tokens : List Token)
      (read : word? word.reverse = some value) :
      HasRead ⟨tokens.reverse, .inWord word⟩ (tokens ++ [.word value])

variable {scan : Scan} {tokens : List Token} {token : Token}

theorem Scan.HasRead.finish (read : scan.HasRead tokens) : scan.finish = some tokens := by
  cases read with
  | outside => simp [Scan.finish]
  | inWord before read => simp [Scan.finish, Scan.endWord, read]

/-- A word ends before a character of another kind. -/
theorem Scan.HasRead.step {c : Char} (read : scan.HasRead tokens)
    (other : Scan.isWordChar c = false) :
    scan.step c = Scan.outsideStep tokens.reverse c := by
  cases read with
  | outside => rfl
  | inWord before read => simp [Scan.step, other, Scan.endWord, read]

theorem Scan.HasRead.eq_outside (read : scan.HasRead tokens)
    (noWord : ∀ last ∈ tokens.getLast?, last.isWord = false) :
    scan = ⟨tokens.reverse, .outside⟩ := by
  cases read with
  | outside => rfl
  | inWord before read => simp [Token.isWord] at noWord

theorem foldlM_inWord {cs : List Char} (tokens : List Token) (word : List Char)
    (wordChars : ∀ c ∈ cs, Scan.isWordChar c = true) :
    cs.foldlM Scan.step ⟨tokens, .inWord word⟩ = some ⟨tokens, .inWord (cs.reverse ++ word)⟩ := by
  induction cs generalizing word with
  | nil => rfl
  | cons c cs inductionHypothesis =>
      have first := wordChars c List.mem_cons_self
      have others := inductionHypothesis (c :: word) fun c member =>
        wordChars c (List.mem_cons_of_mem _ member)
      simp [Scan.step, first, others]

theorem hasRead_word {value : Scalar} (tokens : List Token) (legible : value.IsLegible) :
    ∃ next, (Token.scalarChars value).foldlM Scan.step ⟨tokens.reverse, .outside⟩ = some next ∧
      next.HasRead (tokens ++ [.word (some value)]) := by
  have wordChars := isWordChar_scalarChars legible
  have read := word?_scalarChars legible
  obtain ⟨c, cs, split⟩ := List.exists_cons_of_ne_nil (scalarChars_ne_nil legible)
  rw [split] at wordChars read ⊢
  have first : Scan.step ⟨tokens.reverse, .outside⟩ c = some ⟨tokens.reverse, .inWord [c]⟩ :=
    outsideStep_of_isWordChar _ (wordChars c List.mem_cons_self)
  have others := foldlM_inWord tokens.reverse [c] fun c member =>
    wordChars c (List.mem_cons_of_mem _ member)
  refine ⟨⟨tokens.reverse, .inWord (cs.reverse ++ [c])⟩, ?_, .inWord tokens (by simpa using read)⟩
  simp [first, others]

theorem hasRead_push (tokens : List Token) (token : Token) :
    Scan.HasRead ⟨token :: tokens.reverse, .outside⟩ (tokens ++ [token]) := by
  simpa using Scan.HasRead.outside (tokens ++ [token])

theorem hasRead_mark {c : Char} (read : scan.HasRead tokens) (other : Scan.isWordChar c = false)
    (mark : Scan.outsideStep tokens.reverse c = some ⟨token :: tokens.reverse, .outside⟩) :
    ∃ next, [c].foldlM Scan.step scan = some next ∧ next.HasRead (tokens ++ [token]) := by
  refine ⟨_, ?_, hasRead_push tokens token⟩
  rw [List.foldlM_cons, read.step other, mark]
  rfl

theorem hasRead_string (read : scan.HasRead tokens) (text : String) :
    ∃ next, (Token.chars (.string (some text))).foldlM Scan.step scan = some next ∧
      next.HasRead (tokens ++ [.string (some text)]) := by
  refine ⟨_, ?_, hasRead_push tokens _⟩
  have opened : scan.step '"' = some ⟨tokens.reverse, .inString []⟩ := read.step rfl
  simp only [Token.chars, Token.quoted, List.cons_append, List.foldlM_cons, opened]
  exact foldlM_closed tokens.reverse text

/-- One token more is read, unless it is a word right after a word. -/
theorem hasRead_chars (read : scan.HasRead tokens) (legible : token.IsLegible)
    (apart : ∀ last ∈ tokens.getLast?, last.Apart token) :
    ∃ next, token.chars.foldlM Scan.step scan = some next ∧ next.HasRead (tokens ++ [token]) := by
  match token, legible with
  | .word (some value), legible =>
      have noWord : ∀ last ∈ tokens.getLast?, last.isWord = false := by
        intro last member
        by_contra word
        exact absurd (apart last member (by simpa using word)) (by simp [Token.isWord])
      rw [read.eq_outside noWord]
      exact hasRead_word tokens legible
  | .string (some text), _ => exact hasRead_string read text
  | .openArray, _ | .closeArray, _ | .openObject, _ | .closeObject, _ | .comma, _ | .colon, _ =>
      exact hasRead_mark read rfl rfl

theorem hasRead_flatMap {added : List Token} (read : scan.HasRead tokens)
    (legible : ∀ token ∈ added, token.IsLegible)
    (apart : List.IsChain Token.Apart (tokens ++ added)) :
    ∃ next, (added.flatMap Token.chars).foldlM Scan.step scan = some next ∧
      next.HasRead (tokens ++ added) := by
  induction added generalizing scan tokens with
  | nil => exact ⟨scan, rfl, by simpa using read⟩
  | cons token added inductionHypothesis =>
      obtain ⟨middle, first, readFirst⟩ := hasRead_chars read (legible token List.mem_cons_self)
        fun last member => (List.isChain_append.mp apart).2.2 last member token rfl
      obtain ⟨next, others, readOthers⟩ := inductionHypothesis readFirst
        (fun token member => legible token (List.mem_cons_of_mem _ member)) (by simpa using apart)
      exact ⟨next, by simp [List.foldlM_append, first, others], by simpa using readOthers⟩

/-- Legible tokens are what the scanner finds in their text. -/
theorem scan?_chars (legible : ∀ token ∈ tokens, token.IsLegible)
    (apart : List.IsChain Token.Apart tokens) :
    scan? (tokens.flatMap Token.chars) = some tokens := by
  obtain ⟨last, scanned, read⟩ := hasRead_flatMap (.outside []) legible apart
  rw [scan?, show Scan.start = ⟨[].reverse, .outside⟩ from rfl, scanned]
  exact read.finish

end Texts

end Json

end TokenLedger
