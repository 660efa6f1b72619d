import Mathlib.Data.List.Induction
import TokenLedger.Config
import TokenLedger.Proofs.LetterCase

/-!
The settings that an environment gives.

Every environment gives settings: what is not set or cannot be read is as in the standard settings.
A balance is read from any numeral that denotes an integer in range, with its sign and leading
zeros, and a level from its name in any case of its letters (`Config.ofEnvironment_gives`).
-/

set_option autoImplicit false

namespace TokenLedger

namespace Text.Decimal

/-- One or more digits, which denote a number. -/
inductive DigitsDenote : List Char → Nat → Prop where
  | single {c : Char} (digit : c.isDigit = true) : DigitsDenote [c] (c.toNat - '0'.toNat)
  | snoc {cs : List Char} {c : Char} {n : Nat} (front : DigitsDenote cs n)
      (digit : c.isDigit = true) : DigitsDenote (cs ++ [c]) (10 * n + (c.toNat - '0'.toNat))

/-- Digits after at most one sign, which denote an integer. -/
inductive Denotes : List Char → Int → Prop where
  | unsigned {cs : List Char} {n : Nat} (digits : DigitsDenote cs n) : Denotes cs n
  | plus {cs : List Char} {n : Nat} (digits : DigitsDenote cs n) : Denotes ('+' :: cs) n
  | minus {cs : List Char} {n : Nat} (digits : DigitsDenote cs n) : Denotes ('-' :: cs) (-n)

variable {cs : List Char} {n : Nat}

theorem value_concat (cs : List Char) (c : Char) :
    value (cs ++ [c]) = 10 * value cs + (c.toNat - '0'.toNat) := by
  simp [value, Nat.ofDigitChars_append, Nat.ofDigitChars_cons]

theorem DigitsDenote.isDigit (denote : DigitsDenote cs n) : ∀ c ∈ cs, c.isDigit = true := by
  induction denote with
  | single digit => exact List.forall_mem_singleton.mpr digit
  | snoc _ digit inductionHypothesis =>
      exact List.forall_mem_append.mpr ⟨inductionHypothesis, List.forall_mem_singleton.mpr digit⟩

theorem DigitsDenote.ne_nil (denote : DigitsDenote cs n) : cs ≠ [] := by
  cases denote <;> simp

theorem DigitsDenote.eq_value (denote : DigitsDenote cs n) : n = value cs := by
  induction denote with
  | single digit => simp [value, Nat.ofDigitChars_cons]
  | snoc _ _ inductionHypothesis => rw [value_concat, ← inductionHypothesis]

theorem digitsDenote_value (digits : ∀ c ∈ cs, c.isDigit = true) (some : cs ≠ []) :
    DigitsDenote cs (value cs) := by
  induction cs using List.reverseRecOn with
  | nil => exact absurd rfl some
  | append_singleton front c inductionHypothesis =>
      obtain ⟨digits, last⟩ := List.forall_mem_append.mp digits
      have digit := List.forall_mem_singleton.mp last
      by_cases alone : front = []
      · have single := DigitsDenote.single digit
        simpa [alone, value, Nat.ofDigitChars_cons] using single
      · rw [value_concat]
        exact .snoc (inductionHypothesis digits alone) digit

theorem natural?_eq_some_iff : natural? cs = some n ↔ DigitsDenote cs n := by
  unfold natural?
  by_cases read : (!cs.isEmpty && cs.all Char.isDigit) = true
  · obtain ⟨some, digits⟩ : cs ≠ [] ∧ ∀ c ∈ cs, c.isDigit = true := by simpa using read
    rw [if_pos read, Option.some.injEq]
    constructor
    · rintro rfl
      exact digitsDenote_value digits some
    · exact fun denote => denote.eq_value.symm
  · rw [if_neg read]
    refine ⟨nofun, fun denote => absurd ?_ read⟩
    simpa using And.intro denote.ne_nil denote.isDigit

/-- Reading finds what a numeral denotes, and nothing where it denotes nothing. -/
theorem integer?_eq_some_iff {value : Int} : integer? cs = some value ↔ Denotes cs value := by
  constructor
  · intro read
    unfold integer? at read
    split at read
    case h_1 cs =>
      obtain ⟨n, digits, rfl⟩ := Option.map_eq_some_iff.mp read
      exact .plus (natural?_eq_some_iff.mp digits)
    case h_2 cs =>
      obtain ⟨n, digits, rfl⟩ := Option.map_eq_some_iff.mp read
      exact .minus (natural?_eq_some_iff.mp digits)
    case h_3 cs _ _ =>
      obtain ⟨n, digits, rfl⟩ := Option.map_eq_some_iff.mp read
      exact .unsigned (natural?_eq_some_iff.mp digits)
  · rintro (digits | digits | digits)
    · have unsigned (cs' : List Char) (sign : Char) (mark : sign.isDigit = false) :
          cs ≠ sign :: cs' := by
        rintro rfl
        have digit := digits.isDigit sign List.mem_cons_self
        exact Bool.false_ne_true (mark.symm.trans digit)
      unfold integer?
      split
      case h_1 cs' => exact absurd rfl (unsigned cs' '+' rfl)
      case h_2 cs' => exact absurd rfl (unsigned cs' '-' rfl)
      case h_3 =>
        rw [natural?_eq_some_iff.mpr digits]
        rfl
    · rw [integer?, natural?_eq_some_iff.mpr digits]
      rfl
    · rw [integer?, natural?_eq_some_iff.mpr digits]
      rfl

/-- The text of an integer denotes it. -/
theorem denotes_toString (value : Int) : Denotes (toString value).toList value := by
  have denote (n : Nat) : DigitsDenote (Nat.repr n).toList n := by
    rw [Nat.repr, String.toList_ofList]
    exact natural?_eq_some_iff.mp (natural?_digits n)
  cases value with
  | ofNat n => exact .unsigned (denote n)
  | negSucc n =>
      have text : (toString (Int.negSucc n)).toList = '-' :: (Nat.repr (n + 1)).toList := by
        rw [Int.toString_eq_repr, Int.repr, String.toList_append]
        rfl
      rw [text]
      exact .minus (denote (n + 1))

end Text.Decimal

/-- The settings are those of the environment where it sets them to something readable, and
otherwise the standard ones. -/
structure Environment.Gives (env : Environment) (config : Config) : Prop where
  systemAccount : config.systemAccount.text = env.systemAccount.getD "evt"
  balance : ∀ text (amount : Amount), env.initialBalance = some text →
    Text.Decimal.Denotes text.toList amount.val → config.initialBalance = amount
  standardBalance :
    (∀ text (amount : Amount), env.initialBalance = some text →
      ¬Text.Decimal.Denotes text.toList amount.val) → config.initialBalance.val = 10000
  level : ∀ text level, env.rejectionLevel = some text → LogLevel.IsMeantBy level text →
    config.rejectionLevel = level
  standardLevel :
    (∀ text level, env.rejectionLevel = some text → ¬LogLevel.IsMeantBy level text) →
      config.rejectionLevel = .warn
  /-- The level is the one that the text means in lower case, by the rules for all letters. -/
  lowercase : ∀ casing : Text.Lowercasing,
    config.rejectionLevel = (env.rejectionLevel.bind fun text =>
      LogLevel.ofWord? (casing.lowercase text)).getD .warn
  foreign : ∀ text c, env.rejectionLevel = some text → c ∈ text.toList → 128 ≤ c.toNat →
    config.rejectionLevel = .warn

/-- An amount is read from the numerals that denote it. -/
theorem Amount.read_eq_some_iff {text : String} {amount : Amount} :
    (Text.Decimal.integer? text.toList).bind ofInt? = some amount ↔
      Text.Decimal.Denotes text.toList amount.val := by
  simp only [Option.bind_eq_some_iff, Text.Decimal.integer?_eq_some_iff, ofInt?_eq_some_iff]
  constructor
  · rintro ⟨value, denote, rfl⟩
    exact denote
  · exact fun denote => ⟨amount.val, denote, rfl⟩

/-- Every environment gives settings, and every amount is read back from its text. -/
theorem Config.ofEnvironment_gives (env : Environment) :
    env.Gives (ofEnvironment env) ∧
      ∀ amount : Amount,
        (ofEnvironment { env with initialBalance := some (toString amount) }).initialBalance =
          amount := by
  refine ⟨?_, fun amount => ?_⟩
  · constructor
    case systemAccount => cases set : env.systemAccount <;> simp [ofEnvironment, set, standard]
    case balance =>
      intro text amount set denote
      simp [ofEnvironment, set, Amount.read_eq_some_iff.mpr denote]
    case standardBalance =>
      intro unreadable
      have unread : (env.initialBalance.bind fun text =>
          (Text.Decimal.integer? text.toList).bind Amount.ofInt?) = none := by
        rw [Option.eq_none_iff_forall_ne_some]
        intro amount read
        obtain ⟨text, set, found⟩ := Option.bind_eq_some_iff.mp read
        exact unreadable text amount set (Amount.read_eq_some_iff.mp found)
      simp only [ofEnvironment, unread]
      rfl
    case level =>
      intro text level set meant
      simp [ofEnvironment, set, LogLevel.parse?_eq_some_iff.mpr meant]
    case standardLevel =>
      intro unreadable
      have unread : env.rejectionLevel.bind LogLevel.parse? = none := by
        rw [Option.eq_none_iff_forall_ne_some]
        intro level read
        obtain ⟨text, set, found⟩ := Option.bind_eq_some_iff.mp read
        exact unreadable text level set (LogLevel.parse?_eq_some_iff.mp found)
      simp only [ofEnvironment, unread]
      rfl
    case lowercase =>
      intro casing
      simp [ofEnvironment, LogLevel.ofWord?_lowercase, standard]
    case foreign =>
      intro text c set member large
      simp [ofEnvironment, set, LogLevel.parse?_of_large member large, standard]
  · have read := Amount.read_eq_some_iff.mpr (Text.Decimal.denotes_toString amount.val)
    change (((Text.Decimal.integer? (toString amount.val).toList).bind Amount.ofInt?).getD _) = _
    rw [read]
    rfl

theorem Config.ofEnvironment_gives_of_signed :
    let env : Environment := ⟨some "", some "-00042", some "DebuG"⟩
    let config := ofEnvironment env
    config.systemAccount.text = "" ∧ config.initialBalance.val = -42 ∧
      config.rejectionLevel = .debug ∧
      config.rejectionLevel =
        (LogLevel.ofWord? (Text.Lowercasing.plain.lowercase "DebuG")).getD .warn := by
  intro env config
  have gives := (ofEnvironment_gives env).1
  have denote : Text.Decimal.Denotes "-00042".toList (-42) :=
    Text.Decimal.integer?_eq_some_iff.mp (by decide +kernel)
  have meant : LogLevel.debug.IsMeantBy "DebuG" :=
    LogLevel.parse?_eq_some_iff.mp (by decide +kernel)
  exact ⟨gives.systemAccount,
    congrArg Amount.val (gives.balance "-00042" { val := -42 } rfl denote),
    gives.level "DebuG" .debug rfl meant, gives.lowercase .plain⟩

end TokenLedger
