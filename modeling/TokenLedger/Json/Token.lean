import TokenLedger.Json
import TokenLedger.Json.Text
import TokenLedger.Text.Decimal
import TokenLedger.Text.Scientific

/-!
The tokens of a JSON text: marks, bare words and strings.

A text is cut into tokens by a scanner that takes one character at a time.
-/

set_option autoImplicit false

namespace TokenLedger.Json

open TokenLedger.Text

inductive Token where
  | openArray
  | closeArray
  | openObject
  | closeObject
  | comma
  | colon
  | word (value : Option Scalar)
  | string (text : Option String)
  deriving DecidableEq, Repr

namespace Token

def mark? : Char → Option Token
  | '[' => some .openArray
  | ']' => some .closeArray
  | '\x7b' => some .openObject
  | '\x7d' => some .closeObject
  | ',' => some .comma
  | ':' => some .colon
  | _ => none

/-- Half of a surrogate pair alone, the shortest text that is no value. -/
def unpaired : List Char := ['\\', 'u', 'd', '8', '0', '0']

def scalarChars : Scalar → List Char
  | .null => ['n', 'u', 'l', 'l']
  | .bool true => ['t', 'r', 'u', 'e']
  | .bool false => ['f', 'a', 'l', 's', 'e']
  | .int value => Decimal.integer value
  | .decimal literal => literal.toList

def quoted (chars : List Char) : List Char := '"' :: chars ++ ['"']

/-- A token as it is written. -/
def chars : Token → List Char
  | .openArray => ['[']
  | .closeArray => [']']
  | .openObject => ['\x7b']
  | .closeObject => ['\x7d']
  | .comma => [',']
  | .colon => [':']
  | .word (some value) => scalarChars value
  | .string (some text) => quoted (text.toList.flatMap Text.escape)
  | .word none | .string none => quoted unpaired

end Token

/-- The digits after a point, if there is one, and what follows. -/
def fraction? : List Char → Option (List Char × List Char)
  | '.' :: rest =>
      let ds := rest.takeWhile Char.isDigit
      if ds.isEmpty then none else some (ds, rest.dropWhile Char.isDigit)
  | rest => some ([], rest)

/-- The power of ten after a letter, if there is one. -/
def exponent? : List Char → Option Int
  | [] => some 0
  | 'e' :: rest | 'E' :: rest => Decimal.integer? rest
  | _ => none

/-- A number, with no value if it is too large. -/
def number? (word : List Char) : Option (Option Scalar) := do
  let (negative, unsigned) := match word with
    | '-' :: rest => (true, rest)
    | rest => (false, rest)
  let whole := unsigned.takeWhile Char.isDigit
  if whole.isEmpty || whole.head? = some '0' && whole ≠ ['0'] then none
  let (decimals, rest) ← fraction? (unsigned.dropWhile Char.isDigit)
  let exponent ← exponent? rest
  if !(Scientific.ofDigits whole decimals exponent).isBounded then return none
  if whole.length < unsigned.length || negative && whole = ['0'] then
    return some (.decimal (String.ofList word))
  let value : Int := Decimal.value whole
  return some (.int (if negative then -value else value))

/-- What a bare word stands for. -/
def word? (word : List Char) : Option (Option Scalar) :=
  if word = ['n', 'u', 'l', 'l'] then some (some .null)
  else if word = ['t', 'r', 'u', 'e'] then some (some (.bool true))
  else if word = ['f', 'a', 'l', 's', 'e'] then some (some (.bool false))
  else number? word

/-- Where the scanner stands; what it has read of a word or a string is in reverse. -/
inductive Place where
  | outside
  | inWord (word : List Char)
  | inString (pieces : List Text.Piece)
  | inEscape (pieces : List Text.Piece)
  | inCode (pieces : List Text.Piece) (digits : List Nat)
  deriving DecidableEq, Repr

/-- The tokens read so far, in reverse, and the place. -/
structure Scan where
  tokens : List Token
  place : Place
  deriving DecidableEq, Repr

namespace Scan

def start : Scan := ⟨[], .outside⟩

def isWordChar (c : Char) : Bool := c.isAlphanum || c = '+' || c = '-' || c = '.'

def isSpace (c : Char) : Bool := c = ' ' || c = '\t' || c = '\n' || c = '\r'

def stringToken (pieces : List Text.Piece) : Token :=
  .string ((Text.join? pieces.reverse).map String.ofList)

/-- The number of four hexadecimal digits in reverse. -/
def codeValue (digits : List Nat) : Nat := digits.foldr (fun digit code => code * 16 + digit) 0

def outsideStep (tokens : List Token) (c : Char) : Option Scan :=
  if isSpace c then some ⟨tokens, .outside⟩
  else if c = '"' then some ⟨tokens, .inString []⟩
  else if isWordChar c then some ⟨tokens, .inWord [c]⟩
  else (Token.mark? c).map fun mark => ⟨mark :: tokens, .outside⟩

def endWord (tokens : List Token) (word : List Char) : Option (List Token) :=
  (word? word.reverse).map fun value => .word value :: tokens

def step (scan : Scan) (c : Char) : Option Scan :=
  match scan.place with
  | .outside => outsideStep scan.tokens c
  | .inWord word =>
      if isWordChar c then some ⟨scan.tokens, .inWord (c :: word)⟩
      else (endWord scan.tokens word).bind fun tokens => outsideStep tokens c
  | .inString pieces =>
      if c = '"' then some ⟨stringToken pieces :: scan.tokens, .outside⟩
      else if c = '\\' then some ⟨scan.tokens, .inEscape pieces⟩
      else if c.toNat < 0x20 then none
      else some ⟨scan.tokens, .inString (.char c :: pieces)⟩
  | .inEscape pieces =>
      if c = 'u' then some ⟨scan.tokens, .inCode pieces []⟩
      else (Text.unescape? c).map fun c => ⟨scan.tokens, .inString (.char c :: pieces)⟩
  | .inCode pieces digits =>
      (Hex.value? c).map fun digit =>
        let digits := digit :: digits
        if digits.length = 4 then ⟨scan.tokens, .inString (.unit (codeValue digits) :: pieces)⟩
        else ⟨scan.tokens, .inCode pieces digits⟩

/-- The tokens, if the text may end here. -/
def finish (scan : Scan) : Option (List Token) :=
  match scan.place with
  | .outside => some scan.tokens.reverse
  | .inWord word => (endWord scan.tokens word).map List.reverse
  | .inString _ | .inEscape _ | .inCode _ _ => none

end Scan

/-- The tokens of a text. -/
def scan? (text : List Char) : Option (List Token) :=
  (text.foldlM Scan.step Scan.start).bind Scan.finish

end TokenLedger.Json
