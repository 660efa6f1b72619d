import TokenLedger.Json.Token

/-!
JSON values and their tokens.

A value is written as its tokens without blanks. It is read by a machine that takes one
token at a time and keeps the arrays and objects that are still open.
-/

set_option autoImplicit false

namespace TokenLedger.Json

mutual

/-- The tokens of a value. -/
def tokens : Json → List Token
  | .scalar value => [.word (some value)]
  | .string text => [.string (some text)]
  | .array [] => [.openArray, .closeArray]
  | .array (item :: rest) => .openArray :: item.tokens ++ itemsTokens rest ++ [.closeArray]
  | .object [] => [.openObject, .closeObject]
  | .object ((name, value) :: rest) =>
      .openObject :: .string (some name) :: .colon :: value.tokens ++ membersTokens rest ++
        [.closeObject]
  | .unreadable => [.string none]

/-- Items after the first. -/
def itemsTokens : List Json → List Token
  | [] => []
  | item :: rest => .comma :: item.tokens ++ itemsTokens rest

/-- Members after the first. -/
def membersTokens : List (String × Json) → List Token
  | [] => []
  | (name, value) :: rest =>
      .comma :: .string (some name) :: .colon :: value.tokens ++ membersTokens rest

end

/-- The text of a value, without blanks. -/
def write (json : Json) : String := String.ofList (json.tokens.flatMap Token.chars)

/-- An array or object that is still open, with what came before in reverse. -/
inductive Frame where
  | array (items : List Json)
  /-- The name is that of the member whose value is due. -/
  | object (members : List (Option String × Json)) (name : Option String)
  deriving Repr

/-- What has been read, and what is due. The frames are those still open, innermost first. -/
inductive Reading where
  | wantValue (frames : List Frame)
  | arrayOpened (frames : List Frame)
  | objectOpened (frames : List Frame)
  | wantName (members : List (Option String × Json)) (frames : List Frame)
  | wantColon (members : List (Option String × Json)) (name : Option String) (frames : List Frame)
  | complete (value : Json) (frames : List Frame)
  deriving Repr

/-- An object whose members are given in reverse. -/
def closeObject (members : List (Option String × Json)) : Json :=
  match members.reverse.mapM fun (name, value) => name.map fun name => (name, value) with
  | some members => .object members
  | none => .unreadable

namespace Reading

def valueStep (frames : List Frame) : Token → Option Reading
  | .openArray => some (.arrayOpened frames)
  | .openObject => some (.objectOpened frames)
  | .word (some value) => some (.complete (.scalar value) frames)
  | .string (some text) => some (.complete (.string text) frames)
  | .word none | .string none => some (.complete .unreadable frames)
  | .closeArray | .closeObject | .comma | .colon => none

def nameStep (members : List (Option String × Json)) (frames : List Frame) :
    Token → Option Reading
  | .string name => some (.wantColon members name frames)
  | _ => none

def step : Reading → Token → Option Reading
  | .wantValue frames, token => valueStep frames token
  | .arrayOpened frames, .closeArray => some (.complete (.array []) frames)
  | .arrayOpened frames, token => valueStep (.array [] :: frames) token
  | .objectOpened frames, .closeObject => some (.complete (.object []) frames)
  | .objectOpened frames, token => nameStep [] frames token
  | .wantName members frames, token => nameStep members frames token
  | .wantColon members name frames, .colon => some (.wantValue (.object members name :: frames))
  | .wantColon _ _ _, _ => none
  | .complete value (.array items :: frames), .comma =>
      some (.wantValue (.array (value :: items) :: frames))
  | .complete value (.array items :: frames), .closeArray =>
      some (.complete (.array (value :: items).reverse) frames)
  | .complete value (.object members name :: frames), .comma =>
      some (.wantName ((name, value) :: members) frames)
  | .complete value (.object members name :: frames), .closeObject =>
      some (.complete (Json.closeObject ((name, value) :: members)) frames)
  | .complete _ _, _ => none

/-- The value, if nothing more is due. -/
def finish : Reading → Option Json
  | .complete value [] => some value
  | _ => none

end Reading

def ofTokens? (tokens : List Token) : Option Json :=
  (tokens.foldlM Reading.step (.wantValue [])).bind Reading.finish

/-- The value that a text stands for. -/
def read? (text : String) : Option Json := (scan? text.toList).bind ofTokens?

end TokenLedger.Json
