import TokenLedger.Amount
import TokenLedger.Identifier
import TokenLedger.Instant.Text
import TokenLedger.Json.Reading

/-!
JSON forms of types.

A form writes every value of its type and reads back what it writes. It reads more than
that: the fields of a record may come in any order among others, or bare in an array.
-/

set_option autoImplicit false

namespace TokenLedger

class JsonForm (α : Type) where
  toJson : α → Json
  ofJson? : Json → Option α

namespace JsonForm

variable {α : Type} [JsonForm α]

def encode (a : α) : String := (toJson a).write

def decode? (text : String) : Option α := (Json.read? text).bind ofJson?

/-- A field that has to be there. -/
def required (field : Option Json) : Option α := field.bind ofJson?

/-- A field that may be left out. -/
def orElse (default : α) : Option Json → Option α
  | none => some default
  | some json => ofJson? json

end JsonForm

namespace Json

/-- The values of a record's fields: by name from an object, in order from an array. A field given
twice or a value too many spoils the record; members of other names do not matter. -/
def fields? (names : List String) : Json → Option (List (Option Json))
  | .object members =>
      names.mapM fun name =>
        match members.filter fun member => member.1 = name with
        | [] => some none
        | [member] => some (some member.2)
        | _ => none
  | .array items =>
      if items.length ≤ names.length then some ((items.map some).rightpad names.length none)
      else none
  | _ => none

end Json

open JsonForm (toJson ofJson?)

instance : JsonForm String where
  toJson := .string
  ofJson?
    | .string text => some text
    | _ => none

instance : JsonForm Name where
  toJson name := .string name.text
  ofJson? json := (ofJson? json).map Name.mk

instance : JsonForm PublicKey where
  toJson key := .string key.text
  ofJson? json := (ofJson? json).map PublicKey.mk

instance : JsonForm GroupId where
  toJson id := .string id.text
  ofJson? json := (ofJson? json).map GroupId.mk

instance : JsonForm Amount where
  toJson amount := .int amount.val
  ofJson?
    | .int value => Amount.ofInt? value
    | _ => none

/-- Weights and thresholds. -/
instance : JsonForm UInt32 where
  toJson n := .int n.toNat
  ofJson?
    | .int (.ofNat n) => if bound : n < UInt32.size then some (.ofNatLT n bound) else none
    | _ => none

instance : JsonForm Instant where
  toJson instant := .string (toString instant)
  ofJson?
    | .string text => Instant.ofString? text
    | _ => none

instance {α : Type} [JsonForm α] : JsonForm (List α) where
  toJson items := .array (items.map toJson)
  ofJson?
    | .array items => items.mapM ofJson?
    | _ => none

instance {α : Type} [JsonForm α] : JsonForm (Option α) where
  toJson
    | none => .null
    | some value => toJson value
  ofJson?
    | .null => some none
    | json => (ofJson? json).map some

end TokenLedger
