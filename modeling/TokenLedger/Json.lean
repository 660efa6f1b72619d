/-!
JSON values as they are read and written.

A value keeps the order of its members, repeated ones included, and tells integers from
other numbers by how they are written: `1.0` and `-0` are no integers.
-/

set_option autoImplicit false

namespace TokenLedger

/-- What a bare word of a JSON text stands for. -/
inductive Scalar where
  | null
  | bool (value : Bool)
  | int (value : Int)
  /-- Any other number, as it is written. -/
  | decimal (literal : String)
  deriving DecidableEq, Repr

inductive Json where
  | scalar (value : Scalar)
  | string (text : String)
  | array (items : List Json)
  | object (members : List (String × Json))
  /-- A value that is in order as a text but cannot be had: half of a surrogate pair in a string
  or in the name of a member, or a number that is too large. -/
  | unreadable
  deriving Repr

namespace Json

@[match_pattern] abbrev null : Json := .scalar .null

@[match_pattern] abbrev bool (value : Bool) : Json := .scalar (.bool value)

@[match_pattern] abbrev int (value : Int) : Json := .scalar (.int value)

mutual

/-- How many arrays and objects are nested in one another. -/
def depth : Json → Nat
  | .array items => itemsDepth items + 1
  | .object members => membersDepth members + 1
  | .scalar _ | .string _ | .unreadable => 0

def itemsDepth : List Json → Nat
  | [] => 0
  | item :: rest => max item.depth (itemsDepth rest)

def membersDepth : List (String × Json) → Nat
  | [] => 0
  | (_, value) :: rest => max value.depth (membersDepth rest)

end

mutual

/-- Nothing within the value is unreadable. -/
def isReadable : Json → Bool
  | .array items => itemsReadable items
  | .object members => membersReadable members
  | .scalar _ | .string _ => true
  | .unreadable => false

def itemsReadable : List Json → Bool
  | [] => true
  | item :: rest => item.isReadable && itemsReadable rest

def membersReadable : List (String × Json) → Bool
  | [] => true
  | (_, value) :: rest => value.isReadable && membersReadable rest

end

/-- How deep a value may be nested that is read as a whole. -/
def depthLimit : Nat := 127

/-- The value can be had as a whole, whatever of it is used. -/
def isPlain (json : Json) : Bool := json.isReadable && json.depth ≤ depthLimit

end Json

end TokenLedger
