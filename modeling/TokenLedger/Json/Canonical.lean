import TokenLedger.Json
import TokenLedger.Store.Table

/-!
JSON values without repetition: the members of every object in the order of their names,
and of those with the same name only the last.
-/

set_option autoImplicit false

namespace TokenLedger

instance : Keyed (String × Json) String := ⟨Prod.fst⟩

namespace Json

mutual

def canonical : Json → Json
  | .array items => .array (itemsCanonical items)
  | .object members => .object (membersCanonical [] members)
  | .scalar value => .scalar value
  | .string text => .string text
  | .unreadable => .unreadable

def itemsCanonical : List Json → List Json
  | [] => []
  | item :: rest => item.canonical :: itemsCanonical rest

/-- The first argument holds the members before, in order. -/
def membersCanonical (before : List (String × Json)) : List (String × Json) → List (String × Json)
  | [] => before
  | (name, value) :: rest => membersCanonical (Table.fileIn (name, value.canonical) before) rest

end

end Json

end TokenLedger
