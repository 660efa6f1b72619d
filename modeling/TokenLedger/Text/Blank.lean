/-!
White space as the Unicode standard defines it.
-/

set_option autoImplicit false

namespace TokenLedger.Text

/-- The first and last code points of each run of characters that have the property White_Space. -/
def whiteSpaceRanges : List (Nat × Nat) :=
  [(0x09, 0x0d), (0x20, 0x20), (0x85, 0x85), (0xa0, 0xa0), (0x1680, 0x1680), (0x2000, 0x200a),
    (0x2028, 0x2029), (0x202f, 0x202f), (0x205f, 0x205f), (0x3000, 0x3000)]

def isBlank (c : Char) : Bool :=
  whiteSpaceRanges.any fun (first, last) => first ≤ c.toNat && c.toNat ≤ last

def skipBlanks (cs : List Char) : List Char := cs.dropWhile isBlank

end TokenLedger.Text
