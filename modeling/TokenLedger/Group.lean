import TokenLedger.Identifier
import TokenLedger.Quorum
import TokenLedger.Digest.Sha256
import TokenLedger.Text.Hex

/-!
Groups of keys that act together.

A group is identified by a key of its own: its identifier is the first half of the
key's digest in hexadecimal. Half a digest is 128 bits, and since every digit has its
place the order of identifiers is the order of those numbers.
-/

set_option autoImplicit false

namespace TokenLedger

/-- How many bytes of a digest identify a group. -/
def GroupId.byteCount : Nat := 16

/-- The leading bytes of a key's digest. -/
def GroupId.bytesOfKey (key : PublicKey) : List UInt8 :=
  (Digest.Sha256.digest key.text.toByteArray.data.toList).take byteCount

/-- The identifier of the group that a key stands for. -/
def GroupId.ofKey (key : PublicKey) : GroupId :=
  ⟨String.ofList (Text.Hex.bytes (bytesOfKey key))⟩

@[simp] theorem GroupId.length_bytesOfKey (key : PublicKey) :
    (bytesOfKey key).length = byteCount := by
  simp [bytesOfKey, byteCount]

/-- A key never stands for the owner of a token. -/
theorem GroupId.ofKey_ne_owner (key : PublicKey) : ofKey key ≠ owner := by
  intro same
  have digits : Text.Hex.bytes (bytesOfKey key) = [] := by
    simpa [ofKey, owner] using same
  have count : (Text.Hex.bytes (bytesOfKey key)).length = 0 := by rw [digits]; rfl
  rw [Text.Hex.length_bytes, length_bytesOfKey] at count
  exact absurd count (by decide)

/-- A key and what its signature counts in a group. -/
structure KeyWeight where
  key : PublicKey
  weight : UInt32
  deriving DecidableEq, Repr

instance : Weighted KeyWeight PublicKey := ⟨KeyWeight.key, KeyWeight.weight⟩

structure Group where
  id : GroupId
  key : PublicKey
  threshold : UInt32
  keys : List KeyWeight
  deriving DecidableEq, Repr

namespace Group

/-- The group that a key stands for. -/
def ofKey (key : PublicKey) (threshold : UInt32) (keys : List KeyWeight) : Group :=
  ⟨GroupId.ofKey key, key, threshold, keys⟩

def idMatchesKey (group : Group) : Bool := group.id = GroupId.ofKey group.key

/-- A group needs some weight to act, and its keys can bring it up. -/
def isValid (group : Group) : Bool :=
  group.threshold != 0 && Weighted.wellFormed group.threshold group.keys

end Group

end TokenLedger
