/-!
The three kinds of identifier of the ledger, each a text of its own type.

Identifiers are compared by the code points of their texts. The order is total,
which is what member lists and tables of records rely on.
-/

set_option autoImplicit false

namespace TokenLedger

/-- Name of a domain, a token or an account. -/
structure Name where
  text : String
  deriving DecidableEq, Repr, Inhabited

/-- A public key, compared as an opaque text. -/
structure PublicKey where
  text : String
  deriving DecidableEq, Repr, Inhabited

/-- Identifier of a group. The empty identifier stands for the owner of a token. -/
structure GroupId where
  text : String
  deriving DecidableEq, Repr, Inhabited

/-- An order that is read off through an injective function is linear. -/
theorem isLinearOrder_of_injective {α β : Type} [LE α] [LE β] [Std.IsLinearOrder β]
    (view : α → β) (injective : ∀ {a b : α}, view a = view b → a = b)
    (le_iff : ∀ a b : α, a ≤ b ↔ view a ≤ view b) : Std.IsLinearOrder α where
  le_refl a := (le_iff a a).mpr (Std.IsPreorder.le_refl _)
  le_trans a b c ab bc :=
    (le_iff a c).mpr (Std.IsPreorder.le_trans _ _ _ ((le_iff a b).mp ab) ((le_iff b c).mp bc))
  le_antisymm a b ab ba :=
    injective (Std.IsPartialOrder.le_antisymm _ _ ((le_iff a b).mp ab) ((le_iff b a).mp ba))
  le_total a b :=
    (Std.IsLinearPreorder.le_total (view a) (view b)).imp (le_iff a b).mpr (le_iff b a).mpr

namespace Name

def isEmpty (name : Name) : Bool := name.text.isEmpty

instance : ToString Name := ⟨Name.text⟩

instance : LE Name := ⟨fun a b => a.text ≤ b.text⟩

instance : LT Name := ⟨fun a b => a.text < b.text⟩

instance : DecidableLE Name := fun a b => inferInstanceAs (Decidable (a.text ≤ b.text))

instance : DecidableLT Name := fun a b => inferInstanceAs (Decidable (a.text < b.text))

@[ext] theorem ext {a b : Name} (text : a.text = b.text) : a = b := by
  cases a; cases b; simp_all

theorem le_iff_text (a b : Name) : a ≤ b ↔ a.text ≤ b.text := Iff.rfl

theorem lt_iff_text (a b : Name) : a < b ↔ a.text < b.text := Iff.rfl

instance : Std.IsLinearOrder Name := isLinearOrder_of_injective Name.text ext le_iff_text

instance : Std.LawfulOrderLT Name := ⟨fun a b => Std.LawfulOrderLT.lt_iff a.text b.text⟩

end Name

namespace PublicKey

instance : ToString PublicKey := ⟨PublicKey.text⟩

instance : LE PublicKey := ⟨fun a b => a.text ≤ b.text⟩

instance : LT PublicKey := ⟨fun a b => a.text < b.text⟩

instance : DecidableLE PublicKey := fun a b => inferInstanceAs (Decidable (a.text ≤ b.text))

instance : DecidableLT PublicKey := fun a b => inferInstanceAs (Decidable (a.text < b.text))

@[ext] theorem ext {a b : PublicKey} (text : a.text = b.text) : a = b := by
  cases a; cases b; simp_all

theorem le_iff_text (a b : PublicKey) : a ≤ b ↔ a.text ≤ b.text := Iff.rfl

theorem lt_iff_text (a b : PublicKey) : a < b ↔ a.text < b.text := Iff.rfl

instance : Std.IsLinearOrder PublicKey :=
  isLinearOrder_of_injective PublicKey.text ext le_iff_text

instance : Std.LawfulOrderLT PublicKey := ⟨fun a b => Std.LawfulOrderLT.lt_iff a.text b.text⟩

end PublicKey

namespace GroupId

/-- The owner of the token at hand, as a group of its own. -/
def owner : GroupId := ⟨""⟩

def isOwner (id : GroupId) : Bool := id.text.isEmpty

/-- The owner's identifier is empty, so it is shown by a word instead. -/
instance : ToString GroupId := ⟨fun id => if id.isOwner then "<owner>" else id.text⟩

instance : LE GroupId := ⟨fun a b => a.text ≤ b.text⟩

instance : LT GroupId := ⟨fun a b => a.text < b.text⟩

instance : DecidableLE GroupId := fun a b => inferInstanceAs (Decidable (a.text ≤ b.text))

instance : DecidableLT GroupId := fun a b => inferInstanceAs (Decidable (a.text < b.text))

@[ext] theorem ext {a b : GroupId} (text : a.text = b.text) : a = b := by
  cases a; cases b; simp_all

theorem le_iff_text (a b : GroupId) : a ≤ b ↔ a.text ≤ b.text := Iff.rfl

theorem lt_iff_text (a b : GroupId) : a < b ↔ a.text < b.text := Iff.rfl

instance : Std.IsLinearOrder GroupId := isLinearOrder_of_injective GroupId.text ext le_iff_text

instance : Std.LawfulOrderLT GroupId := ⟨fun a b => Std.LawfulOrderLT.lt_iff a.text b.text⟩

@[simp] theorem isOwner_iff (id : GroupId) : id.isOwner = true ↔ id = owner := by
  simp [isOwner, owner, GroupId.ext_iff]

end GroupId

end TokenLedger
