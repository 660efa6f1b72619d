import TokenLedger.Json.Reading
import TokenLedger.Proofs.Scanning

/-!
Reading undoes writing.

The machine that reads takes the tokens of any value back to the value, whatever is still open
around it. The tokens are told apart in the text unless they are illegible (`read?_write`).
-/

set_option autoImplicit false

namespace TokenLedger.Json

section Machine

/-- A member whose name is readable. -/
def named (member : String × Json) : Option String × Json := (some member.1, member.2)

theorem mapM_named {step : Option String × Json → Option (String × Json)}
    (readable : ∀ member, step (named member) = some member) (members : List (String × Json)) :
    (members.map named).mapM step = some members := by
  induction members with
  | nil => rfl
  | cons member rest inductionHypothesis => simp [readable, inductionHypothesis]

theorem closeObject_named (members : List (String × Json)) :
    closeObject (members.map named).reverse = .object members := by
  rw [closeObject, List.reverse_reverse, mapM_named fun _ => rfl]

/-- No value begins with the end of an array. -/
theorem foldlM_arrayOpened (json : Json) (frames : List Frame) (after : List Token) :
    (json.tokens ++ after).foldlM Reading.step (.arrayOpened frames) =
      (json.tokens ++ after).foldlM Reading.step (.wantValue (.array [] :: frames)) := by
  match json with
  | .scalar _ | .string _ | .array [] | .array (_ :: _) | .object [] | .object (_ :: _)
  | .unreadable => rfl

mutual

/-- The tokens of a value make up the value. -/
theorem foldlM_tokens (json : Json) (frames : List Frame) (after : List Token) :
    (json.tokens ++ after).foldlM Reading.step (.wantValue frames) =
      after.foldlM Reading.step (.complete json frames) := by
  match json with
  | .scalar _ | .string _ | .array [] | .object [] | .unreadable => rfl
  | .array (item :: rest) =>
      have split : tokens (.array (item :: rest)) ++ after =
          .openArray :: (item.tokens ++ (itemsTokens rest ++ .closeArray :: after)) := by
        simp [tokens]
      calc
        _ = (item.tokens ++ (itemsTokens rest ++ .closeArray :: after)).foldlM Reading.step
              (.arrayOpened frames) := by
            rw [split]
            rfl
        _ = (itemsTokens rest ++ .closeArray :: after).foldlM Reading.step
              (.complete item (.array [] :: frames)) := by
            rw [foldlM_arrayOpened, foldlM_tokens item]
        _ = _ := foldlM_itemsTokens item [] rest frames after
  | .object ((name, value) :: rest) =>
      have split : tokens (.object ((name, value) :: rest)) ++ after =
          .openObject :: .string (some name) :: .colon ::
            (value.tokens ++ (membersTokens rest ++ .closeObject :: after)) := by
        simp [tokens]
      calc
        _ = (value.tokens ++ (membersTokens rest ++ .closeObject :: after)).foldlM Reading.step
              (.wantValue (.object [] (some name) :: frames)) := by
            rw [split]
            rfl
        _ = (membersTokens rest ++ .closeObject :: after).foldlM Reading.step
              (.complete value (.object [] (some name) :: frames)) := foldlM_tokens value _ _
        _ = _ := foldlM_membersTokens value [] name rest frames after

/-- The items after the first and the end of an array. -/
theorem foldlM_itemsTokens (item : Json) (before rest : List Json) (frames : List Frame)
    (after : List Token) :
    (itemsTokens rest ++ .closeArray :: after).foldlM Reading.step
        (.complete item (.array before.reverse :: frames)) =
      after.foldlM Reading.step (.complete (.array (before ++ item :: rest)) frames) := by
  match rest with
  | [] => simp [itemsTokens, Reading.step]
  | next :: rest =>
      have split : itemsTokens (next :: rest) ++ .closeArray :: after =
          .comma :: (next.tokens ++ (itemsTokens rest ++ .closeArray :: after)) := by
        simp [itemsTokens]
      calc
        _ = (next.tokens ++ (itemsTokens rest ++ .closeArray :: after)).foldlM Reading.step
              (.wantValue (.array (item :: before.reverse) :: frames)) := by
            rw [split]
            rfl
        _ = (itemsTokens rest ++ .closeArray :: after).foldlM Reading.step
              (.complete next (.array (before ++ [item]).reverse :: frames)) := by
            rw [foldlM_tokens next, List.reverse_concat]
        _ = _ := by
            rw [foldlM_itemsTokens next, List.append_assoc]
            rfl

/-- The members after the first and the end of an object. -/
theorem foldlM_membersTokens (value : Json) (before : List (String × Json)) (name : String)
    (rest : List (String × Json)) (frames : List Frame) (after : List Token) :
    (membersTokens rest ++ .closeObject :: after).foldlM Reading.step
        (.complete value (.object (before.map named).reverse (some name) :: frames)) =
      after.foldlM Reading.step
        (.complete (.object (before ++ (name, value) :: rest)) frames) := by
  have pushed : named (name, value) :: (before.map named).reverse =
      ((before ++ [(name, value)]).map named).reverse := by
    simp
  match rest with
  | [] =>
      rw [← closeObject_named, ← pushed]
      rfl
  | (next, nextValue) :: rest =>
      have split : membersTokens ((next, nextValue) :: rest) ++ .closeObject :: after =
          .comma :: .string (some next) :: .colon ::
            (nextValue.tokens ++ (membersTokens rest ++ .closeObject :: after)) := by
        simp [membersTokens]
      calc
        _ = (nextValue.tokens ++ (membersTokens rest ++ .closeObject :: after)).foldlM Reading.step
              (.wantValue (.object (named (name, value) :: (before.map named).reverse)
                (some next) :: frames)) := by
            rw [split]
            rfl
        _ = (membersTokens rest ++ .closeObject :: after).foldlM Reading.step
              (.complete nextValue (.object ((before ++ [(name, value)]).map named).reverse
                (some next) :: frames)) := by
            rw [foldlM_tokens nextValue, pushed]
        _ = _ := by
            rw [foldlM_membersTokens nextValue, List.append_assoc]
            rfl

end

theorem ofTokens?_tokens (json : Json) : ofTokens? json.tokens = some json := by
  have read := foldlM_tokens json [] []
  rw [List.append_nil] at read
  rw [ofTokens?, read]
  rfl

end Machine

section Spacing

variable {rest : List Token} {token : Token}

/-- The tokens may stand right after a word. -/
def MayFollow (rest : List Token) : Prop :=
  List.IsChain Token.Apart rest ∧ ∀ first ∈ rest.head?, first.isWord = false

theorem isChain_cons (noWord : token.isWord = false) (chain : List.IsChain Token.Apart rest) :
    List.IsChain Token.Apart (token :: rest) :=
  List.isChain_cons.mpr ⟨fun _ _ word => absurd word (by simp [noWord]), chain⟩

theorem MayFollow.cons (noWord : token.isWord = false) (chain : List.IsChain Token.Apart rest) :
    MayFollow (token :: rest) :=
  ⟨isChain_cons noWord chain, by simpa using noWord⟩

theorem MayFollow.isChain_cons (follows : MayFollow rest) :
    List.IsChain Token.Apart (token :: rest) :=
  List.isChain_cons.mpr ⟨fun next member _ => follows.2 next member, follows.1⟩

mutual

/-- A value is written without one word right after another. -/
theorem isChain_tokens (json : Json) {rest : List Token} (follows : MayFollow rest) :
    List.IsChain Token.Apart (json.tokens ++ rest) := by
  match json with
  | .scalar _ | .string _ | .unreadable => exact follows.isChain_cons
  | .array [] | .object [] => exact isChain_cons rfl follows.isChain_cons
  | .array (item :: others) =>
      simp only [tokens, List.cons_append, List.append_assoc]
      exact isChain_cons rfl
        (isChain_tokens item (mayFollow_itemsTokens others (.cons rfl follows.1)))
  | .object ((_, value) :: others) =>
      simp only [tokens, List.cons_append, List.append_assoc]
      exact isChain_cons rfl (isChain_cons rfl (isChain_cons rfl
        (isChain_tokens value (mayFollow_membersTokens others (.cons rfl follows.1)))))

theorem mayFollow_itemsTokens (items : List Json) {rest : List Token}
    (follows : MayFollow rest) : MayFollow (itemsTokens items ++ rest) := by
  match items with
  | [] => exact follows
  | item :: others =>
      simp only [itemsTokens, List.cons_append, List.append_assoc]
      exact .cons rfl (isChain_tokens item (mayFollow_itemsTokens others follows))

theorem mayFollow_membersTokens (members : List (String × Json)) {rest : List Token}
    (follows : MayFollow rest) : MayFollow (membersTokens members ++ rest) := by
  match members with
  | [] => exact follows
  | (_, value) :: others =>
      simp only [membersTokens, List.cons_append, List.append_assoc]
      exact .cons rfl (isChain_cons rfl (isChain_cons rfl
        (isChain_tokens value (mayFollow_membersTokens others follows))))

end

end Spacing

section Values

/-- All that the value is made of is read as it is written. -/
def IsLegible (json : Json) : Prop := ∀ token ∈ json.tokens, token.IsLegible

theorem isLegible_scalar {value : Scalar} : (Json.scalar value).IsLegible ↔ value.IsLegible := by
  simp [IsLegible, tokens, Token.IsLegible]

theorem isLegible_string (text : String) : (Json.string text).IsLegible := by
  simp [IsLegible, tokens, Token.IsLegible]

theorem isLegible_itemsTokens {items : List Json} (each : ∀ item ∈ items, item.IsLegible) :
    ∀ token ∈ itemsTokens items, token.IsLegible := by
  induction items with
  | nil => simp [itemsTokens]
  | cons item rest inductionHypothesis =>
      simp only [List.forall_mem_cons] at each
      simp only [itemsTokens, List.cons_append, List.forall_mem_cons, List.forall_mem_append]
      exact ⟨trivial, each.1, inductionHypothesis each.2⟩

theorem isLegible_membersTokens {members : List (String × Json)}
    (each : ∀ member ∈ members, member.2.IsLegible) :
    ∀ token ∈ membersTokens members, token.IsLegible := by
  induction members with
  | nil => simp [membersTokens]
  | cons member rest inductionHypothesis =>
      simp only [List.forall_mem_cons] at each
      simp only [membersTokens, List.cons_append, List.forall_mem_cons, List.forall_mem_append]
      exact ⟨trivial, trivial, trivial, each.1, inductionHypothesis each.2⟩

theorem isLegible_array {items : List Json} (each : ∀ item ∈ items, item.IsLegible) :
    (Json.array items).IsLegible := by
  cases items with
  | nil => simp [IsLegible, tokens, Token.IsLegible]
  | cons item rest =>
      simp only [List.forall_mem_cons] at each
      simp only [IsLegible, tokens, List.cons_append, List.forall_mem_cons, List.forall_mem_append]
      exact ⟨trivial, ⟨each.1, isLegible_itemsTokens each.2⟩, trivial, by simp⟩

theorem isLegible_object {members : List (String × Json)}
    (each : ∀ member ∈ members, member.2.IsLegible) : (Json.object members).IsLegible := by
  cases members with
  | nil => simp [IsLegible, tokens, Token.IsLegible]
  | cons member rest =>
      simp only [List.forall_mem_cons] at each
      simp only [IsLegible, tokens, List.cons_append, List.forall_mem_cons, List.forall_mem_append]
      exact ⟨trivial, trivial, trivial, ⟨each.1, isLegible_membersTokens each.2⟩, trivial, by simp⟩

/-- A legible value is what is read in its text. -/
theorem read?_write {json : Json} (legible : json.IsLegible) : read? json.write = some json := by
  have apart : List.IsChain Token.Apart json.tokens := by
    have last : MayFollow [] := ⟨.nil, by simp⟩
    simpa using isChain_tokens json last
  rw [read?, write, String.toList_ofList, scan?_chars legible apart]
  exact ofTokens?_tokens json

end Values

end TokenLedger.Json
