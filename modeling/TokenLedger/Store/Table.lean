/-!
Tables of records, each record filed under its own key.

A table lists its records in strictly ascending order of their keys, so it is
determined by what looking up each key gives (`Table.ext_get?`). The operations are
described by what they do to look-ups.
-/

set_option autoImplicit false

namespace TokenLedger

/-- A record tells the key that it is filed under. -/
class Keyed (α : Type) (κ : outParam Type) where
  key : α → κ

open Keyed (key)

/-- A finite set of records with different keys, in ascending order. -/
structure Table (α : Type) {κ : Type} [Keyed α κ] [LT κ] where
  toList : List α
  ascending : toList.Pairwise fun a b => key a < key b

namespace Table

variable {α κ : Type} [Keyed α κ] [LT κ]

def empty : Table α := ⟨[], .nil⟩

instance : Inhabited (Table α) := ⟨empty⟩

def size (table : Table α) : Nat := table.toList.length

theorem ext_toList {s t : Table α} (same : s.toList = t.toList) : s = t := by
  cases s; cases t; simp_all

instance [DecidableEq α] : DecidableEq (Table α) := fun s t =>
  decidable_of_iff (s.toList = t.toList) ⟨ext_toList, congrArg toList⟩

section Lookup

variable [DecidableEq κ]

/-- The record filed under a key. -/
def get? (table : Table α) (k : κ) : Option α := table.toList.find? fun a => key a = k

def contains (table : Table α) (k : κ) : Bool := (table.get? k).isSome

theorem contains_iff {table : Table α} {k : κ} :
    table.contains k = true ↔ ∃ a, table.get? k = some a := by
  simp [contains, Option.isSome_iff_exists]

theorem contains_eq_false_iff {table : Table α} {k : κ} :
    table.contains k = false ↔ table.get? k = none := by
  simp [contains]

@[simp] theorem get?_empty (k : κ) : (empty : Table α).get? k = none := rfl

theorem mem_and_key_of_get? {table : Table α} {k : κ} {a : α} (found : table.get? k = some a) :
    a ∈ table.toList ∧ key a = k :=
  ⟨List.mem_of_find?_eq_some found, by simpa using List.find?_some found⟩

theorem key_of_get? {table : Table α} {k : κ} {a : α} (found : table.get? k = some a) :
    key a = k := (mem_and_key_of_get? found).2

end Lookup

/-- File a record in an ascending list, in place of one with the same key. -/
def fileIn [DecidableLT κ] (record : α) : List α → List α
  | [] => [record]
  | other :: rest =>
      if key record < key other then record :: other :: rest
      else if key other < key record then other :: fileIn record rest
      else record :: rest

theorem mem_of_mem_fileIn [DecidableLT κ] {record a : α} {rows : List α}
    (member : a ∈ fileIn record rows) : a = record ∨ a ∈ rows := by
  induction rows with
  | nil => exact .inl (List.mem_singleton.mp member)
  | cons other rest inductionHypothesis =>
      unfold fileIn at member
      split at member
      · exact List.mem_cons.mp member
      · split at member
        · rcases List.mem_cons.mp member with rfl | member
          · exact .inr List.mem_cons_self
          · exact (inductionHypothesis member).imp_right (List.mem_cons_of_mem _)
        · exact (List.mem_cons.mp member).imp_right (List.mem_cons_of_mem _)

variable [LE κ] [Std.IsLinearOrder κ] [Std.LawfulOrderLT κ]

theorem pairwise_fileIn [DecidableLT κ] (record : α) {rows : List α}
    (ascending : rows.Pairwise fun a b => key a < key b) :
    (fileIn record rows).Pairwise fun a b => key a < key b := by
  induction rows with
  | nil => exact List.pairwise_singleton _ _
  | cons other rest inductionHypothesis =>
      have ⟨first, others⟩ := List.pairwise_cons.mp ascending
      unfold fileIn
      split
      case isTrue before =>
        refine List.pairwise_cons.mpr ⟨fun a member => ?_, ascending⟩
        rcases List.mem_cons.mp member with rfl | member
        · exact before
        · exact Std.lt_trans before (first a member)
      case isFalse notBefore =>
        split
        case isTrue after =>
          refine List.pairwise_cons.mpr ⟨fun a member => ?_, inductionHypothesis others⟩
          rcases mem_of_mem_fileIn member with rfl | member
          · exact after
          · exact first a member
        case isFalse notAfter =>
          have same : key record = key other :=
            Std.le_antisymm (Std.not_lt.mp notAfter) (Std.not_lt.mp notBefore)
          exact List.pairwise_cons.mpr ⟨same ▸ first, others⟩

/-- File a record, in place of one with the same key. -/
def insert [DecidableLT κ] (table : Table α) (record : α) : Table α :=
  ⟨fileIn record table.toList, pairwise_fileIn record table.ascending⟩

variable [DecidableEq κ]

omit [Std.IsLinearOrder κ] in
theorem get?_eq_some_iff {table : Table α} {k : κ} {a : α} :
    table.get? k = some a ↔ a ∈ table.toList ∧ key a = k := by
  refine ⟨mem_and_key_of_get?, ?_⟩
  rintro ⟨member, rfl⟩
  rcases table with ⟨rows, ascending⟩
  simp only [get?]
  induction rows with
  | nil => simp at member
  | cons other rest inductionHypothesis =>
      have ⟨first, others⟩ := List.pairwise_cons.mp ascending
      rcases List.mem_cons.mp member with rfl | member
      · simp
      · have different : key other ≠ key a := fun same =>
          Std.lt_irrefl (same ▸ first a member)
        simp [different, inductionHypothesis others member]

omit [Std.IsLinearOrder κ] in
theorem mem_toList_iff {table : Table α} {a : α} :
    a ∈ table.toList ↔ table.get? (key a) = some a := by
  simp [get?_eq_some_iff]

theorem find?_fileIn [DecidableLT κ] (record : α) (rows : List α) (k : κ) :
    (fileIn record rows).find? (fun a => key a = k) =
      if key record = k then some record else rows.find? fun a => key a = k := by
  induction rows with
  | nil => by_cases found : key record = k <;> simp [fileIn, found]
  | cons other rest inductionHypothesis =>
      unfold fileIn
      split
      case isTrue before =>
        by_cases found : key record = k <;> simp [List.find?_cons, found]
      case isFalse notBefore =>
        split
        case isTrue after =>
          have different : key record ≠ key other := fun same => Std.lt_irrefl (same ▸ after)
          rw [List.find?_cons, inductionHypothesis, List.find?_cons]
          by_cases found : key other = k
          · subst found
            simp [different]
          · simp [found]
        case isFalse notAfter =>
          have same : key record = key other :=
            Std.le_antisymm (Std.not_lt.mp notAfter) (Std.not_lt.mp notBefore)
          by_cases found : key other = k <;> simp [same, found]

@[simp] theorem get?_insert [DecidableLT κ] (table : Table α) (record : α) (k : κ) :
    (table.insert record).get? k = if key record = k then some record else table.get? k :=
  find?_fileIn record table.toList k

omit [DecidableEq κ] in
/-- Ascending lists with the same members are the same. -/
theorem eq_of_mem_iff {rows rows' : List α}
    (ascending : rows.Pairwise fun a b => key a < key b)
    (ascending' : rows'.Pairwise fun a b => key a < key b)
    (sameMembers : ∀ a, a ∈ rows ↔ a ∈ rows') : rows = rows' := by
  induction rows generalizing rows' with
  | nil =>
      cases rows' with
      | nil => rfl
      | cons b rest => simpa using (sameMembers b).mpr List.mem_cons_self
  | cons a rest inductionHypothesis =>
      cases rows' with
      | nil => simpa using (sameMembers a).mp List.mem_cons_self
      | cons b rest' =>
          have ⟨first, others⟩ := List.pairwise_cons.mp ascending
          have ⟨first', others'⟩ := List.pairwise_cons.mp ascending'
          have heads : a = b := by
            rcases List.mem_cons.mp ((sameMembers a).mp List.mem_cons_self) with same | later
            · exact same
            rcases List.mem_cons.mp ((sameMembers b).mpr List.mem_cons_self) with same | later'
            · exact same.symm
            · exact absurd (Std.lt_trans (first' a later) (first b later')) Std.lt_irrefl
          subst heads
          congr 1
          refine inductionHypothesis others others' fun c => ⟨fun later => ?_, fun later => ?_⟩
          · have member := (sameMembers c).mp (List.mem_cons_of_mem _ later)
            rcases List.mem_cons.mp member with rfl | found
            · exact absurd (first c later) Std.lt_irrefl
            · exact found
          · have member := (sameMembers c).mpr (List.mem_cons_of_mem _ later)
            rcases List.mem_cons.mp member with rfl | found
            · exact absurd (first' c later) Std.lt_irrefl
            · exact found

/-- Tables that agree on every key are the same. -/
theorem ext_get? {s t : Table α} (agree : ∀ k, s.get? k = t.get? k) : s = t :=
  ext_toList (eq_of_mem_iff s.ascending t.ascending fun a => by
    simp only [mem_toList_iff, agree])

end Table

end TokenLedger
