import Mathlib.Algebra.Group.Action.Defs
import Mathlib.Algebra.GroupWithZero.Nat
import Mathlib.Algebra.Order.BigOperators.Group.List
import Mathlib.Algebra.Order.Group.Nat
import Mathlib.Data.List.Nodup
import TokenLedger.Group
import TokenLedger.Permission

/-!
Which listings a threshold rule takes.

A listing is read once. Each member is compared with the one before it, and the weights are added up
in a word of 64 bits. Since identities are linearly ordered the neighbours speak for all pairs, and
since weights have 32 bits the sum of that many of them does not wrap, so a listing is taken just if
it meets the rule (`Weighted.wellFormed_iff_meets`). Of the orders of some members it is the
descending one that is taken, or none is (`Weighted.accepted_listing`).
-/

set_option autoImplicit false

namespace TokenLedger

namespace Weighted

section Rule

variable {μ ι : Type} [Weighted μ ι]

/-- The exact sum of the weights. -/
def weightSum (members : List μ) : Nat := (members.map fun member => (weight member).toNat).sum

/-- The weight so far, as it is kept while a listing is read. -/
def runningTotal (start : UInt64) (members : List μ) : UInt64 :=
  members.foldl (fun total member => total + (weight member).toUInt64) start

/-- Everyone counts something, and together they reach the threshold. -/
structure Reaches (threshold : UInt32) (members : List μ) : Prop where
  weighted : ∀ member ∈ members, weight member ≠ 0
  reached : threshold.toNat ≤ weightSum members

/-- Of any two members the one listed first has the greater identity. -/
def Descending [LT ι] (members : List μ) : Prop :=
  members.Pairwise fun first second => identity second < identity first

/-- The rule that a listing has to meet. -/
structure Meets [LT ι] (threshold : UInt32) (members : List μ) : Prop
    extends Reaches threshold members where
  descending : Descending members

end Rule

section Totals

variable {μ ι : Type} [Weighted μ ι] {start : UInt64} {members listing : List μ}

@[simp] theorem weightSum_nil : weightSum ([] : List μ) = 0 := rfl

@[simp] theorem weightSum_cons (member : μ) (rest : List μ) :
    weightSum (member :: rest) = (weight member).toNat + weightSum rest := rfl

theorem weightSum_perm (reordered : listing.Perm members) :
    weightSum listing = weightSum members :=
  (reordered.map _).sum_eq

theorem Reaches.of_perm {threshold : UInt32} (reaches : Reaches threshold members)
    (reordered : listing.Perm members) : Reaches threshold listing where
  weighted member listed := reaches.weighted member (reordered.mem_iff.mp listed)
  reached := weightSum_perm reordered ▸ reaches.reached

/-- The kept weight is exact as long as the exact one fits into a word. -/
theorem toNat_runningTotal (fits : start.toNat + weightSum members < UInt64.size) :
    (runningTotal start members).toNat = start.toNat + weightSum members := by
  induction members generalizing start with
  | nil => rfl
  | cons member rest inductionHypothesis =>
      rw [weightSum_cons, ← Nat.add_assoc] at fits ⊢
      have next : (start + (weight member).toUInt64).toNat =
          start.toNat + (weight member).toNat := by
        rw [UInt64.toNat_add, UInt32.toNat_toUInt64, Nat.mod_eq_of_lt]
        exact Nat.lt_of_le_of_lt (Nat.le_add_right _ _) fits
      rw [← next] at fits ⊢
      exact inductionHypothesis fits

/-- Weights of 32 bits, and no more of them than 32 bits can count, fit into 64 bits. -/
theorem weightSum_lt_of_length_le (few : members.length ≤ UInt32.size) :
    weightSum members < UInt64.size := by
  have each : ∀ amount ∈ members.map fun member => (weight member).toNat,
      amount ≤ UInt32.size - 1 := by
    intro amount listed
    obtain ⟨member, -, rfl⟩ := List.mem_map.mp listed
    exact Nat.le_sub_one_of_lt (weight member).toNat_lt
  have bounded := List.sum_le_card_nsmul _ _ each
  rw [List.length_map, smul_eq_mul] at bounded
  calc weightSum members
    _ ≤ members.length * (UInt32.size - 1) := bounded
    _ ≤ UInt32.size * (UInt32.size - 1) := Nat.mul_le_mul_right _ few
    _ < UInt64.size := by decide

theorem toNat_runningTotal_of_length_le (few : members.length ≤ UInt32.size) :
    (runningTotal 0 members).toNat = weightSum members := by
  rw [toNat_runningTotal]
  · exact Nat.zero_add _
  · exact (Nat.zero_add _).symm ▸ weightSum_lt_of_length_le few

end Totals

section Reading

variable {μ ι : Type} [Weighted μ ι] [LT ι] [DecidableLT ι] {threshold : UInt32}

/-- Where reading stands after the first members: it goes on with the identity of the last of them
and the weight of all of them. -/
theorem completes_append (last : Option ι) (start : UInt64) (before rest : List μ) :
    completes threshold last start (before ++ rest) =
      (completes 0 last start before &&
        completes threshold ((before.getLast?.map identity).or last) (runningTotal start before)
          rest) := by
  induction before generalizing last start with
  | nil => simp [completes, runningTotal]
  | cons member others inductionHypothesis =>
      have same : ((member :: others).getLast?.map identity).or last =
          (others.getLast?.map identity).or (some (identity member)) := by
        rw [List.getLast?_cons]
        cases others.getLast? <;> rfl
      simp only [List.cons_append, completes, inductionHypothesis, same, Bool.and_assoc]
      rfl

theorem wellFormed_append (before rest : List μ) :
    wellFormed threshold (before ++ rest) =
      (wellFormed 0 before &&
        completes threshold (before.getLast?.map identity) (runningTotal 0 before) rest) := by
  rw [wellFormed, completes_append, Option.or_none]
  rfl

variable [LE ι] [Std.IsLinearOrder ι] [Std.LawfulOrderLT ι] {members listing : List μ}

/-- Reading compares neighbours only, but what comes before a member's neighbour is greater still.
-/
theorem completes_iff {last : Option ι} {start : UInt64} :
    completes threshold last start members = true ↔
      ((∀ previous ∈ last, ∀ member ∈ members, identity member < previous) ∧ Descending members) ∧
        (∀ member ∈ members, weight member ≠ 0) ∧
          threshold.toUInt64 ≤ runningTotal start members := by
  induction members generalizing last start with
  | nil => simp [completes, Descending, runningTotal]
  | cons member rest inductionHypothesis =>
      have neighbours : last.all (fun previous => identity member < previous) = true ↔
          ∀ previous ∈ last, identity member < previous := by
        cases last <;> simp
      simp only [completes, Bool.and_eq_true, neighbours, bne_iff_ne, inductionHypothesis,
        Descending, List.forall_mem_cons, List.pairwise_cons, Option.mem_some_iff, forall_eq']
      constructor
      · rintro ⟨⟨below, counts⟩, ⟨first, descending⟩, weighted, reached⟩
        refine ⟨⟨fun previous named => ⟨below previous named, fun other listed => ?_⟩, first,
          descending⟩, ⟨counts, weighted⟩, reached⟩
        exact Std.lt_trans (first other listed) (below previous named)
      · rintro ⟨⟨below, first, descending⟩, ⟨counts, weighted⟩, reached⟩
        exact ⟨⟨fun previous named => (below previous named).1, counts⟩, ⟨first, descending⟩,
          weighted, reached⟩

theorem wellFormed_iff :
    wellFormed threshold members = true ↔
      Descending members ∧ (∀ member ∈ members, weight member ≠ 0) ∧
        threshold.toUInt64 ≤ runningTotal 0 members := by
  rw [wellFormed, completes_iff]
  simp

theorem wellFormed_iff_meets (few : members.length ≤ UInt32.size) :
    wellFormed threshold members = true ↔ Meets threshold members := by
  rw [wellFormed_iff, UInt64.le_iff_toNat_le, UInt32.toNat_toUInt64,
    toNat_runningTotal_of_length_le few]
  constructor
  · rintro ⟨descending, weighted, reached⟩
    exact ⟨⟨weighted, reached⟩, descending⟩
  · rintro ⟨⟨weighted, reached⟩, descending⟩
    exact ⟨descending, weighted, reached⟩

end Reading

/-- Every listing is judged by the rule, and the weight kept on the way is always the exact one:
where reading has come to, it is the sum of the weights before. -/
theorem rule_decided :
    (∀ {μ ι : Type} [Weighted μ ι] [LT ι] [DecidableLT ι] [LE ι] [Std.IsLinearOrder ι]
        [Std.LawfulOrderLT ι] (threshold : UInt32) (members : List μ),
      members.length ≤ UInt32.size →
        (∀ before rest, members = before ++ rest →
          wellFormed threshold members =
              (wellFormed 0 before &&
                completes threshold (before.getLast?.map identity) (runningTotal 0 before) rest) ∧
            (runningTotal 0 before).toNat = weightSum before ∧ weightSum before < UInt64.size) ∧
        (wellFormed threshold members = true ↔ Meets threshold members)) ∧
      (∀ permission : Permission, permission.groups.length ≤ UInt32.size →
        (permission.isValid = true ↔ Meets permission.threshold permission.groups)) ∧
      ∀ group : Group, group.keys.length ≤ UInt32.size →
        (group.isValid = true ↔ 0 < group.threshold ∧ Meets group.threshold group.keys) := by
  refine ⟨?_, fun permission few => wellFormed_iff_meets few, fun group few => ?_⟩
  · intro μ ι _ _ _ _ _ _ threshold members few
    refine ⟨?_, wellFormed_iff_meets few⟩
    rintro before rest rfl
    have fewer : before.length ≤ UInt32.size :=
      Nat.le_trans (List.sublist_append_left before rest).length_le few
    exact ⟨wellFormed_append before rest, toNat_runningTotal_of_length_le fewer,
      weightSum_lt_of_length_le fewer⟩
  · rw [Group.isValid, Bool.and_eq_true, bne_iff_ne, wellFormed_iff_meets few,
      UInt32.pos_iff_ne_zero]

/-- The weights of these two together do not fit into 32 bits. -/
theorem rule_decided_of_greatest_weights :
    let greatest : UInt32 := 4294967295
    let permission : Permission := ⟨⟨"issue"⟩, greatest, [⟨⟨"b"⟩, greatest⟩, ⟨.owner, greatest⟩]⟩
    permission.groups.length ≤ UInt32.size ∧ permission.isValid = true ∧
      Meets permission.threshold permission.groups := by
  intro greatest permission
  have few : permission.groups.length ≤ UInt32.size := by decide
  have valid : permission.isValid = true := by decide +kernel
  exact ⟨few, valid, (rule_decided.2.1 permission few).mp valid⟩

section Canonical

variable {μ ι : Type} [Weighted μ ι] [LT ι] [LE ι] [Std.IsLinearOrder ι] [Std.LawfulOrderLT ι]
  {members listing : List μ}

omit [Std.IsLinearOrder ι] in
theorem Descending.nodup (descending : Descending members) : (members.map identity).Nodup :=
  List.pairwise_map.mpr (descending.imp fun less => (Std.ne_of_lt less).symm)

/-- The same members in descending order are the same listing. -/
theorem Descending.eq_of_perm (descending : Descending members) (descending' : Descending listing)
    (reordered : members.Perm listing) : members = listing :=
  reordered.eq_of_pairwise
    (fun _ _ _ _ less greater => absurd (Std.lt_trans less greater) Std.lt_irrefl)
    descending descending'

theorem Descending.eq_of_mem_iff (descending : Descending members)
    (descending' : Descending listing) (same : ∀ member, member ∈ members ↔ member ∈ listing) :
    members = listing := by
  refine descending.eq_of_perm descending' ?_
  have once := List.Nodup.of_map identity descending.nodup
  have once' := List.Nodup.of_map identity descending'.nodup
  exact (List.perm_ext_iff_of_nodup once once').mpr same

/-- Members with different identities can be listed in descending order. -/
theorem exists_descending [DecidableLT ι] (distinct : (members.map identity).Nodup) :
    ∃ listing : List μ, listing.Perm members ∧ Descending listing := by
  let notBelow (first second : μ) : Bool := !decide (identity first < identity second)
  have notBelow_iff {first second : μ} :
      notBelow first second = true ↔ identity second ≤ identity first := by
    simp [notBelow, Std.not_lt]
  have transitive : ∀ first second third : μ, notBelow first second = true →
      notBelow second third = true → notBelow first third = true := by
    intro first second third above above'
    exact notBelow_iff.mpr (Std.le_trans (notBelow_iff.mp above') (notBelow_iff.mp above))
  have total : ∀ first second : μ, (notBelow first second || notBelow second first) = true := by
    intro first second
    rw [Bool.or_eq_true, notBelow_iff, notBelow_iff]
    exact Std.le_total
  have reordered := members.mergeSort_perm notBelow
  have sorted := List.pairwise_mergeSort transitive total members
  have different : (members.mergeSort notBelow).Pairwise fun first second =>
      identity first ≠ identity second :=
    List.pairwise_map.mp ((reordered.map identity).nodup_iff.mpr distinct)
  refine ⟨members.mergeSort notBelow, reordered, (sorted.and different).imp ?_⟩
  rintro first second ⟨above, apart⟩
  exact Std.lt_of_le_of_ne (notBelow_iff.mp above) apart.symm

end Canonical

end Weighted

/-- The owner comes before every group. -/
theorem GroupId.not_lt_owner (id : GroupId) : ¬id < owner := by
  rw [GroupId.lt_iff_text, String.lt_iff]
  exact List.not_lt_nil _

/-- Nothing can be listed after the owner, and the owner not twice. -/
theorem Permission.owner_last {before after : List GroupWeight} {reference : GroupWeight}
    (descending : Weighted.Descending (before ++ reference :: after))
    (owner : reference.id = .owner) : after = [] ∧ ∀ other ∈ before, other.id ≠ .owner := by
  obtain ⟨-, others, across⟩ := List.pairwise_append.mp descending
  have below := (List.pairwise_cons.mp others).1
  constructor
  · refine List.eq_nil_iff_forall_not_mem.mpr fun other listed => ?_
    exact GroupId.not_lt_owner other.id (owner ▸ below other listed)
  · intro other listed same
    have less : reference.id < other.id := across other listed reference List.mem_cons_self
    exact GroupId.not_lt_owner reference.id (same ▸ less)

/-- Of all orders of some members just one is taken, or none if two of them have one identity, one
counts nothing, or all together do not reach the threshold. So a listing is known by its members,
and the owner can only come last. -/
theorem Weighted.accepted_listing :
    (∀ {μ ι : Type} [Weighted μ ι] [LT ι] [DecidableLT ι] [LE ι] [Std.IsLinearOrder ι]
        [Std.LawfulOrderLT ι] (threshold : UInt32) (members : List μ),
      members.length ≤ UInt32.size →
        ((members.map identity).Nodup ∧ Reaches threshold members →
          ∃! listing : List μ, listing.Perm members ∧ wellFormed threshold listing = true) ∧
        (¬((members.map identity).Nodup ∧ Reaches threshold members) →
          ∀ listing : List μ, listing.Perm members → wellFormed threshold listing = false)) ∧
      (∀ {μ ι : Type} [Weighted μ ι] [LT ι] [DecidableLT ι] [LE ι] [Std.IsLinearOrder ι]
          [Std.LawfulOrderLT ι] {threshold threshold' : UInt32} {members listing : List μ},
        wellFormed threshold members = true → wellFormed threshold' listing = true →
          (∀ member, member ∈ members ↔ member ∈ listing) → members = listing) ∧
      ∀ permission : Permission, permission.isValid = true →
        ∀ before reference after, permission.groups = before ++ reference :: after →
          reference.id = .owner → after = [] ∧ ∀ other ∈ before, other.id ≠ .owner := by
  refine ⟨?_, ?_, ?_⟩
  · intro μ ι _ _ _ _ _ _ threshold members few
    have taken {listing : List μ} (reordered : listing.Perm members) :
        wellFormed threshold listing = true ↔ Meets threshold listing :=
      wellFormed_iff_meets (reordered.length_eq.trans_le few)
    constructor
    · rintro ⟨distinct, reaches⟩
      obtain ⟨listing, reordered, descending⟩ := exists_descending distinct
      have meets := (taken reordered).mpr ⟨reaches.of_perm reordered, descending⟩
      refine ⟨listing, ⟨reordered, meets⟩, ?_⟩
      rintro other ⟨reordered', accepted⟩
      have descending' := ((taken reordered').mp accepted).descending
      exact descending'.eq_of_perm descending (reordered'.trans reordered.symm)
    · intro unfit listing reordered
      refine Bool.eq_false_iff.mpr fun accepted => unfit ?_
      have meets := (taken reordered).mp accepted
      exact ⟨(reordered.map identity).nodup_iff.mp meets.descending.nodup,
        meets.toReaches.of_perm reordered.symm⟩
  · intro μ ι _ _ _ _ _ _ threshold threshold' members listing accepted accepted' same
    exact (wellFormed_iff.mp accepted).1.eq_of_mem_iff (wellFormed_iff.mp accepted').1 same
  · intro permission valid before reference after split
    have descending := (Weighted.wellFormed_iff.mp valid).1
    exact Permission.owner_last (split ▸ descending)

theorem Weighted.accepted_listing_of_ascending :
    let members : List GroupWeight := [⟨.owner, 1⟩, ⟨⟨"a"⟩, 2⟩, ⟨⟨"b"⟩, 3⟩]
    members.length ≤ UInt32.size ∧ (members.map identity).Nodup ∧ Reaches 6 members ∧
      ∃! listing : List GroupWeight, listing.Perm members ∧ wellFormed 6 listing = true := by
  intro members
  have few : members.length ≤ UInt32.size := by decide
  have distinct : (members.map identity).Nodup := by decide
  have reaches : Reaches 6 members := ⟨by decide, by decide⟩
  exact ⟨few, distinct, reaches, (accepted_listing.1 6 members few).1 ⟨distinct, reaches⟩⟩

end TokenLedger
