import DocumentDb.Options.Query
import DocumentDb.Proofs.Text.Utf8Order

/-! # Which ids a listing selects

A listing goes through the ids in the order of their bytes, or backwards, from the bound at which it
starts to the one at which it stops. It asks the sorted map of the documents for a range of keys,
which selects the same ids, and it asks for none if the bounds cross, where nothing is selected. So
it never asks for a range that a sorted map does not have.

* `Utf8.Before`, `ListingQuery.Precedes`: the order of bytes, and the order of a listing.
* `Bound.Allows`, `ListingQuery.Selects`: the ids from the start to the stop.
* `ListingQuery.page`: the ids on the page that is asked for.
* `Bound.Orderly`: the ranges of keys that a sorted map has.
* `Bound.crossed_iff`: when bounds cross.
* `ListingQuery.selects_iff`, `ListingQuery.not_selects`: the ids that a query selects, in terms of
  the range of keys that it asks for.
-/

namespace DocumentDb

/-- A text comes before another in the order of their bytes. -/
def Utf8.Before (s t : String) : Prop := encode s < encode t

instance (s t : String) : Decidable (Utf8.Before s t) :=
  inferInstanceAs (Decidable (Utf8.encode s < Utf8.encode t))

theorem Utf8.before_iff {s t : String} : Before s t ↔ s < t := encode_lt_encode_iff

theorem compare_string_eq_lt {s t : String} : compare s t = .lt ↔ s < t := compareOfLessAndEq_eq_lt

theorem compare_string_eq_gt {s t : String} : compare s t = .gt ↔ t < s := by
  rw [Std.OrientedCmp.gt_iff_lt, compare_string_eq_lt]

/-! ## Bounds -/

namespace Bound

/-- In some order an id is not before a bound, and after it if the bound itself is excluded. -/
def Allows (before : String → String → Prop) : Bound → String → Prop
  | included key, id => ¬ before id key
  | excluded key, id => before key id
  | unbounded, _ => True

instance (before : String → String → Prop) [DecidableRel before] (b : Bound) (id : String) :
    Decidable (b.Allows before id) :=
  match b with
  | included key => inferInstanceAs (Decidable (¬ before id key))
  | excluded key => inferInstanceAs (Decidable (before key id))
  | unbounded => inferInstanceAs (Decidable True)

/-- A range of keys that a sorted map has: its lower end is not above its upper end, and where they
are at one key they do not both exclude it. -/
def Orderly (low high : Bound) : Prop :=
  ∀ a b, low.key? = some a → high.key? = some b →
    ¬ Utf8.Before b a ∧ ¬ (a = b ∧ low = .excluded a ∧ high = .excluded b)

variable {b low high : Bound} {id : String}

theorem admitsAbove_iff : b.admitsAbove id = true ↔ b.Allows Utf8.Before id := by
  cases b <;>
    simp [admitsAbove, Allows, Utf8.before_iff, Ordering.isLE_iff_ne_gt, compare_string_eq_gt,
      Ordering.isLT_iff_eq_lt, compare_string_eq_lt]

theorem admitsBelow_iff :
    b.admitsBelow id = true ↔ b.Allows (fun s t => Utf8.Before t s) id := by
  cases b <;>
    simp [admitsBelow, Allows, Utf8.before_iff, Ordering.isLE_iff_ne_gt, compare_string_eq_gt,
      Ordering.isLT_iff_eq_lt, compare_string_eq_lt]

/-- Bounds cross if the lower one is above the upper one, or if they are at one key that they do not
both include. -/
theorem crossed_iff :
    low.crossed high = true ↔ ∃ a b, low.key? = some a ∧ high.key? = some b ∧
      (b < a ∨ a = b ∧ ¬ (low = .included a ∧ high = .included b)) := by
  cases low <;> cases high <;>
    simp [crossed, key?, Ordering.isGE_iff_eq_gt_or_eq_eq, Ordering.isGT_iff_eq_gt,
      compare_string_eq_gt]

theorem orderly_of_not_crossed (h : low.crossed high = false) : low.Orderly high := by
  intro a b ha hb
  have hnot : ¬ (b < a ∨ a = b ∧ ¬ (low = .included a ∧ high = .included b)) := fun hcrossed =>
    Bool.false_ne_true (h.symm.trans (crossed_iff.2 ⟨a, b, ha, hb, hcrossed⟩))
  rw [Utf8.before_iff]
  refine ⟨fun hlt => hnot (.inl hlt), fun ⟨hkey, hlow, _⟩ => hnot (.inr ⟨hkey, fun hboth => ?_⟩)⟩
  rw [hlow] at hboth
  cases hboth.1

/-- No id is between bounds that cross. -/
theorem not_allows_of_crossed (h : low.crossed high = true) :
    ¬ (low.Allows Utf8.Before id ∧ high.Allows (fun s t => Utf8.Before t s) id) := by
  obtain ⟨a, b, ha, hb, hcrossed⟩ := crossed_iff.1 h
  cases low <;> cases high <;> simp only [key?, Option.some.injEq, reduceCtorEq] at ha hb
  all_goals
    simp only [Allows, Utf8.before_iff]
    grind

end Bound

/-! ## Queries -/

namespace ListingQuery

variable {q : ListingQuery} {id : String} {low high : Bound}

/-- An id comes before another in the order of a listing. -/
def Precedes (q : ListingQuery) (a b : String) : Prop :=
  if q.descending then Utf8.Before b a else Utf8.Before a b

instance (q : ListingQuery) : DecidableRel q.Precedes := fun a b =>
  inferInstanceAs (Decidable (if q.descending then Utf8.Before b a else Utf8.Before a b))

/-- In the order of a listing an id is not before its start and not after its stop. -/
def Selects (q : ListingQuery) (id : String) : Prop :=
  q.start.Allows q.Precedes id ∧ q.stop.Allows (fun a b => q.Precedes b a) id

instance (q : ListingQuery) : DecidablePred q.Selects := fun id =>
  inferInstanceAs (Decidable (q.start.Allows q.Precedes id ∧
    q.stop.Allows (fun a b => q.Precedes b a) id))

/-- The ids on the page that a query asks for, out of all ids in ascending order. -/
def page (q : ListingQuery) (ids : List String) : List String :=
  let ordered := if q.descending then ids.reverse else ids
  let rest := (ordered.filter fun id => q.Selects id).drop q.skip
  match q.limit with
  | none => rest
  | some n => rest.take n

/-- The lower and the upper bound of the ids. -/
def ends (q : ListingQuery) : Bound × Bound :=
  if q.descending then (q.stop, q.start) else (q.start, q.stop)

theorem keyRange_eq (q : ListingQuery) :
    q.keyRange = if q.ends.1.crossed q.ends.2 then none else some q.ends := rfl

theorem ends_of_keyRange (h : q.keyRange = some (low, high)) :
    q.ends = (low, high) ∧ low.crossed high = false := by
  rw [keyRange_eq] at h
  split at h
  · cases h
  · next hnot =>
    have hends : q.ends = (low, high) := Option.some.inj h
    rw [hends] at hnot
    exact ⟨hends, Bool.not_eq_true _ ▸ hnot⟩

theorem crossed_of_keyRange (h : q.keyRange = none) : q.ends.1.crossed q.ends.2 = true := by
  rw [keyRange_eq] at h
  split at h
  · next hcrossed => exact hcrossed
  · cases h

theorem selects_iff_allows : q.Selects id ↔
    q.ends.1.Allows Utf8.Before id ∧ q.ends.2.Allows (fun s t => Utf8.Before t s) id := by
  unfold Selects ends Precedes
  cases q.descending with
  | true => exact and_comm
  | false => exact Iff.rfl

theorem selects_iff (h : q.keyRange = some (low, high)) :
    q.Selects id ↔ low.admitsAbove id = true ∧ high.admitsBelow id = true := by
  rw [selects_iff_allows, (ends_of_keyRange h).1, Bound.admitsAbove_iff, Bound.admitsBelow_iff]

theorem not_selects (h : q.keyRange = none) : ¬ q.Selects id := by
  rw [selects_iff_allows]
  exact Bound.not_allows_of_crossed (crossed_of_keyRange h)

end ListingQuery

end DocumentDb
