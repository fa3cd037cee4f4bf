import DocumentDb.Revision.Hash
import Mathlib.Order.Defs.LinearOrder

/-! # The order of revisions

`compare` makes revisions a linear order: the greater generation first, then the greater hash. The
revision of an edit is one generation above its parent, so it is greater than the parent.

* `Revision.lt_iff`: the order in terms of generations and hashes.
* `Revision.generation_of_compute`, `Revision.lt_of_compute`: where an edit stands in it.
-/

namespace DocumentDb.Revision

instance : LT Revision := ltOfOrd

instance : LE Revision := leOfOrd

theorem lt_iff_compare {a b : Revision} : a < b ↔ compare a b = .lt := Iff.rfl

theorem le_iff_compare {a b : Revision} : a ≤ b ↔ (compare a b).isLE := Iff.rfl

instance : LinearOrder Revision where
  le_refl a := by
    rw [le_iff_compare, Std.ReflOrd.compare_self]
    rfl
  le_trans a b c := Std.TransOrd.isLE_trans
  lt_iff_le_not_ge a b := by
    rw [lt_iff_compare, le_iff_compare, le_iff_compare, Std.OrientedOrd.eq_swap (a := b)]
    cases compare a b <;> simp
  le_antisymm a b hab hba := by
    rw [le_iff_compare] at hab hba
    rw [Std.OrientedOrd.eq_swap (a := b)] at hba
    have heq : compare a b = .eq := by cases h : compare a b <;> simp_all
    exact Std.LawfulEqCmp.eq_of_compare heq
  le_total a b := by
    rw [le_iff_compare, le_iff_compare, Std.OrientedOrd.eq_swap (a := b)]
    cases compare a b <;> simp
  toDecidableLE a b := inferInstanceAs (Decidable ((compare a b).isLE = true))
  toDecidableLT a b := inferInstanceAs (Decidable (compare a b = .lt))
  toDecidableEq := inferInstance
  compare := compare
  compare_eq_compareOfLessAndEq a b := by
    have heq : a = b ↔ compare a b = .eq := Std.LawfulEqCmp.compare_eq_iff_eq.symm
    unfold compareOfLessAndEq
    split
    · next h => exact h
    · next h =>
      rw [lt_iff_compare] at h
      split
      · next h' => exact heq.1 h'
      · next h' =>
        rw [heq] at h'
        cases hc : compare a b <;> simp_all

/-- The greater generation counts first, then the greater hash. -/
theorem lt_iff {a b : Revision} :
    a < b ↔ a.generation < b.generation ∨ a.generation = b.generation ∧ a.hash < b.hash := by
  rw [lt_iff_compare, compare_eq, Ordering.then_eq_lt, Nat.compare_eq_lt, Nat.compare_eq_eq]
  show _ ∨ _ ∧ compareOfLessAndEq a.hash b.hash = .lt ↔ _
  rw [compareOfLessAndEq_eq_lt]

theorem lt_of_generation_lt {a b : Revision} (h : a.generation < b.generation) : a < b :=
  lt_iff.2 (.inl h)

theorem generation_le {a b : Revision} (h : a ≤ b) : a.generation ≤ b.generation := by
  by_contra hlt
  have hba : b < a := lt_of_generation_lt (by omega)
  exact absurd (lt_of_le_of_lt h hba) (lt_irrefl a)

/-! ## The revision of an edit -/

theorem nextGeneration_eq_ok {r : Revision} {n : Nat} :
    r.nextGeneration = .ok n ↔ r.generation < Numeral.max64 ∧ n = r.generation + 1 := by
  unfold nextGeneration
  split
  · next h => simp [h, eq_comm]
  · next h => simp [h]

theorem compute_some_eq_ok {parent rev : Revision} {deleted : Bool} {body : Json} :
    compute (some parent) deleted body = .ok rev ↔
      parent.generation < Numeral.max64 ∧
        rev = ⟨parent.generation + 1, hashOf (preimage (some parent) deleted body)⟩ := by
  show (parent.nextGeneration).map _ = .ok rev ↔ _
  unfold nextGeneration
  split
  · next h => simp [Except.map, h, eq_comm]
  · next h => simp [Except.map, h]

theorem generation_of_compute {parent rev : Revision} {deleted : Bool} {body : Json}
    (h : compute (some parent) deleted body = .ok rev) :
    rev.generation = parent.generation + 1 := by
  obtain ⟨-, rfl⟩ := compute_some_eq_ok.1 h
  rfl

theorem lt_of_compute {parent rev : Revision} {deleted : Bool} {body : Json}
    (h : compute (some parent) deleted body = .ok rev) : parent < rev :=
  lt_of_generation_lt (by rw [generation_of_compute h]; exact Nat.lt_succ_self _)

theorem compute_none (deleted : Bool) (body : Json) :
    compute none deleted body = .ok ⟨1, hashOf (preimage none deleted body)⟩ := rfl

end DocumentDb.Revision
