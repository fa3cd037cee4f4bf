import DocumentDb.Error
import DocumentDb.Text.Numeral
import DocumentDb.Text.Split

/-! # Revisions

A revision is a generation, the length of the chain of edits that leads to it, and a hash of the
edit. The text of a revision is both with a dash between them.

* `compare` on revisions: the greater generation first, then the greater hash.
* `Revision.parse`: reads a text back; the generation is positive and the hash not empty.
* `Revision.parse_text`: every such revision with a generation of 64 bits reads back from its text.
-/

namespace DocumentDb

/-- A revision of a document. -/
structure Revision where
  generation : Nat
  hash : String
deriving DecidableEq

namespace Revision

/-! ## Order -/

instance : Ord Revision where
  compare a b := (compare a.generation b.generation).then (compare a.hash b.hash)

theorem compare_eq (a b : Revision) :
    compare a b = (compare a.generation b.generation).then (compare a.hash b.hash) := rfl

instance : Std.LawfulEqOrd Revision where
  compare_self := by simp [compare_eq]
  eq_of_compare {a b} h := by
    rw [compare_eq, Ordering.then_eq_eq] at h
    obtain ⟨hg, hh⟩ := h
    cases a; cases b
    simp only [Revision.mk.injEq]
    exact ⟨Std.LawfulEqCmp.compare_eq_iff_eq.1 hg, Std.LawfulEqCmp.compare_eq_iff_eq.1 hh⟩

instance : Std.TransOrd Revision :=
  inferInstanceAs
    (Std.TransCmp (compareLex (compareOn Revision.generation) (compareOn Revision.hash)))

/-- Whether one revision is smaller than another. -/
def below (a b : Revision) : Bool := (compare a b).isLT

/-- The revisions in descending order. -/
def descending (revs : List Revision) : List Revision :=
  revs.mergeSort fun a b => (compare a b).isGE

/-! ## Text -/

/-- The text of a revision. -/
def text (r : Revision) : String := Numeral.text r.generation ++ "-" ++ r.hash

/-- The failure to read a text as a revision. -/
def malformed (s : String) : Error := .badRequest ("invalid rev format: " ++ Text.quoted s)

/-- The revision that a text spells, if it spells one. -/
def parse? (s : String) : Option Revision :=
  match Text.cut '-' s.toList with
  | (_, none) => none
  | (number, some hash) =>
    match Numeral.read? Numeral.max64 (String.ofList number) with
    | none => none
    | some generation =>
      if generation = 0 ∨ hash = [] then none else some ⟨generation, String.ofList hash⟩

/-- The revision that a text spells. -/
def parse (s : String) : Except Error Revision :=
  match parse? s with
  | some r => .ok r
  | none => .error (malformed s)

/-- The generation of a child. -/
def nextGeneration (r : Revision) : Except Error Nat :=
  if r.generation < Numeral.max64 then .ok (r.generation + 1)
  else .error (.badRequest "revision generation overflow")

theorem toList_text (r : Revision) :
    r.text.toList = Numeral.digits r.generation ++ '-' :: r.hash.toList := by
  simp [text]

theorem dash_not_mem_digits (n : Nat) : '-' ∉ Numeral.digits n := fun h =>
  absurd (Numeral.isDigit_of_mem_digits h) (by decide)

/-- A revision reads back from its text. -/
theorem parse_text {r : Revision} (hpos : 0 < r.generation) (hmax : r.generation ≤ Numeral.max64)
    (hhash : r.hash ≠ "") : parse r.text = .ok r := by
  have hg : Numeral.read? Numeral.max64 (String.ofList (Numeral.digits r.generation)) =
      some r.generation := Numeral.read?_text hmax
  have hne : r.hash.toList ≠ [] := fun h => hhash (String.toList_eq_nil_iff.1 h)
  have hnz : r.generation ≠ 0 := by omega
  unfold parse parse?
  rw [toList_text, Text.cut_append (dash_not_mem_digits _)]
  simp [hg, hne, hnz]

end Revision

end DocumentDb
