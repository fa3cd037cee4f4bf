import DocumentDb.Revision.Basic

/-! # Revisions that can be named

A revision is named by its text, and not every pair of a generation and a hash has a text that reads
back. Those that do are the ones that a text can spell at all.

* `Revision.Named`: the revisions that texts spell.
* `Revision.parse_text_iff`: a revision reads back from its text exactly if it is one of them.
-/

namespace DocumentDb.Revision

/-- The generation is positive and has 64 bits, and the hash is not empty. -/
structure Named (r : Revision) : Prop where
  positive : 0 < r.generation
  bounded : r.generation ≤ Numeral.max64
  hash : r.hash ≠ ""

theorem parse_eq_ok {s : String} {r : Revision} : parse s = .ok r ↔ parse? s = some r := by
  unfold parse
  cases parse? s with
  | none => simp
  | some r' => simp

/-- Whatever text a revision is read from, it is one that can be named. -/
theorem named_of_parse {s : String} {r : Revision} (h : parse s = .ok r) : r.Named := by
  rw [parse_eq_ok] at h
  unfold parse? at h
  split at h
  · cases h
  · next number hash hcut =>
    split at h
    · cases h
    · next generation hread =>
      split at h
      · cases h
      · next hspelled =>
        obtain ⟨hgeneration, hhash⟩ := not_or.1 hspelled
        cases h
        refine ⟨Nat.pos_of_ne_zero hgeneration, Numeral.read?_le hread, fun hempty => hhash ?_⟩
        exact String.ofList_eq_empty_iff.1 hempty

theorem parse_text_iff {r : Revision} : parse r.text = .ok r ↔ r.Named :=
  ⟨named_of_parse, fun h => parse_text h.positive h.bounded h.hash⟩

end DocumentDb.Revision
