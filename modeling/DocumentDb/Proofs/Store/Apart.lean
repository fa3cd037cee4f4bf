import DocumentDb.Proofs.Store.Log

/-! # Documents apart

A write reads the tree of its own document, changes that tree, and enters nothing about any other
document into the log. So stores that are alike at a document stay alike at it, whatever their other
documents are.

* `Store.winnersOf`: the log of a document without its numbers, which depend on the other documents.
* `Store.Alike`: stores that have one document in common.
* `Store.Alike.run`: a write to that document, on one store and on the other.
* `Store.Write.alike_of_ne`: a write to another document.
-/

namespace DocumentDb.Store

variable {s s' s'' : Store} {id other : String}

/-- The winners of a document in the order in which they came about, with their flags. -/
def winnersOf (s : Store) (id : String) : List (Revision × Bool) :=
  (s.logOf id).map fun e => (e.rev, e.deleted)

/-- Two stores have one document and its log in common. -/
structure Alike (s s' : Store) (id : String) : Prop where
  tree? : s.tree? id = s'.tree? id
  winnersOf : s.winnersOf id = s'.winnersOf id

namespace Alike

theorem refl (s : Store) (id : String) : s.Alike s id := ⟨rfl, rfl⟩

theorem symm (h : s.Alike s' id) : s'.Alike s id := ⟨h.tree?.symm, h.winnersOf.symm⟩

theorem trans (h : s.Alike s' id) (h' : s'.Alike s'' id) : s.Alike s'' id :=
  ⟨h.tree?.trans h'.tree?, h.winnersOf.trans h'.winnersOf⟩

/-! ## What a write reads -/

theorem tree (h : s.Alike s' id) : s.tree id = s'.tree id := by
  unfold Store.tree
  rw [h.tree?]

theorem winner (h : s.Alike s' id) : s.winner id = s'.winner id := by
  unfold Store.winner
  rw [h.tree?]

theorem contains (h : s.Alike s' id) : s.docs.contains id = s'.docs.contains id :=
  congrArg Option.isSome h.tree?

theorem preparePut (h : s.Alike s' id) (body : Json) (expected : Option Revision) :
    s.preparePut id body expected = s'.preparePut id body expected := by
  have hdeleted : s.isDeleted id = s'.isDeleted id := by
    unfold isDeleted
    rw [h.tree?]
  unfold Store.preparePut parentFor
  rw [h.winner, hdeleted]

/-! ## What a write changes -/

theorem setTree (h : s.Alike s' id) (t : RevTree) :
    (s.setTree id t).Alike (s'.setTree id t) id where
  tree? := by rw [tree?_setTree_self, tree?_setTree_self]
  winnersOf := h.winnersOf

theorem record (h : s.Alike s' id) (before : Option Revision) :
    (s.record id before).Alike (s'.record id before) id := by
  cases ht : s'.tree? id with
  | none => simpa only [Store.record, h.tree?, ht] using h
  | some t =>
    cases hw : t.winner with
    | none => simpa only [Store.record, h.tree?, ht, hw] using h
    | some w =>
      refine ⟨by rw [tree?_record, tree?_record, h.tree?], ?_⟩
      have hlog := h.winnersOf
      unfold Store.winnersOf logOf at hlog ⊢
      rw [log_record (h.tree?.trans ht) hw, log_record ht hw]
      split
      · exact hlog
      · -- The new entries differ in their numbers, which are not among the winners.
        simp [hlog]

end Alike

/-- Two results report the same and leave one document in the same state. -/
structure Agrees {α : Type} (id : String) (r r' : Except Error α × Store) : Prop where
  outcome : r.1 = r'.1
  alike : r.2.Alike r'.2 id

namespace Alike

theorem refuse {α : Type} (h : s.Alike s' id) (e : Error) :
    Agrees id ((.error e : Except Error α), s) (.error e, s') := ⟨rfl, h⟩

theorem finish {α : Type} (h : s.Alike s' id) (before : Option Revision)
    (edited : Except Error α × RevTree) :
    Agrees id (s.finish id before edited) (s'.finish id before edited) := by
  obtain ⟨e | a, t⟩ := edited
  · exact (h.setTree t).refuse e
  · exact ⟨rfl, (h.setTree t).record before⟩

theorem put (h : s.Alike s' id) (body : Json) (expected : Option Revision) :
    Agrees id (s.put id body expected) (s'.put id body expected) := by
  unfold Store.put
  rw [h.preparePut, h.winner, h.tree]
  cases s'.preparePut id body expected with
  | error e => exact h.refuse e
  | ok parent => exact h.finish _ _

theorem delete (h : s.Alike s' id) (expected : Revision) :
    Agrees id (s.delete id expected) (s'.delete id expected) := by
  unfold Store.delete
  rw [h.tree?]
  cases s'.tree? id with
  | none => exact h.refuse .missing
  | some t =>
    dsimp only
    split
    · exact h.refuse .deleted
    · split
      · exact h.refuse .stale
      · exact h.finish _ _

theorem graft (h : s.Alike s' id) (history : List Revision) (deleted : Bool) (body : Json) :
    Agrees id (s.graft id history deleted body) (s'.graft id history deleted body) := by
  unfold Store.graft
  rw [h.tree, h.winner]
  cases checkDocId id with
  | error e => exact h.refuse e
  | ok u =>
    cases history.head? with
    | none => exact h.refuse _
    | some newest =>
      obtain ⟨e | a, t⟩ := (s'.tree id).graft history deleted body
      · exact h.refuse e
      · exact ⟨rfl, (h.setTree t).record _⟩

theorem apply (h : s.Alike s' id) (e : Edit) (newEdits : Bool) :
    Agrees id (s.apply id e newEdits) (s'.apply id e newEdits) := by
  unfold Store.apply
  cases newEdits with
  | false => exact h.graft _ _ _
  | true =>
    cases e.deleted with
    | false => exact h.put _ _
    | true =>
      cases e.rev with
      | some rev => exact h.delete rev
      | none =>
        rw [h.contains]
        exact h.refuse _

/-- Stores that are alike at a document tell a write to it the same and stay alike. -/
theorem run {w : Write} (h : s.Alike s' w.id) : Agrees w.id (w.run s) (w.run s') := by
  cases w with
  | put id body expected => exact h.put body expected
  | delete id expected => exact h.delete expected
  | graft id history deleted body => exact h.graft history deleted body
  | apply id edit newEdits => exact h.apply edit newEdits

end Alike

/-! ## Other documents -/

theorem alike_update_of_ne (hid : other ≠ id) (t : RevTree) : (s.update id t).Alike s other where
  tree? := tree?_update_of_ne s id t hid
  winnersOf := by
    unfold winnersOf
    rw [logOf_update_of_ne hid]

/-- A write leaves every other document and its log as they are. -/
theorem Write.alike_of_ne (w : Write) (hid : other ≠ w.id) : (w.run s).2.Alike s other := by
  obtain h := w.result s
  generalize w.run s = r at h
  cases h with
  | refused e => exact .refl s other
  | accepted => exact alike_update_of_ne hid _

end DocumentDb.Store
