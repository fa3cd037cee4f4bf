import DocumentDb.IdSupply
import DocumentDb.Store.Basic

/-! # Bulk writes

A bulk write applies its edits one after the other and gives an outcome for each. An edit without an
id gets a fresh one if it is a new edit, and is refused otherwise.
-/

namespace DocumentDb

/-- The outcome of one edit of a bulk write. -/
structure BulkResult where
  id : String
  outcome : Except Error Revision

namespace Bulk

/-- An edit with the id under which it is applied. -/
structure Item where
  /-- None for an edit that cannot be applied for want of an id. -/
  id : Option String
  edit : Edit

/-- The items of some edits; fresh ids are given out in their order. -/
def assign (newEdits : Bool) : List Edit → IdSupply → List Item × IdSupply
  | [], ids => ([], ids)
  | e :: es, ids =>
    match e.id, newEdits with
    | none, true =>
      let (id, ids) := ids.next
      let (items, ids) := assign newEdits es ids
      (⟨some id, e⟩ :: items, ids)
    | id, _ =>
      let (items, ids) := assign newEdits es ids
      (⟨id, e⟩ :: items, ids)

/-- The outcome of one item and the store afterwards. -/
def applyItem (newEdits : Bool) (s : Store) (item : Item) : BulkResult × Store :=
  match item.id with
  | none => (⟨"", .error (.badRequest "replicated edits need a document id")⟩, s)
  | some id =>
    let (outcome, s) := s.apply id item.edit newEdits
    (⟨id, outcome⟩, s)

/-- The outcomes of some items and the store afterwards. -/
def applyAll (newEdits : Bool) : Store → List Item → List BulkResult × Store
  | s, [] => ([], s)
  | s, item :: items =>
    let (result, s) := applyItem newEdits s item
    let (results, s) := applyAll newEdits s items
    (result :: results, s)

end Bulk

end DocumentDb
