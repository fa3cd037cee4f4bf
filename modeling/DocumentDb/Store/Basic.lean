import DocumentDb.Document.Edit
import DocumentDb.Options.Query
import DocumentDb.RevTree.Basic

/-! # The contents of a database

A store holds a tree of revisions per document and the log of its changes. The log gets an entry
whenever the winner of a document moves; the entry at position `n`, counted from one, has the
sequence number `n`.

* `Store.put`, `Store.delete`: writes on top of the winner.
* `Store.graft`: adds a history without regard to the winner.
* `Store.apply`: the write that an edit asks for.
* `Store.get`, `Store.list`, `Store.changesSince`, `Store.info`: what a store says.

A write gives its result and the store afterwards, also when it fails.
-/

namespace DocumentDb

/-- The documents and the log of a database. -/
structure Store where
  docs : SortedMap String RevTree
  /-- The changes, oldest first. -/
  log : List ChangeEntry

namespace Store

/-- The store without documents. -/
def empty : Store := ⟨.empty, []⟩

instance : Inhabited Store := ⟨empty⟩

/-! ## Observers -/

/-- The number of the latest change, zero before the first. -/
def updateSeq (s : Store) : Nat := s.log.length

/-- The number of documents, deleted ones included. -/
def size (s : Store) : Nat := s.docs.size

/-- Whether the store holds no document. -/
def isEmpty (s : Store) : Bool := s.docs.isEmpty

/-- The tree of a document. -/
def tree? (s : Store) (id : String) : Option RevTree := s.docs.get? id

/-- The tree of a document, empty if there is none. -/
def tree (s : Store) (id : String) : RevTree := (s.tree? id).getD .empty

/-- The winner of a document. -/
def winner (s : Store) (id : String) : Option Revision := (s.tree? id).bind RevTree.winner

/-- Whether the winner of a document is a deletion. -/
def isDeleted (s : Store) (id : String) : Bool := (s.tree? id).any RevTree.isDeleted

@[simp] theorem tree?_empty (id : String) : empty.tree? id = none := rfl

@[simp] theorem updateSeq_empty : empty.updateSeq = 0 := rfl

/-! ## Changes -/

/-- The store with a tree put in the place of a document. -/
def setTree (s : Store) (id : String) (t : RevTree) : Store := { s with docs := s.docs.insert id t }

/-- The store with an entry in its log if the winner of a document has moved. -/
def record (s : Store) (id : String) (before : Option Revision) : Store :=
  match s.tree? id with
  | none => s
  | some t =>
    match t.winner with
    | none => s
    | some rev =>
      if before = some rev then s
      else { s with log := s.log ++ [⟨s.updateSeq + 1, id, rev, t.isDeleted⟩] }

@[simp] theorem tree?_setTree_self (s : Store) (id : String) (t : RevTree) :
    (s.setTree id t).tree? id = some t :=
  s.docs.get?_insert_self id t

theorem tree?_setTree_of_ne (s : Store) {id other : String} (h : other ≠ id) (t : RevTree) :
    (s.setTree id t).tree? other = s.tree? other :=
  s.docs.get?_insert_of_ne h t

@[simp] theorem log_setTree (s : Store) (id : String) (t : RevTree) :
    (s.setTree id t).log = s.log := rfl

/-- Recording touches the log alone. -/
@[simp] theorem docs_record (s : Store) (id : String) (before : Option Revision) :
    (s.record id before).docs = s.docs := by
  unfold record
  split
  · rfl
  · split
    · rfl
    · split <;> rfl

@[simp] theorem tree?_record (s : Store) (id other : String) (before : Option Revision) :
    (s.record id before).tree? other = s.tree? other := by
  simp [tree?]

/-- A winner that has moved is entered under the next number, any other leaves the log alone. -/
theorem log_record {s : Store} {id : String} {t : RevTree} {rev : Revision}
    (ht : s.tree? id = some t) (hw : t.winner = some rev) (before : Option Revision) :
    (s.record id before).log =
      if before = some rev then s.log
      else s.log ++ [⟨s.updateSeq + 1, id, rev, t.isDeleted⟩] := by
  simp only [record, ht, hw]
  split <;> rfl

/-- The store after an edit of one tree: an edit that succeeds is recorded. -/
def finish {α : Type} (s : Store) (id : String) (before : Option Revision)
    (edited : Except Error α × RevTree) : Except Error α × Store :=
  let s' := s.setTree id edited.2
  match edited.1 with
  | .error e => (.error e, s')
  | .ok a => (.ok a, s'.record id before)

/-- The revision that a new one goes on top of, if the expected one is the winner. Nothing is
expected of an absent document, and nothing has to be of a deleted one. -/
def parentFor (s : Store) (id : String) (expected : Option Revision) :
    Except Error (Option Revision) :=
  match s.winner id, expected with
  | none, none => .ok none
  | none, some _ => .error .stale
  | some w, some e => if w = e then .ok (some w) else .error .stale
  | some w, none => if s.isDeleted id then .ok (some w) else .error .stale

/-- Refuses bodies that are no objects. -/
def checkBody (body : Json) : Except Error Unit :=
  if body.isObject then .ok () else .error (.badRequest "document must be a JSON object")

/-- What has to hold before a document is put, and the revision that the new one goes on top of. -/
def preparePut (s : Store) (id : String) (body : Json) (expected : Option Revision) :
    Except Error (Option Revision) := do
  checkDocId id
  checkBody body
  s.parentFor id expected

/-- Creates or updates a document on top of its winner. -/
def put (s : Store) (id : String) (body : Json) (expected : Option Revision) :
    Except Error Revision × Store :=
  match s.preparePut id body expected with
  | .error e => (.error e, s)
  | .ok parent => s.finish id (s.winner id) ((s.tree id).insertEdit parent false body)

/-- Deletes a document on top of its winner. -/
def delete (s : Store) (id : String) (expected : Revision) : Except Error Revision × Store :=
  match s.tree? id with
  | none => (.error .missing, s)
  | some t =>
    if t.isDeleted then (.error .deleted, s)
    else if t.winner ≠ some expected then (.error .stale, s)
    else s.finish id t.winner (t.insertEdit (some expected) true .emptyObject)

/-- Adds a history to a document, newest revision first, whose head carries the body. -/
def graft (s : Store) (id : String) (history : List Revision) (deleted : Bool) (body : Json) :
    Except Error Revision × Store :=
  match checkDocId id, history.head? with
  | .error e, _ => (.error e, s)
  | .ok (), none => (.error (.badRequest "replicated edit needs a revision"), s)
  | .ok (), some newest =>
    match (s.tree id).graft history deleted body with
    | (.error e, _) => (.error e, s)
    | (.ok (), t) => (.ok newest, (s.setTree id t).record id (s.winner id))

/-- The history of a replicated edit: its revision alone where it gives none. -/
def historyOf (e : Edit) : List Revision := if e.history.isEmpty then e.rev.toList else e.history

/-- The write that an edit asks for: a put or a deletion if it is a new edit, else a graft. -/
def apply (s : Store) (id : String) (e : Edit) (newEdits : Bool) : Except Error Revision × Store :=
  if !newEdits then s.graft id (historyOf e) e.deleted e.body
  else if !e.deleted then s.put id e.body e.rev
  else
    match e.rev with
    | some rev => s.delete id rev
    | none => (.error (if s.docs.contains id then .stale else .missing), s)

/-! ## Reading -/

/-- The revision that is asked for with what is known about it; the winner if none is named. -/
def select (t : RevTree) : Option Revision → Except Error (Revision × RevTree.Node)
  | some rev =>
    match t.get? rev with
    | some node => .ok (rev, node)
    | none => .error .missing
  | none =>
    match t.winning with
    | none => .error .missing
    | some (rev, node) => if node.deleted then .error .deleted else .ok (rev, node)

/-- A revision of a document, its winner if none is named. -/
def get (s : Store) (id : String) (rev : Option Revision) (conflicts : Bool) :
    Except Error Document := do
  let some t := s.tree? id | throw .missing
  let (rev, node) ← select t rev
  let some body := node.body | throw .missing
  return {
    id := id
    rev := rev
    deleted := node.deleted
    body := body
    conflicts := if conflicts then t.conflicts else [] }

/-- The row of a document. -/
def row? (includeDocs : Bool) (doc : String × RevTree) : Option Row :=
  doc.2.winning.map fun (rev, node) =>
    { id := doc.1, rev := rev, deleted := node.deleted
      doc := if includeDocs then node.body else none }

/-- The documents between two bounds, in ascending order. -/
def range (s : Store) (low high : Bound) : List (String × RevTree) :=
  s.docs.toList.filter fun d => low.admitsAbove d.1 && high.admitsBelow d.1

/-- The first elements of a list, all of them without a limit. -/
def atMost {α : Type} (limit : Option Nat) (xs : List α) : List α :=
  match limit with
  | none => xs
  | some n => xs.take n

/-- The enumeration that a query asks for. -/
def list (s : Store) (q : ListingQuery) : Listing :=
  match q.keyRange with
  | none => ⟨s.size, q.skip, []⟩
  | some (low, high) =>
    let found := s.range low high
    let found := if q.descending then found.reverse else found
    ⟨s.size, q.skip, (atMost q.limit (found.drop q.skip)).filterMap (row? q.includeDocs)⟩

/-- The changes after a sequence number. -/
def changesSince (s : Store) (since : Nat) (limit : Option Nat) : List ChangeEntry :=
  atMost limit (s.log.drop since)

/-- The counters of the store of a database. -/
def info (s : Store) (name : String) : DbInfo :=
  let deleted := s.docs.values.countP RevTree.isDeleted
  { name := name, docCount := s.size - deleted, deletedCount := deleted
    updateSeq := s.updateSeq }

end Store

end DocumentDb
