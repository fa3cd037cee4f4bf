import DocumentDb.Document.Basic
import DocumentDb.Json.Record
import DocumentDb.Json.Reread

/-! # Documents as JSON values

The form in which revisions, documents, rows, entries of the log and counters are stored and sent
between programs: a record each, revisions as their texts, and empty parts left out.
-/

namespace DocumentDb

namespace Revision

/-- A revision as a value. -/
def encode (r : Revision) : Json := .string r.text

/-- The revision that a value holds. -/
def decode? (v : Json) : Option Revision := v.string?.bind parse?

end Revision

namespace Document

/-- A document as a value. -/
def encode (d : Document) : Json :=
  .object ([("id", .string d.id), ("rev", d.rev.encode), ("deleted", .bool d.deleted),
    ("body", d.body)] ++
    (if d.conflicts.isEmpty then []
    else [("conflicts", .array (d.conflicts.map Revision.encode))]))

/-- The document that a value holds. -/
def decode? (v : Json) : Option Document := do
  let f ← v.fields? 5
  let id ← f.required 0 "id" Json.string?
  let rev ← f.required 1 "rev" Revision.decode?
  let deleted ← f.required 2 "deleted" Json.bool?
  let body ← f.required 3 "body" Json.reread?
  let conflicts ← f.withDefault 4 "conflicts" [] (Json.list? Revision.decode?)
  return { id, rev, deleted, body, conflicts }

end Document

namespace Row

/-- A row as a value. -/
def encode (r : Row) : Json :=
  .object ([("id", .string r.id), ("rev", r.rev.encode), ("deleted", .bool r.deleted)] ++
    (match r.doc with
    | none => []
    | some doc => [("doc", doc)]))

/-- The row that a value holds. -/
def decode? (v : Json) : Option Row := do
  let f ← v.fields? 4
  let id ← f.required 0 "id" Json.string?
  let rev ← f.required 1 "rev" Revision.decode?
  let deleted ← f.required 2 "deleted" Json.bool?
  let doc ← f.withDefault 3 "doc" none (Json.nullable? Json.reread?)
  return { id, rev, deleted, doc }

end Row

namespace ChangeEntry

/-- An entry of the log as a value. -/
def encode (e : ChangeEntry) : Json :=
  .object [("seq", .nat e.seq), ("id", .string e.id), ("rev", e.rev.encode),
    ("deleted", .bool e.deleted)]

/-- The entry of the log that a value holds. -/
def decode? (v : Json) : Option ChangeEntry := do
  let f ← v.fields? 4
  let seq ← f.required 0 "seq" Json.nat?
  let id ← f.required 1 "id" Json.string?
  let rev ← f.required 2 "rev" Revision.decode?
  let deleted ← f.required 3 "deleted" Json.bool?
  return { seq, id, rev, deleted }

end ChangeEntry

namespace DbInfo

/-- Counters as a value. -/
def encode (i : DbInfo) : Json :=
  .object [("db_name", .string i.name), ("doc_count", .nat i.docCount),
    ("doc_del_count", .nat i.deletedCount), ("update_seq", .nat i.updateSeq)]

/-- The counters that a value holds. -/
def decode? (v : Json) : Option DbInfo := do
  let f ← v.fields? 4
  let name ← f.required 0 "db_name" Json.string?
  let docCount ← f.required 1 "doc_count" Json.nat?
  let deletedCount ← f.required 2 "doc_del_count" Json.nat?
  let updateSeq ← f.required 3 "update_seq" Json.nat?
  return { name, docCount, deletedCount, updateSeq }

end DbInfo

end DocumentDb
