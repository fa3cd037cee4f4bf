import DocumentDb.Json.RecordBytes
import DocumentDb.Server.Response
import DocumentDb.Store.Bulk

/-! # Bodies of requests and responses

* `Wire.parseBody`, `Wire.BulkRequest.parse`: the values that requests carry.
* `Wire.listing`, `Wire.bulkResult`, `Wire.changes` and others: the values that responses carry.
* `Wire.changeLine`, `Wire.changeLines`: the body of a feed that goes on, one line per entry.
-/

namespace DocumentDb.Wire

/-! ## Requests -/

/-- The value that a body holds. -/
def parseBody (body : List UInt8) : Except Failure Json :=
  match (Utf8.decode? body).bind Json.parse? with
  | some v => .ok v
  | none => .error .malformedBody

/-- What a bulk write asks for. -/
structure BulkRequest where
  docs : List Json
  newEdits : Option Bool

namespace BulkRequest

/-- The bulk write that some bytes spell. -/
def ofBytes? (body : List UInt8) : Option BulkRequest := do
  let f ← Json.Fields.ofBytes? ["docs", "new_edits"] body
  let docs ← f.required 0 "docs" (Json.list? some)
  let newEdits ← f.withDefault 1 "new_edits" none (Json.nullable? Json.bool?)
  return { docs, newEdits }

/-- The bulk write that a body asks for. -/
def parse (body : List UInt8) : Except Failure BulkRequest :=
  match ofBytes? body with
  | some r => .ok r
  | none => .error .malformedBody

end BulkRequest

/-! ## Responses -/

/-- The value that tells of success. -/
def ok : Json := .object [("ok", .bool true)]

/-- The outcome of a write of one document. -/
def written (id : String) (rev : Revision) : Json :=
  .object [("ok", .bool true), ("id", .string id), ("rev", .string rev.text)]

/-- A flag among other members, which is left out if it is false. -/
def deletedMember (deleted : Bool) : List (String × Json) :=
  if deleted then [("deleted", .bool true)] else []

/-- A document of which a row tells. -/
def rowDocument (r : Row) (body : Json) : Json :=
  Document.toWire { id := r.id, rev := r.rev, deleted := r.deleted, body := body, conflicts := [] }

/-- A row of an enumeration. -/
def row (r : Row) : Json :=
  .object ([("id", .string r.id), ("key", .string r.id),
    ("value", .object (("rev", .string r.rev.text) :: deletedMember r.deleted))] ++
    (match r.doc with
    | none => []
    | some body => [("doc", rowDocument r body)]))

/-- An enumeration. -/
def listing (l : Listing) : Json :=
  .object [("total_rows", .nat l.totalRows), ("offset", .nat l.offset),
    ("rows", .array (l.rows.map row))]

/-- The outcome of one edit of a bulk write. -/
def bulkResult (r : BulkResult) : Json :=
  match r.outcome with
  | .ok rev => written r.id rev
  | .error e =>
    let (_, name, reason) := Failure.describe e
    .object [("id", .string r.id), ("error", .string name), ("reason", .string reason)]

/-- What is told of an entry of the log, in the order in which a line tells it. -/
def changeMembers (e : ChangeEntry) : List (String × Json) :=
  [("seq", .nat e.seq), ("id", .string e.id),
    ("changes", .array [.object [("rev", .string e.rev.text)]])] ++ deletedMember e.deleted

/-- An entry of the log. -/
def change (e : ChangeEntry) : Json := .object (changeMembers e)

/-- The entries of a feed that has ended, and where the log ends. -/
def changes (es : List ChangeEntry) (lastSeq : Nat) : Json :=
  .object [("results", .array (es.map change)), ("last_seq", .nat lastSeq)]

/-- The line of an entry in a feed that goes on. -/
def changeLine (e : ChangeEntry) : List Char :=
  '{' :: Json.memberChars (changeMembers e) ++ ['}', '\n']

/-- The lines of some entries. -/
def changeLines (es : List ChangeEntry) : String := String.ofList (es.flatMap changeLine)

end DocumentDb.Wire
