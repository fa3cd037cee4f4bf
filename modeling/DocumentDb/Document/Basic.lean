import DocumentDb.Revision.Hash

/-! # Documents

* `Document`: one revision of a document with its body; `Document.toWire` is the form in which it is
  sent, with the special members put among those of the body.
* `Row`, `Listing`: an enumeration of documents.
* `ChangeEntry`: an entry of the log of a database; `DbInfo`: its counters.
* `checkDocId`: the ids that a caller may choose.
-/

namespace DocumentDb

/-- Whether a name is reserved: it begins with an underscore. -/
def isReserved (name : String) : Bool := name.toList.head? == some '_'

/-- Refuses the ids that no document may have. -/
def checkDocId (id : String) : Except Error Unit :=
  if id = "" then .error (.badRequest "document id must not be empty")
  else if isReserved id then
    .error (.badRequest "only reserved document ids may start with underscore")
  else .ok ()

/-- One revision of a document. -/
structure Document where
  id : String
  rev : Revision
  /-- Whether the revision is a deletion. -/
  deleted : Bool
  /-- The body, without special members. -/
  body : Json
  /-- The other live leaves, where they were asked for. -/
  conflicts : List Revision

/-- A row of an enumeration of documents. -/
structure Row where
  id : String
  /-- The winner. -/
  rev : Revision
  deleted : Bool
  /-- The body of the winner, where it was asked for. -/
  doc : Option Json

/-- An enumeration of documents. -/
structure Listing where
  /-- The number of all documents. -/
  totalRows : Nat
  /-- The number of rows passed over. -/
  offset : Nat
  rows : List Row

/-- An entry of the log of changes. -/
structure ChangeEntry where
  seq : Nat
  id : String
  /-- The winner after the change. -/
  rev : Revision
  deleted : Bool
deriving DecidableEq

/-- The counters of a database. -/
structure DbInfo where
  name : String
  /-- The documents whose winner is live. -/
  docCount : Nat
  /-- The documents whose winner is a deletion. -/
  deletedCount : Nat
  updateSeq : Nat
deriving DecidableEq

namespace Document

/-- A list of revisions as a value. -/
def revisionsJson (revs : List Revision) : Json := .strings (revs.map Revision.text)

/-- The special members that tell about the revision. -/
def specialMembers (d : Document) : List (String × Json) :=
  [("_id", .string d.id), ("_rev", .string d.rev.text)] ++
    (if d.deleted then [("_deleted", .bool true)] else []) ++
    (if d.conflicts.isEmpty then [] else [("_conflicts", revisionsJson d.conflicts)])

/-- The form in which a document is sent. Members of the body replace special ones. -/
def toWire (d : Document) : Json :=
  match d.body with
  | .members entries => .object (d.specialMembers ++ entries)
  | _ => .object d.specialMembers

end Document

end DocumentDb
