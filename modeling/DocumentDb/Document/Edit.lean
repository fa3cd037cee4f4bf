import DocumentDb.Document.Basic
import DocumentDb.Json.Record

/-! # Edits

An edit asks for a write: a new revision on top of another, or, with a history, a revision that
exists elsewhere.

* `Edit.put`, `Edit.delete`, `Edit.replicated`: the three kinds.
* `Edit.ofWire`: the edit that a document in its wire form asks for.
-/

namespace DocumentDb

/-- A write that is asked for. -/
structure Edit where
  /-- The document; one with a fresh id where there is none. -/
  id : Option String
  /-- The revision that is edited or, for a replicated edit, the revision itself. -/
  rev : Option Revision
  deleted : Bool
  body : Json
  /-- The revision and its ancestors, newest first, for a replicated edit. -/
  history : List Revision

namespace Edit

/-- A creation or an update. -/
def put (id : String) (body : Json) (rev : Option Revision) : Edit where
  id := some id
  rev := rev
  deleted := false
  body := body
  history := []

/-- A deletion of a revision. -/
def delete (id : String) (rev : Revision) : Edit where
  id := some id
  rev := some rev
  deleted := true
  body := .emptyObject
  history := []

/-- A revision that exists elsewhere, with its ancestors. -/
def replicated (id : String) (history : List Revision) (deleted : Bool) (body : Json) : Edit where
  id := some id
  rev := history.head?
  deleted := deleted
  body := body
  history := history

/-! ## Ancestry -/

/-- A history in its wire form: the newest generation, and the hashes from the newest on. -/
structure Ancestry where
  start : Nat
  ids : List String

/-- What a value is, as messages put it. -/
def describe : Json → String
  | .null => "null"
  | .bool b => "boolean `" ++ (if b then "true" else "false") ++ "`"
  | .number (.float x) =>
    "floating point `" ++ String.ofList (Json.Number.chars (.float x)) ++ "`"
  | .number n => "integer `" ++ String.ofList n.chars ++ "`"
  | .string s => "string " ++ Text.quoted s
  | .array _ => "sequence"
  | .members _ => "map"

/-- The message for a value of another kind than the expected one. -/
def wrongKind (v : Json) (expected : String) : String :=
  "invalid type: " ++ describe v ++ ", expected " ++ expected

/-- The message for a list of another length than the expected one. -/
def wrongLength (n : Nat) (expected : String) : String :=
  "invalid length " ++ Numeral.text n ++ ", expected " ++ expected

namespace Ancestry

/-- The newest generation. -/
def readStart : Json → Except String Nat
  | .number (.nat n) => .ok n
  | .number (.neg n) =>
    .error ("invalid value: integer `" ++ String.ofList (Json.Number.chars (.neg n)) ++
      "`, expected u64")
  | v => .error (wrongKind v "u64")

/-- One hash. -/
def readHash : Json → Except String String
  | .string s => .ok s
  | v => .error (wrongKind v "a string")

/-- The hashes. -/
def readIds : Json → Except String (List String)
  | .array items => items.mapM readHash
  | v => .error (wrongKind v "a sequence")

/-- A member that has to be there. -/
def present {α : Type} (name : String) : Option α → Except String α
  | some v => .ok v
  | none => .error ("missing field `" ++ name ++ "`")

/-- The ancestry in an object; the hashes are looked at first. -/
def readMembers (entries : List (String × Json)) : Except String Ancestry := do
  let ids ← (Entries.get? "ids" entries).mapM readIds
  let start ← (Entries.get? "start" entries).mapM readStart
  return { start := ← present "start" start, ids := ← present "ids" ids }

/-- The ancestry in an array of its two parts. -/
def readItems : List Json → Except String Ancestry
  | [] => .error (wrongLength 0 "struct Revisions with 2 elements")
  | start :: rest => do
    let start ← readStart start
    match rest with
    | [] => .error (wrongLength 1 "struct Revisions with 2 elements")
    | ids :: more =>
      let ids ← readIds ids
      if more.isEmpty then return ⟨start, ids⟩
      else .error (wrongLength (2 + more.length) "fewer elements in array")

/-- The ancestry that a value holds, or what is wrong with it. -/
def read : Json → Except String Ancestry
  | .members entries => readMembers entries
  | .array items => readItems items
  | v => .error (wrongKind v "struct Revisions")

/-- The revisions of some hashes, the first of which has the given generation. -/
def descend : Nat → List String → List Revision
  | _, [] => []
  | n, hash :: older => ⟨n, hash⟩ :: descend (n - 1) older

/-- The revisions of an ancestry, newest first. -/
def history (a : Ancestry) : List Revision := descend a.start a.ids

end Ancestry

/-! ## The wire form -/

/-- The id that a document names. -/
def readId : Option Json → Except Error (Option String)
  | none => .ok none
  | some (.string id) => .ok (some id)
  | some _ => .error (.badRequest "document id must be a string")

/-- The revision that a document names. -/
def readRev : Option Json → Except Error (Option Revision)
  | none => .ok none
  | some .null => .ok none
  | some (.string rev) => (Revision.parse rev).map some
  | some _ => .error (.badRequest "_rev must be a string")

/-- Whether a document says that it is deleted. -/
def readDeleted : Option Json → Except Error Bool
  | none => .ok false
  | some (.bool deleted) => .ok deleted
  | some _ => .error (.badRequest "_deleted must be a boolean")

/-- The history that a document gives. -/
def readHistory : Option Json → Except Error (List Revision)
  | none => .ok []
  | some v =>
    match Ancestry.read v with
    | .error reason => .error (.badRequest ("invalid _revisions: " ++ reason))
    | .ok a =>
      if a.start < a.ids.length then
        .error (.badRequest "_revisions.start is smaller than its history")
      else .ok a.history

/-- The special members that an edit may have. -/
def specialNames : List String := ["_id", "_rev", "_deleted", "_revisions"]

/-- The members that are no special ones. -/
def bodyMembers (entries : List (String × Json)) : List (String × Json) :=
  entries.filter fun e => !specialNames.contains e.1

/-- Refuses a body with a reserved name among its members. -/
def checkBody (entries : List (String × Json)) : Except Error Unit :=
  match entries.find? fun e => isReserved e.1 with
  | some (name, _) => .error (.badRequest ("bad special document member: " ++ name))
  | none => .ok ()

/-- The revision of an edit: that of its history, which a given one has to agree with. -/
def settleRev : Option Revision → Option Revision → Except Error (Option Revision)
  | some rev, some newest =>
    if rev = newest then .ok (some rev) else .error (.badRequest "_rev does not match _revisions")
  | none, some newest => .ok (some newest)
  | rev, none => .ok rev

/-- The edit that the members of a document ask for. -/
def ofMembers (entries : List (String × Json)) : Except Error Edit := do
  let id ← readId (Entries.get? "_id" entries)
  let rev ← readRev (Entries.get? "_rev" entries)
  let deleted ← readDeleted (Entries.get? "_deleted" entries)
  let history ← readHistory (Entries.get? "_revisions" entries)
  let body := bodyMembers entries
  checkBody body
  let rev ← settleRev rev history.head?
  return { id, rev, deleted, body := .members body, history }

/-- The edit that a document in its wire form asks for. -/
def ofWire : Json → Except Error Edit
  | .members entries => ofMembers entries
  | _ => .error (.badRequest "document must be a JSON object")

end Edit

end DocumentDb
