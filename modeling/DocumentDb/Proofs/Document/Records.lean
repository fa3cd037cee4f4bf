import DocumentDb.Document.Codec
import DocumentDb.Proofs.Json.Rereading
import DocumentDb.Proofs.Revision.Naming

/-! # Records that are read again

A document, a row and an entry of the log are handed on as a record each, and a record is read again
field by field. Ids and flags come back as they are. A revision comes back if it can be named. A
body is a value that is read once more, and where a row has none there is no field for it, so a row
whose body is null comes back without one.

* `Revision.decode?_encode_iff`, `Revision.list?_encode_iff`, `Json.nullable?_reread?_iff`: fields.
* `Document.decode?_encode`, `Row.decode?_encode`, `ChangeEntry.decode?_encode`: what comes back.
* `Document.decode?_encode_iff`, `Row.decode?_encode_iff`, `ChangeEntry.decode?_encode_iff`: when it
  is what was handed on.
-/

namespace DocumentDb

/-! ## Fields -/

namespace Json

theorem fields?_object (count : Nat) (members : List (String × Json)) :
    (object members).fields? count = some (.named (Entries.ofList members)) := rfl

theorem Fields.slot_ofList (members : List (String × Json)) (i : Nat) (name : String) :
    (Fields.named (Entries.ofList members)).slot i name = Entries.get? name members.reverse :=
  Entries.get?_ofList members name

/-- The null that a body can be is taken for a body that is not there. -/
theorem nullable?_reread?_iff {v : Json} :
    nullable? reread? v = some (some v) ↔ v ≠ null ∧ v.Literal := by
  rw [← reread?_eq_self_iff]
  cases v with
  | null => simp [nullable?]
  | bool | number | string | array | members => simp [nullable?]

end Json

namespace Revision

theorem decode?_encode_iff {r : Revision} : decode? r.encode = some r ↔ r.Named := by
  unfold decode? encode
  rw [Json.string?, Option.bind_some, ← parse_eq_ok, parse_text_iff]

theorem list?_encode_iff {revs : List Revision} :
    Json.list? decode? (.array (revs.map encode)) = some revs ↔ ∀ r ∈ revs, r.Named := by
  show (revs.map encode).mapM decode? = some revs ↔ _
  induction revs with
  | nil => simp
  | cons r revs ih =>
    rw [List.forall_mem_cons, ← ih, ← decode?_encode_iff, List.map_cons, List.mapM_cons]
    simp [Option.bind_eq_some_iff]

end Revision

/-! ## Records -/

namespace Document

theorem decode?_encode (d : Document) :
    decode? d.encode = do
      let rev ← Revision.decode? d.rev.encode
      let body ← d.body.reread?
      let conflicts ← Json.list? Revision.decode? (.array (d.conflicts.map Revision.encode))
      return { d with rev, body, conflicts } := by
  unfold decode? encode
  rw [Json.fields?_object]
  -- An empty list has no field, and none is read where the field is absent.
  cases d.conflicts with
  | nil =>
    simp [Json.Fields.required, Json.Fields.withDefault, Json.Fields.slot_ofList,
      Entries.get?_cons, Json.string?, Json.bool?, Json.list?]
  | cons r revs =>
    simp [Json.Fields.required, Json.Fields.withDefault, Json.Fields.slot_ofList,
      Entries.get?_cons, Json.string?, Json.bool?]

theorem decode?_encode_iff {d : Document} :
    decode? d.encode = some d ↔ (∀ r ∈ d.rev :: d.conflicts, r.Named) ∧ d.body.Literal := by
  rw [decode?_encode, List.forall_mem_cons, ← Revision.decode?_encode_iff,
    ← Revision.list?_encode_iff, ← Json.reread?_eq_self_iff, and_right_comm, and_assoc]
  obtain ⟨id, rev, deleted, body, conflicts⟩ := d
  simp [Option.bind_eq_some_iff]

end Document

namespace Row

theorem decode?_encode (r : Row) :
    decode? r.encode = do
      let rev ← Revision.decode? r.rev.encode
      let doc ← r.doc.elim (some none) (Json.nullable? Json.reread?)
      return { r with rev, doc } := by
  unfold decode? encode
  rw [Json.fields?_object]
  cases r.doc with
  | none =>
    simp [Json.Fields.required, Json.Fields.withDefault, Json.Fields.slot_ofList,
      Entries.get?_cons, Json.string?, Json.bool?]
  | some body =>
    simp [Json.Fields.required, Json.Fields.withDefault, Json.Fields.slot_ofList,
      Entries.get?_cons, Json.string?, Json.bool?]

/-- A body that is null is read as the absence of one. -/
theorem decode?_encode_null {r : Row} (hrev : r.rev.Named) (hdoc : r.doc = some .null) :
    decode? r.encode = some { r with doc := none } := by
  rw [decode?_encode, Revision.decode?_encode_iff.2 hrev, hdoc]
  rfl

theorem decode?_encode_iff {r : Row} :
    decode? r.encode = some r ↔ r.rev.Named ∧ ∀ body ∈ r.doc, body ≠ .null ∧ body.Literal := by
  rw [decode?_encode, ← Revision.decode?_encode_iff]
  obtain ⟨id, rev, deleted, doc⟩ := r
  cases doc with
  | none => simp [Option.bind_eq_some_iff]
  | some body => simp [Option.bind_eq_some_iff, ← Json.nullable?_reread?_iff]

end Row

namespace ChangeEntry

theorem decode?_encode (e : ChangeEntry) :
    decode? e.encode = do
      let rev ← Revision.decode? e.rev.encode
      return { e with rev } := by
  unfold decode? encode
  rw [Json.fields?_object]
  simp [Json.Fields.required, Json.Fields.slot_ofList, Entries.get?_cons, Json.string?, Json.bool?,
    Json.nat?, Json.nat]

theorem decode?_encode_iff {e : ChangeEntry} : decode? e.encode = some e ↔ e.rev.Named := by
  rw [decode?_encode, ← Revision.decode?_encode_iff]
  obtain ⟨seq, id, rev, deleted⟩ := e
  simp [Option.bind_eq_some_iff]

end ChangeEntry

end DocumentDb
