import DocumentDb.Document.Edit
import DocumentDb.Proofs.Json.Proper
import DocumentDb.Proofs.SortedMap.Keys

/-! # The members of a document in its wire form

The special members and those of the body are put into one object, where a member of the body takes
the place of a special one of the same name. A body without reserved names leaves every special
member in its place.

* `Unreserved`, `Json.IsBody`: bodies without reserved names.
* `Document.get?_toWire`: a member of the wire form is one of the body or else a special one.
* `Document.Shown`, `Document.shown_of_isBody`: what a document with such a body shows.
-/

namespace DocumentDb

/-! ## Bodies -/

/-- No member has a reserved name. -/
def Unreserved (entries : List (String × Json)) : Prop := ∀ e ∈ entries, isReserved e.1 = false

/-- A value is an object none of whose members has a reserved name. -/
inductive Json.IsBody : Json → Prop where
  | members {entries : List (String × Json)} (h : Unreserved entries) : IsBody (.members entries)

instance (entries : List (String × Json)) : Decidable (Unreserved entries) :=
  inferInstanceAs (Decidable (∀ e ∈ entries, isReserved e.1 = false))

instance : (v : Json) → Decidable v.IsBody
  | .members entries => decidable_of_iff (Unreserved entries) ⟨.members, fun ⟨h⟩ => h⟩
  | .null | .bool _ | .number _ | .string _ | .array _ => isFalse nofun

/-- The check of a wire form refuses exactly the bodies with a reserved name. -/
theorem Edit.checkBody_eq_ok {entries : List (String × Json)} :
    checkBody entries = .ok () ↔ Unreserved entries := by
  unfold checkBody Unreserved
  cases hfound : entries.find? fun e => isReserved e.1 with
  | none => simpa using List.find?_eq_none.1 hfound
  | some e =>
    have hreserved := List.find?_some hfound
    have hmem : e ∈ entries := List.mem_of_find?_eq_some hfound
    constructor
    · intro h
      cases h
    · intro h
      rw [h e hmem] at hreserved
      cases hreserved

theorem Unreserved.get?_eq_none {entries : List (String × Json)} (h : Unreserved entries)
    (hordered : Entries.Ordered entries) {name : String} (hname : isReserved name = true) :
    Entries.get? name entries = none := by
  cases hget : Entries.get? name entries with
  | none => rfl
  | some v =>
    have hfree : isReserved name = false := h (name, v) (hordered.get?_eq_some_iff.1 hget)
    rw [hname] at hfree
    cases hfree

theorem Json.IsBody.get?_eq_none {v : Json} (h : v.IsBody) (hv : v.Proper) {name : String}
    (hname : isReserved name = true) : v.get? name = none := by
  cases h with
  | members h =>
    cases hv with
    | members hordered _ => exact h.get?_eq_none hordered hname

/-! ## The wire form -/

namespace Document

variable {d : Document}

theorem get?_special (d : Document) (name : String) :
    Entries.get? name (Entries.ofList d.specialMembers) =
      if name = "_id" then some (.string d.id)
      else if name = "_rev" then some (.string d.rev.text)
      else if name = "_deleted" then if d.deleted then some (.bool true) else none
      else if name = "_conflicts" then
        if d.conflicts.isEmpty then none else some (revisionsJson d.conflicts)
      else none := by
  rw [Entries.get?_ofList]
  unfold specialMembers
  cases d.deleted <;> cases d.conflicts.isEmpty <;> simp [Entries.get?_cons] <;> grind

theorem get?_object_append {entries : List (String × Json)} (h : Entries.Ordered entries)
    (name : String) :
    Entries.get? name (Entries.ofList (d.specialMembers ++ entries)) =
      (Entries.get? name entries).or (Entries.get? name (Entries.ofList d.specialMembers)) := by
  unfold Entries.ofList
  rw [List.foldl_append]
  exact h.get?_foldl_insert _ name

theorem get?_toWire (h : d.body.Proper) (name : String) :
    d.toWire.get? name =
      (d.body.get? name).or (Entries.get? name (Entries.ofList d.specialMembers)) := by
  unfold toWire
  cases hbody : d.body with
  | members entries =>
    rw [hbody] at h
    cases h with
    | members hordered _ => exact get?_object_append hordered name
  | null | bool | number | string | array => rfl

/-- The wire form tells the id, the revision and whether it is a deletion, and it has the members of
the body as they are. -/
structure Shown (d : Document) : Prop where
  id : d.toWire.get? "_id" = some (.string d.id)
  rev : d.toWire.get? "_rev" = some (.string d.rev.text)
  deleted : d.toWire.get? "_deleted" = if d.deleted then some (.bool true) else none
  body : ∀ {name v}, d.body.get? name = some v → d.toWire.get? name = some v

theorem shown_of_isBody (h : d.body.IsBody) (hproper : d.body.Proper) : d.Shown := by
  have hspecial : ∀ {name}, isReserved name = true →
      d.toWire.get? name = Entries.get? name (Entries.ofList d.specialMembers) := by
    intro name hname
    rw [get?_toWire hproper, h.get?_eq_none hproper hname, Option.none_or]
  refine ⟨?_, ?_, ?_, fun hv => ?_⟩
  · rw [hspecial (by decide), get?_special]
    rfl
  · rw [hspecial (by decide), get?_special]
    rfl
  · rw [hspecial (by decide), get?_special]
    rfl
  · rw [get?_toWire hproper, hv, Option.some_or]

end Document

end DocumentDb
