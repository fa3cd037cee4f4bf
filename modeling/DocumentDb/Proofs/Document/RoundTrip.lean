import DocumentDb.Proofs.Document.Members
import DocumentDb.Proofs.Document.Wire

/-! # Documents that are sent and read again

The body of an edit that has been read has no reserved names, so the document that shows it is read
again as the same edit, under the id and the revision that the document shows. A document with
conflicts is not read: they are shown under a reserved name that no edit may have.

* `Edit.isBody_of_ofWire`, `Edit.proper_body`: the body of an edit that has been read.
* `Edit.ofMembers_named`: what is read off members that tell an id and a revision, and no history.
* `Document.bodyMembers_wire`, `Document.checkBody_wire`: the wire form without the special members
  of an edit.
* `Document.ofWire_toWire`, `Edit.shown_reads_back`: reading what is shown.
-/

namespace DocumentDb

namespace Edit

variable {entries : List (String × Json)}

/-! ## Bodies that have been read -/

theorem mem_bodyMembers {e : String × Json} :
    e ∈ bodyMembers entries ↔ e ∈ entries ∧ e.1 ∉ specialNames := by
  simp [bodyMembers]

theorem ordered_bodyMembers (h : Entries.Ordered entries) :
    Entries.Ordered (bodyMembers entries) := List.Pairwise.filter _ h

theorem isReserved_of_special {name : String} (h : name ∈ specialNames) :
    isReserved name = true := by
  revert name
  decide

section
variable {v : Json} {e : Edit}

theorem isBody_of_ofWire (h : ofWire v = .ok e) : e.body.IsBody := by
  obtain ⟨entries, given, -, hreading⟩ := ofWire_eq_ok h
  rw [hreading.body]
  exact .members (checkBody_eq_ok.1 hreading.special)

theorem proper_body (hv : v.Proper) (h : ofWire v = .ok e) : e.body.Proper := by
  obtain ⟨entries, given, rfl, hreading⟩ := ofWire_eq_ok h
  rw [hreading.body]
  cases hv with
  | members hordered hvalues =>
    exact .members (ordered_bodyMembers hordered) fun e he => hvalues e (mem_bodyMembers.1 he).1

end

theorem ofMembers_named {id : String} {r : Revision} {deleted : Bool}
    (hid : Entries.get? "_id" entries = some (.string id))
    (hrev : Entries.get? "_rev" entries = some (.string r.text)) (hr : r.Named)
    (hdeleted : Entries.get? "_deleted" entries = if deleted then some (.bool true) else none)
    (hhistory : Entries.get? "_revisions" entries = none) :
    ofMembers entries = do
      checkBody (bodyMembers entries)
      return ⟨some id, some r, deleted, .members (bodyMembers entries), []⟩ := by
  have hreadRev : readRev (some (.string r.text)) = .ok (some r) := by
    show (Revision.parse r.text).map some = _
    rw [Revision.parse_text_iff.2 hr]
    rfl
  have hreadDeleted : readDeleted (if deleted then some (.bool true) else none) = .ok deleted := by
    cases deleted <;> rfl
  unfold ofMembers
  rw [hid, hrev, hdeleted, hhistory, hreadRev, hreadDeleted]
  rfl

end Edit

/-! ## The wire form of an edit -/

namespace Document

open Edit (bodyMembers checkBody specialNames)

variable {d : Document} {body : List (String × Json)}

theorem get?_special_of_not_mem {name : String} (h : name ∉ specialNames) :
    Entries.get? name (Entries.ofList d.specialMembers) =
      if name = "_conflicts" ∧ d.conflicts ≠ [] then some (revisionsJson d.conflicts)
      else none := by
  simp only [specialNames, List.mem_cons, List.not_mem_nil, or_false, not_or] at h
  rw [get?_special, if_neg h.1, if_neg h.2.1, if_neg h.2.2.1]
  cases d.conflicts <;> simp

/-- The members of the body come back, and the conflicts come with them. -/
theorem mem_bodyMembers_wire (hordered : Entries.Ordered body) {e : String × Json} :
    e ∈ bodyMembers (Entries.ofList (d.specialMembers ++ body)) ↔
      e.1 ∉ specialNames ∧ (Entries.get? e.1 body).or
        (if e.1 = "_conflicts" ∧ d.conflicts ≠ [] then some (revisionsJson d.conflicts)
        else none) = some e.2 := by
  have hget := (Entries.ordered_ofList (d.specialMembers ++ body)).get?_eq_some_iff
    (k := e.1) (v := e.2)
  rw [Edit.mem_bodyMembers, ← hget, get?_object_append hordered, and_comm]
  apply and_congr_right
  intro hname
  rw [get?_special_of_not_mem hname]

theorem bodyMembers_wire (hordered : Entries.Ordered body) (hfree : Unreserved body)
    (h : d.conflicts = []) :
    bodyMembers (Entries.ofList (d.specialMembers ++ body)) = body := by
  refine (Edit.ordered_bodyMembers (Entries.ordered_ofList _)).eq_of_mem_iff hordered fun e => ?_
  rw [mem_bodyMembers_wire hordered, h]
  simp only [ne_eq, not_true_eq_false, and_false, if_false, Option.or_none]
  rw [hordered.get?_eq_some_iff]
  constructor
  · exact fun h => h.2
  · intro he
    refine ⟨fun hspecial => ?_, he⟩
    have hreserved := Edit.isReserved_of_special hspecial
    rw [hfree e he] at hreserved
    cases hreserved

theorem checkBody_wire (hordered : Entries.Ordered body) (hfree : Unreserved body)
    (h : d.conflicts ≠ []) :
    checkBody (bodyMembers (Entries.ofList (d.specialMembers ++ body))) =
      .error (.badRequest "bad special document member: _conflicts") := by
  have hname : "_conflicts" ∉ specialNames := by decide
  have hreserved : isReserved "_conflicts" = true := by decide
  have hmem : ("_conflicts", revisionsJson d.conflicts) ∈
      bodyMembers (Entries.ofList (d.specialMembers ++ body)) := by
    rw [mem_bodyMembers_wire hordered, hfree.get?_eq_none hordered hreserved]
    simp [hname, h]
  unfold checkBody
  cases hfound : (bodyMembers (Entries.ofList (d.specialMembers ++ body))).find?
      fun e => isReserved e.1 with
  | none =>
    have hnone := List.find?_eq_none.1 hfound _ hmem
    rw [hreserved] at hnone
    exact absurd rfl hnone
  | some e =>
    -- The body has no reserved name, so the one that is found is that of the conflicts.
    have hfirst := List.find?_some hfound
    have he := List.mem_of_find?_eq_some hfound
    rw [mem_bodyMembers_wire hordered, hfree.get?_eq_none hordered hfirst, Option.none_or] at he
    obtain ⟨-, he⟩ := he
    split at he
    · next hconflicts =>
      dsimp only
      rw [hconflicts.1]
      rfl
    · cases he

/-- A document whose body has no reserved names is read again as it is shown. -/
theorem ofWire_toWire (hbody : d.body.IsBody) (hproper : d.body.Proper) (hr : d.rev.Named) :
    Edit.ofWire d.toWire =
      if d.conflicts = [] then .ok ⟨some d.id, some d.rev, d.deleted, d.body, []⟩
      else .error (.badRequest "bad special document member: _conflicts") := by
  have hshown : d.Shown := shown_of_isBody hbody hproper
  have hhistory : d.toWire.get? "_revisions" = none := by
    rw [get?_toWire hproper, hbody.get?_eq_none hproper (by decide), d.get?_special]
    rfl
  obtain ⟨id, rev, deleted, value, conflicts⟩ := d
  cases hbody with
  | @members body hfree =>
    cases hproper with
    | members hordered hvalues =>
      show Edit.ofMembers _ = _
      rw [Edit.ofMembers_named hshown.id hshown.rev hr hshown.deleted hhistory]
      split
      · next h =>
        rw [bodyMembers_wire hordered hfree h, Edit.checkBody_eq_ok.2 hfree]
        rfl
      · next h =>
        rw [checkBody_wire hordered hfree h]
        rfl

end Document

namespace Edit

/-- The document that shows an edit which has been read, under any id and any revision that can be
named, is read again as that edit, with the shown revision for its own and without a history. With
conflicts it is refused. -/
theorem shown_reads_back {v : Json} (hv : v.Proper) {e : Edit} (h : ofWire v = .ok e)
    (id : String) {r : Revision} (hr : r.Named) (conflicts : List Revision) :
    ofWire (Document.toWire ⟨id, r, e.deleted, e.body, conflicts⟩) =
      if conflicts = [] then .ok ⟨some id, some r, e.deleted, e.body, []⟩
      else .error (.badRequest "bad special document member: _conflicts") := by
  have hbody : e.body.IsBody := isBody_of_ofWire h
  have hproper : e.body.Proper := proper_body hv h
  exact Document.ofWire_toWire (d := ⟨id, r, e.deleted, e.body, conflicts⟩) hbody hproper hr

/-- A deletion with a body, under a reserved id and a revision of the greatest generation whose hash
is a dash, once without conflicts and once with one. -/
theorem deletion_reads_back :
    let v := Json.object [("_id", .string "a"), ("_deleted", .bool true), ("n", .nat 1)]
    let r : Revision := ⟨Numeral.max64, "-"⟩
    v.Proper ∧ r.Named ∧ ∃ e, ofWire v = .ok e ∧ e.body = .members [("n", .nat 1)] ∧
      ofWire (Document.toWire ⟨"_x", r, e.deleted, e.body, []⟩) =
        .ok ⟨some "_x", some r, true, e.body, []⟩ ∧
      ofWire (Document.toWire ⟨"_x", r, e.deleted, e.body, [r]⟩) =
        .error (.badRequest "bad special document member: _conflicts") := by
  intro v r
  have hv : v.Proper := by
    refine Json.proper_object fun e he => ?_
    simp only [List.mem_cons, List.not_mem_nil, or_false] at he
    obtain rfl | rfl | rfl := he
    · exact .string "a"
    · exact .bool true
    · exact .number (show 1 ≤ Numeral.max64 by decide)
  have hr : r.Named := ⟨by decide, Nat.le_refl _, by decide⟩
  have h : ofWire v = .ok ⟨some "a", none, true, .members [("n", .nat 1)], []⟩ := by rfl
  exact ⟨hv, hr, _, h, rfl, shown_reads_back hv h "_x" hr [], shown_reads_back hv h "_x" hr [r]⟩

end Edit

end DocumentDb
