import DocumentDb.Proofs.Json.Reading
import DocumentDb.Proofs.Server.Posted
import DocumentDb.Proofs.SortedMap.Keys

/-! # The ways of a revision into a server

A revision comes in as a text: on its own, as the value of an option, and as a member of a document.
An option is taken for JSON where it can be, and the text of a revision cannot: it begins with a
number, which ends at the dash, and nothing may follow a number there. So all three ways lead to the
revision whose text it is.

* `Revision.parse?_eq_none`: the text of a revision is no JSON.
* `Options.get?_ofQuery`: the last value of an option counts.
* `Edit.ofMembers_insert_rev`: a document with the text of a revision among its members.
* `Revision.read_every_way`: all ways in, and which revisions come in at all.
-/

namespace DocumentDb

variable {r : Revision}

/-! ## The value of an option -/

namespace Revision

/-- The dash ends the number in front of it. -/
theorem ends_dash (hash : List Char) : Json.Ends ('-' :: hash) :=
  Json.ends_cons (by decide) (by decide) hash

theorem parse?_eq_none (h : r.generation ≤ Numeral.max64) : Json.parse? r.text = none := by
  have hscan : Json.scanValue .strict (Json.fuelFor r.text.toList) Json.Rules.strict.depth
      r.text.toList = some (.number (.nat r.generation), '-' :: r.hash.toList) := by
    rw [toList_text]
    exact Json.scanValue_nat h (ends_dash r.hash.toList)
  unfold Json.parse? Json.parseChars?
  rw [hscan]
  rfl

end Revision

namespace Options

theorem queryValue_text (h : r.generation ≤ Numeral.max64) :
    queryValue r.text = .string r.text := by
  unfold queryValue
  rw [Revision.parse?_eq_none h]
  rfl

theorem get?_ofQuery {key text : String} (before : List (String × String))
    {after : List (String × String)} (hafter : ∀ p ∈ after, p.1 ≠ key) :
    (ofQuery (before ++ (key, text) :: after)).get? key = some (queryValue text) := by
  have hlater : ∀ e ∈ after.map fun p => (p.1, queryValue p.2), e.1 ≠ key := by
    intro e he
    obtain ⟨p, hp, rfl⟩ := List.mem_map.1 he
    exact hafter p hp
  show Entries.get? key (Entries.ofList _) = _
  rw [List.map_append, List.map_cons, Entries.get?_ofList_last _ _ hlater]

end Options

theorem Server.revOption_ofQuery (h : r.Named) (before : List (String × String))
    {after : List (String × String)} (hafter : ∀ p ∈ after, p.1 ≠ "rev") :
    revOption (.ofQuery (before ++ ("rev", r.text) :: after)) = .ok (some r) := by
  have hvalue : (Options.ofQuery (before ++ ("rev", r.text) :: after)).get? "rev" =
      some (.string r.text) := by
    rw [Options.get?_ofQuery before hafter, Options.queryValue_text h.bounded]
  have hstring : (Options.ofQuery (before ++ ("rev", r.text) :: after)).getString "rev" =
      .ok (some r.text) := by
    unfold Options.getString
    rw [hvalue]
  unfold revOption
  rw [hstring]
  show (Revision.parse r.text >>= fun rev => pure (some rev)) = _
  rw [Revision.parse_text_iff.2 h]
  rfl

/-! ## A member of a document -/

namespace Edit

variable {entries : List (String × Json)} {e : Edit}

theorem readRev_text (h : r.Named) : readRev (some (.string r.text)) = .ok (some r) := by
  show (Revision.parse r.text).map some = _
  rw [Revision.parse_text_iff.2 h]
  rfl

theorem rev_of_text (h : r.Named) (hrev : Entries.get? "_rev" entries = some (.string r.text))
    (he : ofMembers entries = .ok e) : e.rev = some r := by
  obtain ⟨given, hreading⟩ := ofMembers_eq_ok.1 he
  exact hreading.names_iff.1 (.text hrev (Revision.parse_text_iff.2 h))

/-- A document asks for the same edit with the text of a revision among its members, on top of this
revision. A history that it lists has to end at it. -/
theorem ofMembers_insert_rev (h : r.Named) (he : ofMembers entries = .ok e)
    (hhead : ∀ newest ∈ e.history.head?, newest = r) :
    ofMembers (Entries.insert "_rev" (.string r.text) entries) = .ok { e with rev := some r } := by
  obtain ⟨given, hreading⟩ := ofMembers_eq_ok.1 he
  have hkept : ∀ name, name ≠ "_rev" →
      Entries.get? name (Entries.insert "_rev" (.string r.text) entries) =
        Entries.get? name entries :=
    fun name hname => Entries.get?_insert_of_ne hname _ _
  have hbody : bodyMembers (Entries.insert "_rev" (.string r.text) entries) = bodyMembers entries :=
    bodyMembers_insert (by decide) _ _
  refine ofMembers_eq_ok.2 ⟨some r, ?_, ?_, ?_, ?_, ?_, ?_, ?_⟩
  · rw [hkept "_id" (by decide)]
    exact hreading.id
  · rw [Entries.get?_insert_self]
    exact readRev_text h
  · rw [hkept "_deleted" (by decide)]
    exact hreading.deleted
  · rw [hkept "_revisions" (by decide)]
    exact hreading.history
  · rw [hbody]
    exact hreading.special
  · show settleRev (some r) e.history.head? = .ok (some r)
    cases hnewest : e.history.head? with
    | none => rfl
    | some newest =>
      rw [hhead newest hnewest]
      exact if_pos rfl
  · rw [hbody]
    exact hreading.body

end Edit

/-! ## All ways in -/

namespace Revision

/-- A revision that has a text which reads back comes in by all three ways: by its text, by the last
`rev` of a query, and by the `_rev` of a document, which is accepted if it was without it, or with
another one, and lists no history of another revision. And whatever a text is read as has a text
which reads back. -/
theorem read_every_way (h : r.Named) :
    parse r.text = .ok r ∧ Options.queryValue r.text = .string r.text ∧
    (∀ before after : List (String × String), (∀ p ∈ after, p.1 ≠ "rev") →
      Server.revOption (.ofQuery (before ++ ("rev", r.text) :: after)) = .ok (some r)) ∧
    (∀ entries e, Entries.get? "_rev" entries = some (.string r.text) →
      Edit.ofWire (.members entries) = .ok e → e.rev = some r) ∧
    (∀ entries e, Edit.ofWire (.members entries) = .ok e →
      (∀ newest ∈ e.history.head?, newest = r) →
      Edit.ofWire (.members (Entries.insert "_rev" (.string r.text) entries)) =
        .ok { e with rev := some r }) ∧
    ∀ s r', parse s = .ok r' → r'.Named ∧ parse r'.text = .ok r' := by
  refine ⟨parse_text_iff.2 h, Options.queryValue_text h.bounded,
    fun before after hafter => Server.revOption_ofQuery h before hafter,
    fun entries e hrev he => Edit.rev_of_text h hrev he,
    fun entries e he hhead => Edit.ofMembers_insert_rev h he hhead, ?_⟩
  intro s r' hs
  have hnamed := named_of_parse hs
  exact ⟨hnamed, parse_text_iff.2 hnamed⟩

/-- The greatest generation, with a hash that holds a dash, a quote and a newline. -/
theorem dashed_read_every_way :
    let r : Revision := ⟨18446744073709551615, "-\"\n-1"⟩
    r.Named ∧ Server.revOption (.ofQuery [("rev", "1-a"), ("rev", r.text), ("conflicts", "true")]) =
        .ok (some r) ∧
      Edit.ofWire (.members [("_id", .string "a"), ("_rev", .string r.text)]) =
        .ok (.put "a" .emptyObject (some r)) := by
  intro r
  have hnamed : r.Named := ⟨by decide, by decide, by decide⟩
  obtain ⟨-, -, hoption, -, hdocument, -⟩ := read_every_way hnamed
  refine ⟨hnamed, hoption [("rev", "1-a")] [("conflicts", "true")] (by decide), ?_⟩
  have hinsert : Entries.insert "_rev" (.string r.text) [("_id", Json.string "a")] =
      [("_id", .string "a"), ("_rev", .string r.text)] := by
    have hafter : compare "_rev" "_id" = .gt := by decide
    simp [Entries.insert, hafter]
  rw [← hinsert]
  exact hdocument [("_id", .string "a")] (.put "a" .emptyObject none) rfl (by simp [Edit.put])

end Revision

end DocumentDb
