import DocumentDb.Document.Edit
import DocumentDb.Proofs.Json.Proper
import DocumentDb.Proofs.Revision.Naming

/-! # Revisions in the wire form

A document in its wire form names a revision by its text, and it may list the history of this
revision as a number and the hashes alone. What is read from a text can be named again, but the
hashes of a history are taken as they are, also an empty one, and the revision of such a hash has no
text that reads back.

* `Edit.Reading`, `Edit.reading_of_ofMembers`: the parts of a document that is read as an edit.
* `Edit.Ancestry.named_descend`: the revisions of a history.
* `Edit.named_again_iff`: when all revisions of an edit read back from their texts.
* `Edit.empty_hash_unnamed`: a document with a revision that does not.
-/

namespace DocumentDb

theorem Except.bind_eq_ok {ε α β : Type} {x : Except ε α} {f : α → Except ε β} {b : β} :
    x >>= f = .ok b ↔ ∃ a, x = .ok a ∧ f a = .ok b := by
  cases x <;> simp [bind, Except.bind]

namespace Edit

/-! ## The parts of a document -/

/-- The members of a document are read as the parts of an edit, and the revision that it names by a
text is `given`. -/
structure Reading (entries : List (String × Json)) (given : Option Revision) (e : Edit) : Prop where
  id : readId (Entries.get? "_id" entries) = .ok e.id
  rev : readRev (Entries.get? "_rev" entries) = .ok given
  deleted : readDeleted (Entries.get? "_deleted" entries) = .ok e.deleted
  history : readHistory (Entries.get? "_revisions" entries) = .ok e.history
  special : checkBody (bodyMembers entries) = .ok ()
  settled : settleRev given e.history.head? = .ok e.rev
  body : e.body = .members (bodyMembers entries)

theorem reading_of_ofMembers {entries : List (String × Json)} {e : Edit}
    (h : ofMembers entries = .ok e) : ∃ given, Reading entries given e := by
  unfold ofMembers at h
  obtain ⟨id, hid, h⟩ := Except.bind_eq_ok.1 h
  obtain ⟨given, hrev, h⟩ := Except.bind_eq_ok.1 h
  obtain ⟨deleted, hdeleted, h⟩ := Except.bind_eq_ok.1 h
  obtain ⟨history, hhistory, h⟩ := Except.bind_eq_ok.1 h
  obtain ⟨⟨⟩, hspecial, h⟩ := Except.bind_eq_ok.1 h
  obtain ⟨rev, hsettled, h⟩ := Except.bind_eq_ok.1 h
  cases h
  exact ⟨given, hid, hrev, hdeleted, hhistory, hspecial, hsettled, rfl⟩

theorem ofWire_eq_ok {v : Json} {e : Edit} (h : ofWire v = .ok e) :
    ∃ entries given, v = .members entries ∧ Reading entries given e := by
  cases v with
  | members entries =>
    obtain ⟨given, hreading⟩ := reading_of_ofMembers h
    exact ⟨entries, given, rfl, hreading⟩
  | null | bool | number | string | array => cases h

/-! ## Histories -/

namespace Ancestry

theorem readStart_eq_ok {v : Json} {n : Nat} (h : readStart v = .ok n) : v = .number (.nat n) := by
  unfold readStart at h
  split at h
  · cases h
    rfl
  · cases h
  · cases h

theorem start_readMembers {entries : List (String × Json)} {a : Ancestry}
    (h : readMembers entries = .ok a) :
    Entries.get? "start" entries = some (.number (.nat a.start)) := by
  unfold readMembers at h
  obtain ⟨ids, -, h⟩ := Except.bind_eq_ok.1 h
  obtain ⟨start, hstart, h⟩ := Except.bind_eq_ok.1 h
  obtain ⟨n, hn, h⟩ := Except.bind_eq_ok.1 h
  obtain ⟨hashes, -, h⟩ := Except.bind_eq_ok.1 h
  cases h
  cases hget : Entries.get? "start" entries with
  | none =>
    rw [hget] at hstart
    cases hstart
    cases hn
  | some v =>
    rw [hget] at hstart
    obtain ⟨m, hm, hstart⟩ := Except.bind_eq_ok.1 hstart
    cases hstart
    cases hn
    rw [readStart_eq_ok hm]

theorem start_readItems {items : List Json} {a : Ancestry} (h : readItems items = .ok a) :
    .number (.nat a.start) ∈ items := by
  unfold readItems at h
  split at h
  · cases h
  · next start rest =>
    obtain ⟨n, hn, h⟩ := Except.bind_eq_ok.1 h
    split at h
    · cases h
    · obtain ⟨hashes, -, h⟩ := Except.bind_eq_ok.1 h
      split at h
      · cases h
        rw [readStart_eq_ok hn]
        exact List.mem_cons_self
      · cases h

theorem start_le {v : Json} (hv : v.Proper) {a : Ancestry} (h : read v = .ok a) :
    a.start ≤ Numeral.max64 := by
  have hstart : (Json.number (.nat a.start)).Proper := by
    unfold read at h
    split at h
    · exact hv.get? (start_readMembers h)
    · cases hv with
      | array hitems => exact hitems _ (start_readItems h)
    · cases h
  cases hstart with
  | number h => exact h

theorem map_hash_descend (n : Nat) (hashes : List String) :
    (descend n hashes).map (·.hash) = hashes := by
  induction hashes generalizing n with
  | nil => rfl
  | cons hash older ih => rw [descend, List.map_cons, ih]

/-- The generations of a history go down from its start, and not below one if it is no longer than
its start says. -/
theorem generation_descend {n : Nat} {hashes : List String} (hlen : hashes.length ≤ n)
    {r : Revision} (hr : r ∈ descend n hashes) : 0 < r.generation ∧ r.generation ≤ n := by
  induction hashes generalizing n with
  | nil => cases hr
  | cons hash older ih =>
    rw [List.length_cons] at hlen
    rcases List.mem_cons.1 hr with rfl | hr
    · show 0 < n ∧ n ≤ n
      omega
    · obtain ⟨hpos, hle⟩ := ih (by omega) hr
      exact ⟨hpos, by omega⟩

end Ancestry

/-- The hashes in the history that a document lists. -/
def listedHashes (v : Json) : List String :=
  match (v.get? "_revisions").map Ancestry.read with
  | some (.ok a) => a.ids
  | _ => []

theorem map_hash_history {v : Json} {history : List Revision}
    (h : readHistory (v.get? "_revisions") = .ok history) :
    history.map (·.hash) = listedHashes v := by
  unfold listedHashes
  cases hget : v.get? "_revisions" with
  | none =>
    rw [hget] at h
    cases h
    rfl
  | some w =>
    rw [hget] at h
    unfold readHistory at h
    dsimp only [Option.map_some] at h ⊢
    cases hread : Ancestry.read w with
    | error reason =>
      rw [hread] at h
      cases h
    | ok a =>
      rw [hread] at h
      dsimp only at h ⊢
      split at h
      · cases h
      · cases h
        exact Ancestry.map_hash_descend a.start a.ids

theorem generation_history {v : Option Json} (hv : ∀ w ∈ v, w.Proper) {history : List Revision}
    (h : readHistory v = .ok history) {r : Revision} (hr : r ∈ history) :
    0 < r.generation ∧ r.generation ≤ Numeral.max64 := by
  unfold readHistory at h
  split at h
  · cases h
    cases hr
  · next w =>
    split at h
    · cases h
    · next a hread =>
      split at h
      · cases h
      · next hlen =>
        cases h
        obtain ⟨hpos, hle⟩ := Ancestry.generation_descend (Nat.le_of_not_lt hlen) hr
        exact ⟨hpos, Nat.le_trans hle (Ancestry.start_le (hv w rfl) hread)⟩

/-! ## Naming the revisions of an edit -/

/-- The revisions in an edit. -/
def revisions (e : Edit) : List Revision := e.rev.toList ++ e.history

theorem named_of_readRev {v : Option Json} {given : Option Revision} (h : readRev v = .ok given)
    {r : Revision} (hr : given = some r) : r.Named := by
  unfold readRev at h
  split at h
  · cases h
    cases hr
  · cases h
    cases hr
  · next s =>
    cases hparse : Revision.parse s with
    | error e =>
      rw [hparse] at h
      cases h
    | ok r' =>
      rw [hparse] at h
      cases h
      cases hr
      exact Revision.named_of_parse hparse
  · cases h

/-- The revision of an edit heads its history, or there is no history and a text has named it. -/
theorem settleRev_eq_ok {given newest rev : Option Revision}
    (h : settleRev given newest = .ok rev) : rev = newest ∨ newest = none ∧ rev = given := by
  unfold settleRev at h
  split at h
  · split at h
    · next heq =>
      cases h
      exact .inl (by rw [heq])
    · cases h
  · cases h
    exact .inl rfl
  · cases h
    exact .inr ⟨rfl, rfl⟩

theorem Reading.named_or_listed {entries : List (String × Json)} {given : Option Revision}
    {e : Edit} (h : Reading entries given e) {r : Revision} (hr : r ∈ e.revisions) :
    r ∈ e.history ∨ r.Named := by
  rcases List.mem_append.1 hr with hrev | hhistory
  · have hrev : e.rev = some r := by simpa using hrev
    rcases settleRev_eq_ok h.settled with hnewest | ⟨-, hgiven⟩
    · exact .inl (List.mem_of_head? (hnewest.symm.trans hrev))
    · exact .inr (named_of_readRev h.rev (hgiven.symm.trans hrev))
  · exact .inl hhistory

/-- The revisions of an edit that is read from a proper value all read back from their texts exactly
if no hash in the history that the value lists is empty. -/
theorem named_again_iff {v : Json} (hv : v.Proper) {e : Edit} (h : ofWire v = .ok e) :
    (∀ r ∈ e.revisions, Revision.parse r.text = .ok r) ↔ "" ∉ listedHashes v := by
  obtain ⟨entries, given, rfl, hreading⟩ := ofWire_eq_ok h
  have hhashes : e.history.map (·.hash) = listedHashes (.members entries) :=
    map_hash_history hreading.history
  rw [← hhashes]
  constructor
  · intro hall hempty
    obtain ⟨r, hr, hhash⟩ := List.mem_map.1 hempty
    have hparse := hall r (List.mem_append_right _ hr)
    exact (Revision.parse_text_iff.1 hparse).hash hhash
  · intro hhash r hr
    rw [Revision.parse_text_iff]
    rcases hreading.named_or_listed hr with hr | hnamed
    · obtain ⟨hpos, hle⟩ := generation_history (fun w hw => hv.get? hw) hreading.history hr
      refine ⟨hpos, hle, fun hempty => hhash ?_⟩
      rw [← hempty]
      exact List.mem_map_of_mem hr
    · exact hnamed

/-- A document without a body that lists its history. -/
def listing (start : Nat) (ids : List String) : Json :=
  .object [("_revisions", .object [("start", .nat start), ("ids", .strings ids)])]

theorem proper_listing {start : Nat} (h : start ≤ Numeral.max64) (ids : List String) :
    (listing start ids).Proper := by
  refine Json.proper_object fun e he => ?_
  rw [List.mem_singleton.1 he]
  refine Json.proper_object fun e he => ?_
  rcases List.mem_cons.1 he with rfl | he
  · exact .number h
  · rw [List.mem_singleton.1 he]
    exact Json.proper_strings ids

/-- A history that ends at the greatest generation, with a dash for a hash. -/
theorem listing_named_again :
    let v := listing Numeral.max64 ["-", "a"]
    v.Proper ∧ ∃ e, ofWire v = .ok e ∧
      ((∀ r ∈ e.revisions, Revision.parse r.text = .ok r) ↔ "" ∉ listedHashes v) := by
  intro v
  have hv : v.Proper := proper_listing (Nat.le_refl _) _
  exact ⟨hv, _, rfl, named_again_iff hv rfl⟩

/-- The revision of an empty hash comes in, and its text does not read back. -/
theorem empty_hash_unnamed :
    (listing 1 [""]).Proper ∧
      ∃ e, ofWire (listing 1 [""]) = .ok e ∧ e.rev = some ⟨1, ""⟩ ∧ e.history = [⟨1, ""⟩] ∧
        Revision.text ⟨1, ""⟩ = "1-" ∧ Revision.parse "1-" = .error (Revision.malformed "1-") := by
  exact ⟨proper_listing (by decide) _, _, rfl, rfl, rfl, rfl, rfl⟩

end Edit

end DocumentDb
