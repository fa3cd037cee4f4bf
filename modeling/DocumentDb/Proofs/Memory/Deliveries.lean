import DocumentDb.Proofs.Document.Members
import DocumentDb.Proofs.Memory.Shelf
import DocumentDb.Proofs.Store.Leaves

/-! # Where the bodies of documents come from

The body that comes with a revision is the one of the first accepted write that reported it, as that
write gave it. The writes look at bodies no further than whether the body of a put is an object. So
a document has reserved names among its members exactly if a write brought them, and its wire form
then need not tell its own id and revision.

* `Store.deliveries`: the bodies that some writes bring.
* `Store.hasBody_after`: the revisions have these bodies.
* `Store.shown_of_bodies`: clients that write no reserved names.
* `Store.bodies_delivered`: when all documents have bodies without reserved names.
* `Operation.special_members_kept`: a document with reserved names.
-/

namespace DocumentDb

namespace Store

variable {s s' : Store} {id : String} {rev new : Revision} {body : Json} {w : Write}

/-! ## Bodies of revisions -/

theorem hasBody_of_get {named : Option Revision} {conflicts : Bool} {doc : Document}
    (h : s.get id named conflicts = .ok doc) :
    doc.id = id ∧ (s.tree id).HasBody doc.rev doc.body := by
  obtain ⟨t, found, node, body, ht, hselect, hbody, rfl⟩ := get_eq_ok h
  rw [tree_eq ht]
  exact ⟨rfl, node, (select_eq_ok.1 hselect).1, hbody⟩

theorem get_of_hasBody (h : (s.tree id).HasBody rev body) :
    ∃ doc, s.get id (some rev) false = .ok doc ∧ doc.body = body := by
  obtain ⟨t, ht, node, hnode, hbody⟩ := says_tree_iff.1 h
  exact ⟨_, get_some_eq_ok.2 ⟨t, node, body, ht, hnode, hbody, rfl⟩, rfl⟩

theorem Grows.hasBody (hg : s.Grows s') (h : (s.tree id).HasBody rev body) :
    (s'.tree id).HasBody rev body := by
  obtain ⟨t, ht, hbody⟩ := says_tree_iff.1 h
  obtain ⟨t', ht', hgrows⟩ := hg id t ht
  exact says_tree_iff.2 ⟨t', ht', hgrows.hasBody hbody⟩

/-! ## One write -/

/-- A revision that a write reports and that had no body before has that of the write. -/
theorem Write.Makes.hasBody (hs : s.Sound) {t : RevTree} (h : w.Makes s new t)
    (hnew : ¬ (s.tree w.id).KnowsBody new) : t.HasBody new w.body := by
  cases h with
  | edit _ hedit => exact RevTree.hasBody_insertEdit hedit (hs.insertEdit_new hedit)
  | graft deleted hhead => exact RevTree.hasBody_absorbPath hnew hhead

theorem hasBody_run (hs : s.Sound) (h : w.run s = (.ok new, s')) :
    (s'.tree id).HasBody rev body ↔
      (s.tree id).HasBody rev body ∨
        (id, rev) = (w.id, new) ∧ ¬ s.Fetches w.id new ∧ body = w.body := by
  have hgrows : s.Grows s' := by
    have hresult := (w.result s).grows
    rwa [h] at hresult
  have hfresh : ¬ s.Fetches w.id new → (s'.tree w.id).HasBody new w.body := by
    intro hnew
    obtain ⟨t, hmakes, rfl⟩ := Write.makes h
    rw [tree_update_self]
    exact hmakes.hasBody hs (fetches_iff.not.1 hnew)
  constructor
  · intro hbody
    have hfetches : s'.Fetches id rev := fetches_iff.2 (RevTree.knowsBody_iff_hasBody.2 ⟨_, hbody⟩)
    by_cases hold : s.Fetches id rev
    · obtain ⟨known, hknown⟩ := RevTree.knowsBody_iff_hasBody.1 (fetches_iff.1 hold)
      rw [← (hgrows.hasBody hknown).unique hbody]
      exact .inl hknown
    · obtain hsame : (id, rev) = (w.id, new) := ((fetches_run hs h).1 hfetches).resolve_left hold
      obtain ⟨rfl, rfl⟩ := Prod.mk.inj hsame
      exact .inr ⟨rfl, hold, hbody.unique (hfresh hold)⟩
  · rintro (hold | ⟨hsame, hnew, rfl⟩)
    · exact hgrows.hasBody hold
    · obtain ⟨rfl, rfl⟩ := Prod.mk.inj hsame
      exact hfresh hnew

/-! ## Writes one after the other -/

/-- The body of a revision of a document. -/
structure Delivery where
  id : String
  rev : Revision
  body : Json

/-- The bodies that some writes, one after the other, bring: those of accepted writes to revisions
that have none. -/
def deliveries (s : Store) : List Write → List Delivery
  | [] => []
  | w :: ws =>
    match (w.run s).1 with
    | .ok rev =>
      if (s.get w.id (some rev) false).isOk then (w.run s).2.deliveries ws
      else ⟨w.id, rev, w.body⟩ :: (w.run s).2.deliveries ws
    | .error _ => (w.run s).2.deliveries ws

theorem isOk_get_iff : (s.get id (some rev) false).isOk = true ↔ s.Fetches id rev := by
  unfold Fetches
  cases s.get id (some rev) false with
  | error e => simp [Except.isOk, Except.toBool]
  | ok doc => simp [Except.isOk, Except.toBool]

theorem hasBody_after (hs : s.Sound) (ws : List Write) :
    ((s.after ws).tree id).HasBody rev body ↔
      (s.tree id).HasBody rev body ∨ ⟨id, rev, body⟩ ∈ s.deliveries ws := by
  induction ws generalizing s with
  | nil => simp [after, deliveries]
  | cons w ws ih =>
    have hrest := ih (hs.result (w.result s))
    show (((w.run s).2.after ws).tree id).HasBody rev body ↔ _
    rw [hrest, deliveries]
    cases hout : (w.run s).1 with
    | error e =>
      have hsame : (w.run s).2 = s := (w.result s).refused_eq hout
      rw [hsame]
    | ok new =>
      have hrun : w.run s = (.ok new, (w.run s).2) := by rw [← hout]
      rw [hasBody_run hs hrun]
      dsimp only
      split
      · next hold =>
        rw [isOk_get_iff] at hold
        simp [hold]
      · next hnew =>
        rw [isOk_get_iff] at hnew
        simp [hnew, or_assoc, and_assoc]

theorem hasBody_empty_after (ws : List Write) :
    ((empty.after ws).tree id).HasBody rev body ↔ ⟨id, rev, body⟩ ∈ empty.deliveries ws := by
  have hnone : ¬ (empty.tree id).HasBody rev body := RevTree.not_says_empty
  rw [hasBody_after sound_empty ws]
  simp [hnone]

theorem exists_write_of_delivery {ws : List Write} {d : Delivery} (h : d ∈ s.deliveries ws) :
    ∃ w ∈ ws, d.body = w.body := by
  induction ws generalizing s with
  | nil => cases h
  | cons w ws ih =>
    have hlater : d ∈ (w.run s).2.deliveries ws → ∃ w' ∈ w :: ws, d.body = w'.body := by
      intro hd
      obtain ⟨w', hw', hbody⟩ := ih hd
      exact ⟨w', List.mem_cons_of_mem w hw', hbody⟩
    unfold deliveries at h
    split at h
    · split at h
      · exact hlater h
      · rcases List.mem_cons.1 h with rfl | hd
        · exact ⟨w, List.mem_cons_self, rfl⟩
        · exact hlater hd
    · exact hlater h

/-- Clients that write no reserved names, as those do whose documents were read off the wire, find
every document as it shows itself. -/
theorem shown_of_bodies {ws : List Write} (hws : ∀ w ∈ ws, w.body.IsBody ∧ w.body.Proper)
    {named : Option Revision} {conflicts : Bool} {doc : Document}
    (h : (empty.after ws).get id named conflicts = .ok doc) : doc.Shown := by
  have hdelivered := (hasBody_empty_after ws).1 (hasBody_of_get h).2
  obtain ⟨w, hw, hbody⟩ := exists_write_of_delivery hdelivered
  have hbody : doc.body = w.body := hbody
  obtain ⟨hfree, hproper⟩ := hws w hw
  rw [← hbody] at hfree hproper
  exact Document.shown_of_isBody hfree hproper

/-- After any writes on the empty store, refused ones included: what a look-up returns is what one
of the writes brought, so every document has an object without reserved names for its body exactly
if the writes brought no other; and a document with such a body tells its own id and revision,
whether it is a deletion, and every member of its body. -/
theorem bodies_delivered (ws : List Write) :
    let s := empty.after ws
    ((∀ id named conflicts doc, s.get id named conflicts = .ok doc → doc.body.IsBody) ↔
      ∀ d ∈ empty.deliveries ws, d.body.IsBody) ∧
    ∀ id named conflicts doc, s.get id named conflicts = .ok doc →
      doc.id = id ∧ ⟨id, doc.rev, doc.body⟩ ∈ empty.deliveries ws ∧
        (doc.body.IsBody → doc.body.Proper → doc.Shown) := by
  intro s
  refine ⟨⟨fun h d hd => ?_, fun h id named conflicts doc hdoc => ?_⟩,
    fun id named conflicts doc hdoc => ?_⟩
  · obtain ⟨doc, hdoc, hbody⟩ := get_of_hasBody ((hasBody_empty_after ws).2 hd)
    rw [← hbody]
    exact h d.id (some d.rev) false doc hdoc
  · exact h _ ((hasBody_empty_after ws).1 (hasBody_of_get hdoc).2)
  · obtain ⟨hid, hbody⟩ := hasBody_of_get hdoc
    exact ⟨hid, (hasBody_empty_after ws).1 hbody, Document.shown_of_isBody⟩

end Store

/-- The document that an answer holds. -/
def Answer.document? : Answer → Option Document
  | .document d => some d
  | _ => none

/-- A put keeps the special members that its body has, and the look-up shows them for its own: the
document is not the one that was asked for, nor is its revision one, and it seems to be deleted. -/
theorem Operation.special_members_kept :
    let body := Json.members
      [("_deleted", .bool true), ("_id", .string "b"), ("_rev", .string "bogus")]
    let answers := (runAll run [.create "d", .put "d" "a" body none, .get "d" "a" none .empty]
      (Memory.empty .initial)).1
    ∃ doc, (answers.getLast?.bind (·.toOption)).bind Answer.document? = some doc ∧
      doc.id = "a" ∧ doc.deleted = false ∧ ¬ doc.body.IsBody ∧
      doc.toWire.text = "\x7b\"_deleted\":true,\"_id\":\"b\",\"_rev\":\"bogus\"\x7d" := by
  intro body answers
  have hfound : (((answers.getLast?.bind (·.toOption)).bind Answer.document?).any fun doc =>
      doc.id = "a" ∧ doc.deleted = false ∧ ¬ doc.body.IsBody ∧
      doc.toWire.text = "\x7b\"_deleted\":true,\"_id\":\"b\",\"_rev\":\"bogus\"\x7d") = true := by
    decide +kernel
  obtain ⟨doc, hdoc, hcheck⟩ := (Option.any_eq_true ..).1 hfound
  exact ⟨doc, hdoc, of_decide_eq_true hcheck⟩

end DocumentDb
