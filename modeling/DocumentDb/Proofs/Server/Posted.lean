import DocumentDb.Proofs.Document.Grammar
import DocumentDb.Proofs.Server.BulkOfOne

/-! # Posted documents

A document may be posted with an id among its members or without one. With an id it is written as
its members ask for: the new revision is a deletion exactly if they say so, and a child of the
revision that they name. Without an id only the body is taken over, so that a posted deletion
becomes a live document.

* `Edit.Names`, `Edit.Reading.names_iff`: the revision that the members of a document name.
* `Server.Honoured`: the stored revision is the one that the members ask for.
* `Server.posted_honoured_iff`: when it is.
* `Server.posted_deletion_lives`: a deletion that is not.
-/

namespace DocumentDb

/-! ## Naming a revision -/

/-- A document names a revision: by its text, or at the head of the history that it lists. -/
inductive Edit.Names (v : Json) (r : Revision) : Prop where
  | text {text : String} (htext : v.get? "_rev" = some (.string text))
      (hr : Revision.parse text = .ok r)
  | head {w : Json} {start : Nat} {hash : String} {older : List String}
      (hlisted : v.get? "_revisions" = some w)
      (hspells : Edit.Ancestry.Spells start (hash :: older) w) (hr : r = ⟨start, hash⟩)

namespace Edit

variable {entries : List (String × Json)} {given : Option Revision} {e : Edit} {r : Revision}

theorem settleRev_some {newest rev : Option Revision}
    (h : settleRev (some r) newest = .ok rev) : rev = some r := by
  cases newest with
  | none => exact (Except.ok.inj h).symm
  | some n =>
    unfold settleRev at h
    dsimp only at h
    split at h
    · exact (Except.ok.inj h).symm
    · cases h

theorem Reading.names_iff (h : Reading entries given e) :
    Names (.members entries) r ↔ e.rev = some r := by
  constructor
  · rintro (⟨htext, hr⟩ | ⟨hlisted, hspells, rfl⟩)
    · obtain ⟨hnone, -⟩ | ⟨text, r', htext', hr', hgiven⟩ := readRev_eq_ok.1 h.rev
      · rw [show Entries.get? "_rev" entries = _ from htext] at hnone
        simp at hnone
      · cases htext.symm.trans htext'
        cases hr.symm.trans hr'
        rw [hgiven] at h
        exact settleRev_some h.settled
    · have hhistory := (h.asks.listed hlisted hspells).2
      have hne : e.history ≠ [] := by simp [hhistory]
      rw [h.asks.head hne, hhistory, List.mapIdx_cons]
      rfl
  · intro hrev
    obtain hhead | ⟨-, hgiven⟩ := settleRev_eq_ok h.settled
    · rw [hrev] at hhead
      obtain ⟨-, hnil⟩ | ⟨w, start, ids, hlisted, hspells, -, hids⟩ := readHistory_eq_ok.1 h.history
      · rw [hnil] at hhead
        cases hhead
      · cases ids with
        | nil =>
          rw [hids] at hhead
          cases hhead
        | cons hash older =>
          rw [hids] at hhead
          exact .head hlisted hspells (Option.some.inj hhead)
    · obtain ⟨-, hnone⟩ | ⟨text, r', htext, hr', hgiven'⟩ := readRev_eq_ok.1 h.rev
      · rw [hrev, hnone] at hgiven
        cases hgiven
      · rw [hrev, hgiven'] at hgiven
        cases hgiven
        exact .text htext hr'

end Edit

/-! ## Posting -/

namespace Server

variable {s : Server} {h : Handle} {m : Memory} {v : Json} {id : String} {rev : Revision}
  {b : Backend} {e : Edit}

/-- The revision is stored as the document says that was posted: it is a deletion exactly if the
document says that it is deleted, and a child of the revision that the document names. -/
def Honoured (v : Json) (t : RevTree) (rev : Revision) : Prop :=
  ∃ node, t.get? rev = some node ∧ (node.deleted = true ↔ v.get? "_deleted" = some (.bool true)) ∧
    ∀ r, Edit.Names v r → node.parent = some r

/-- What a post that succeeds has written: some edit of the store, as the members ask for it if they
name an id, and else one that is no deletion and expects no revision. -/
structure Posted (v : Json) (db : Database) (id : String) (rev : Revision) (db' : Database) :
    Prop where
  onTop : ∃ body deleted, db.store.Extends id deleted body rev db'.store ∧
    (deleted = true ↔
      (∃ text, v.get? "_id" = some (.string text)) ∧ v.get? "_deleted" = some (.bool true))
  named : (∃ text, v.get? "_id" = some (.string text)) →
    ∀ r, Edit.Names v r → db.store.winner id = some r

variable {db db' : Database}

theorem Posted.node (hp : Posted v db id rev db') :
    ∃ node, (db'.store.tree id).get? rev = some node ∧ node.parent = db.store.winner id ∧
      (node.deleted = true ↔
        (∃ text, v.get? "_id" = some (.string text)) ∧ v.get? "_deleted" = some (.bool true)) := by
  obtain ⟨body, deleted, hextends, hdeleted⟩ := hp.onTop
  exact ⟨_, hextends.node, rfl, hdeleted⟩

theorem Posted.honoured_iff (hp : Posted v db id rev db') :
    Honoured v (db'.store.tree id) rev ↔ (∃ text, v.get? "_id" = some (.string text)) ∨
      v.get? "_deleted" ≠ some (.bool true) ∧ ∀ r, Edit.Names v r → db.store.winner id = some r := by
  obtain ⟨node, hnode, hparent, hdeleted⟩ := hp.node
  have hhonoured : Honoured v (db'.store.tree id) rev ↔
      (node.deleted = true ↔ v.get? "_deleted" = some (.bool true)) ∧
        ∀ r, Edit.Names v r → node.parent = some r := by
    unfold Honoured
    simp [hnode]
  rw [hhonoured, hdeleted, hparent]
  by_cases hid : ∃ text, v.get? "_id" = some (.string text)
  · have hnamed := hp.named hid
    simp only [hid, true_and, iff_self, true_or, iff_true]
    exact hnamed
  · simp only [hid, false_and, false_iff, false_or, ne_eq]

/-- With an id the post is the write of the one document. -/
theorem posted_of_named {text : String} (hm : m.Reachable)
    (hid : v.get? "_id" = some (.string text))
    (hok : (s.postDocument h v).outcome (.memory m) = (.ok (id, rev), b)) :
    ∃ m' i db db', b = .memory m' ∧ m.lookup h.name = .ok (i, db) ∧
      m'.lookup h.name = .ok (i, db') ∧ Posted v db id rev db' := by
  cases v with
  | null | bool | number | string | array => cases hid
  | members entries =>
  have hid : Entries.get? "_id" entries = some (.string text) := hid
  have hput : s.postDocument h (.members entries) =
      s.putDocument h text (.members entries) none := by
    unfold postDocument
    rw [show (Json.members entries).get? "_id" = some (.string text) from hid]
  rw [hput] at hok
  cases hedit : Edit.ofMembers entries with
  | error f =>
    rw [(outcomes_of_malformed hedit hedit .empty).1] at hok
    cases hok
  | ok e =>
    obtain ⟨given, hreading⟩ := Edit.reading_of_ofMembers hedit
    have hcheck : checkEditId text e = .ok () := checkEditId_of_named (.inr hid) hedit
    by_cases hbare : e.Bare
    · rw [outcome_putDocument_of_bare hedit hcheck hbare] at hok
      cases hok
    · rw [outcome_putDocument hedit hcheck hbare] at hok
      generalize hw : (Memory.write s.stopping h.name fun s => s.apply text e true).outcome m = w
        at hok
      obtain ⟨x | x, m'⟩ := w
      · cases hok
      · cases hok
        obtain ⟨i, db, db', hbefore, hafter, happly⟩ := Memory.write_eq_ok hw
        obtain ⟨-, hdb⟩ := Memory.lookup_eq_ok.1 hbefore
        have hsound : db.store.Sound := (hm.database_at hdb).sound
        obtain ⟨⟨body, hextends⟩, hnamed⟩ := hsound.extends_apply (congrArg Prod.fst happly)
        rw [happly] at hextends
        refine ⟨m', i, db, db', rfl, hbefore, hafter, ⟨body, e.deleted, hextends, ?_⟩, ?_⟩
        · rw [hreading.asks.deleted]
          exact (and_iff_right ⟨_, hid⟩).symm
        · exact fun _ r hr => hnamed r (hreading.names_iff.1 hr)

/-- Without an id the post creates a document with the body. -/
theorem posted_of_unnamed (hm : m.Reachable) (hid : ∀ text, v.get? "_id" ≠ some (.string text))
    (hok : (s.postDocument h v).outcome (.memory m) = (.ok (id, rev), b)) :
    ∃ m' i db db', b = .memory m' ∧ m.lookup h.name = .ok (i, db) ∧
      m'.lookup h.name = .ok (i, db') ∧ Posted v db id rev db' := by
  have hcreate : s.postDocument h v = (do
      let e ← Action.ofExcept (Edit.ofWire v)
      Action.ofCall (h.createDoc s.stopping e.body)) := by
    unfold postDocument
    split
    · next text htext => exact absurd htext (hid text)
    · rfl
  rw [hcreate, Action.outcome_bind, Action.outcome_ofExcept] at hok
  cases hedit : Edit.ofWire v with
  | error f =>
    rw [hedit] at hok
    cases hok
  | ok e =>
    rw [hedit] at hok
    dsimp only [Except.mapError] at hok
    rw [Action.outcome_ofCall, Handle.createDoc, Backend.outcome_onMemory,
      Memory.outcome_createDoc] at hok
    generalize hw : (Memory.write s.stopping h.name fun s => s.put m.ids.next.1 e.body none).outcome
      { m with ids := m.ids.next.2 } = w at hok
    obtain ⟨x | x, m'⟩ := w
    · cases hok
    · cases hok
      obtain ⟨i, db, db', hbefore, hafter, hput⟩ := Memory.write_eq_ok hw
      obtain ⟨-, hdb⟩ := Memory.lookup_eq_ok.1 hbefore
      have hsound : db.store.Sound := (hm.database_at hdb).sound
      obtain ⟨t, hinsert, hstore⟩ := Store.put_eq_ok hput
      have hextends := hsound.extends_update hinsert
      rw [← hstore] at hextends
      refine ⟨m', i, db, db', rfl, hbefore, hafter, ⟨e.body, false, hextends, ?_⟩, ?_⟩
      · simp [hid]
      · rintro ⟨text, htext⟩
        exact absurd htext (hid text)

/-- A post that succeeds stores one revision, on top of the winner that its document had before. This
revision is as the members ask for exactly if they name an id, or if they neither say that the
document is deleted nor name a revision other than that winner, which a new document does not
have. -/
theorem posted_honoured_iff (hm : m.Reachable)
    (hok : (s.postDocument h v).outcome (.memory m) = (.ok (id, rev), b)) :
    ∃ m' i db db', b = .memory m' ∧ m.lookup h.name = .ok (i, db) ∧
      m'.lookup h.name = .ok (i, db') ∧
      (∃ node, (db'.store.tree id).get? rev = some node ∧ node.parent = db.store.winner id ∧
        (node.deleted = true ↔
          (∃ text, v.get? "_id" = some (.string text)) ∧ v.get? "_deleted" = some (.bool true))) ∧
      (Honoured v (db'.store.tree id) rev ↔ (∃ text, v.get? "_id" = some (.string text)) ∨
        v.get? "_deleted" ≠ some (.bool true) ∧
          ∀ r, Edit.Names v r → db.store.winner id = some r) := by
  obtain ⟨m', i, db, db', hb, hbefore, hafter, hposted⟩ : ∃ m' i db db', b = .memory m' ∧
      m.lookup h.name = .ok (i, db) ∧ m'.lookup h.name = .ok (i, db') ∧
      Posted v db id rev db' := by
    by_cases hid : ∃ text, v.get? "_id" = some (.string text)
    · obtain ⟨text, htext⟩ := hid
      exact posted_of_named hm htext hok
    · exact posted_of_unnamed hm (fun text htext => hid ⟨text, htext⟩) hok
  exact ⟨m', i, db, db', hb, hbefore, hafter, hposted.node, hposted.honoured_iff⟩

/-- A memory with one empty database. -/
def emptyHosted : Memory := ⟨[Database.create "d"], SortedMap.empty.insert "d" 0, .initial⟩

theorem emptyHosted_reachable : emptyHosted.Reachable :=
  (Memory.Reachable.empty .initial).event (@Memory.Event.create _ "d" rfl)

theorem oneDocument_reachable : oneDocument.Reachable :=
  emptyHosted_reachable.event
    (.database (i := 0) rfl (.commit [.graft "a" [⟨1, "r"⟩] false .emptyObject]))

/-- The post of a deletion that names its document and the revision to delete. -/
theorem posted_with_id_honoured :
    let s := hosting (Database.create "d")
    let v : Json := .members
      [("_deleted", .bool true), ("_id", .string "a"), ("_rev", .string "1-r"), ("n", .nat 1)]
    oneDocument.Reachable ∧ Edit.Names v ⟨1, "r"⟩ ∧ ∃ rev m' i db' node,
      (s.postDocument ⟨"d", .empty⟩ v).outcome (.memory oneDocument) =
        (.ok ("a", rev), .memory m') ∧
      m'.lookup "d" = .ok (i, db') ∧ Honoured v (db'.store.tree "a") rev ∧
      (db'.store.tree "a").get? rev = some node ∧ node.deleted = true ∧
      node.parent = some ⟨1, "r"⟩ := by
  intro s v
  have hrev : v.get? "_rev" = some (.string "1-r") := rfl
  have hnames : Edit.Names v ⟨1, "r"⟩ := .text hrev (by decide)
  obtain ⟨rev, b, hok⟩ : ∃ rev b,
      (s.postDocument ⟨"d", .empty⟩ v).outcome (.memory oneDocument) = (.ok ("a", rev), b) :=
    ⟨_, _, rfl⟩
  obtain ⟨m', i, db, db', rfl, -, hafter, -, hiff⟩ :=
    posted_honoured_iff oneDocument_reachable hok
  have hhonoured : Honoured v (db'.store.tree "a") rev := hiff.2 (.inl ⟨"a", rfl⟩)
  obtain ⟨node, hnode, hdeleted, hparent⟩ := hhonoured
  exact ⟨oneDocument_reachable, hnames, rev, m', i, db', node, hok, hafter,
    ⟨node, hnode, hdeleted, hparent⟩, hnode, hdeleted.2 rfl, hparent _ hnames⟩

/-- The post of a deletion without an id succeeds and stores a live revision. -/
theorem posted_deletion_lives :
    let s := hosting (Database.create "d")
    let v : Json := .members [("_deleted", .bool true)]
    emptyHosted.Reachable ∧ ∃ id rev m' i db' node,
      (s.postDocument ⟨"d", .empty⟩ v).outcome (.memory emptyHosted) =
        (.ok (id, rev), .memory m') ∧
      m'.lookup "d" = .ok (i, db') ∧ (db'.store.tree id).get? rev = some node ∧
      node.deleted = false ∧ ¬ Honoured v (db'.store.tree id) rev := by
  intro s v
  have hid : ∀ text, v.get? "_id" ≠ some (.string text) := by
    intro text htext
    cases htext
  obtain ⟨id, rev, b, hok⟩ : ∃ id rev b,
      (s.postDocument ⟨"d", .empty⟩ v).outcome (.memory emptyHosted) = (.ok (id, rev), b) :=
    ⟨_, _, _, rfl⟩
  obtain ⟨m', i, db, db', rfl, -, hafter, hposted⟩ :=
    posted_of_unnamed emptyHosted_reachable hid hok
  obtain ⟨node, hnode, -, hdeleted⟩ := hposted.node
  have hlive : node.deleted = false := by
    rw [← Bool.not_eq_true, hdeleted]
    rintro ⟨⟨text, htext⟩, -⟩
    exact hid text htext
  refine ⟨emptyHosted_reachable, id, rev, m', i, db', node, hok, hafter, hnode, hlive, ?_⟩
  rw [hposted.honoured_iff]
  rintro (⟨text, htext⟩ | ⟨hno, -⟩)
  · exact hid text htext
  · exact hno rfl

end Server

end DocumentDb
