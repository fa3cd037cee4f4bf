import DocumentDb.Proofs.Document.Wire
import DocumentDb.Proofs.Memory.Access
import DocumentDb.Proofs.Server.Changes

/-! # Bulk writes of one document

A document may be written on its own, under the id in the path, or in a bulk write, under the id
among its members. Both go on from the edit that its members ask for, and a write that the store
refuses fails the one request and is reported by the other. They part where a deletion names no
revision and there is no such document: the one is told of a conflict, as all deletions without a
revision are, the other of a missing document.

* `Edit.withId`, `Edit.ofMembers_withId`: the same edit with an id.
* `Memory.outcome_bulk_singleton`: the bulk write of one edit.
* `Server.Agree`: the outcome of the one path and that of the other.
* `Server.bulk_of_one_agrees`: the two paths.
* `Server.absent_deletion_disagrees`: where they part.
-/

namespace DocumentDb

/-! ## Edits -/

namespace Edit

/-- The members of a document with an id among them. -/
def withId (id : String) (entries : List (String × Json)) : List (String × Json) :=
  Entries.insert "_id" (.string id) entries

theorem bodyMembers_insert {name : String} (hspecial : name ∈ specialNames) (v : Json)
    (entries : List (String × Json)) :
    bodyMembers (Entries.insert name v entries) = bodyMembers entries := by
  unfold bodyMembers
  induction entries with
  | nil => simp [Entries.insert, hspecial]
  | cons e entries ih =>
    obtain ⟨other, w⟩ := e
    unfold Entries.insert
    split
    · simp [List.filter_cons, hspecial]
    · next hsame =>
      obtain rfl := Std.LawfulEqCmp.compare_eq_iff_eq.1 hsame
      simp [hspecial]
    · rw [List.filter_cons, List.filter_cons, ih]

/-- A document that names no other id asks for the same edit with the id among its members. -/
theorem ofMembers_withId {id : String} {entries : List (String × Json)}
    (hid : Entries.get? "_id" entries = none ∨ Entries.get? "_id" entries = some (.string id)) :
    ofMembers (withId id entries) = (ofMembers entries).map fun e => { e with id := some id } := by
  have hrev : Entries.get? "_rev" (withId id entries) = Entries.get? "_rev" entries :=
    Entries.get?_insert_of_ne (by decide) _ _
  have hdeleted : Entries.get? "_deleted" (withId id entries) = Entries.get? "_deleted" entries :=
    Entries.get?_insert_of_ne (by decide) _ _
  have hhistory : Entries.get? "_revisions" (withId id entries) =
      Entries.get? "_revisions" entries :=
    Entries.get?_insert_of_ne (by decide) _ _
  have hbody : bodyMembers (withId id entries) = bodyMembers entries :=
    bodyMembers_insert (by decide) _ _
  have hread : readId (Entries.get? "_id" (withId id entries)) = .ok (some id) := by
    rw [withId, Entries.get?_insert_self]
    rfl
  obtain ⟨given, hgiven⟩ : ∃ given, readId (Entries.get? "_id" entries) = .ok given := by
    obtain h | h := hid <;> exact ⟨_, by rw [h]; rfl⟩
  unfold ofMembers
  rw [hrev, hdeleted, hhistory, hbody, hread, hgiven]
  show _ = (fun e : Edit => { e with id := some id }) <$> _
  simp only [map_bind, map_pure]
  rfl

end Edit

/-- A deletion that names no revision. -/
def Edit.Bare (e : Edit) : Prop := e.deleted = true ∧ e.rev = none

/-! ## Calls -/

namespace Memory

variable {m : Memory} {cancelled : Bool} {name id : String} {e : Edit}

/-- A bulk write of one edit reports what its write alone gives. -/
theorem outcome_bulk_singleton (hid : e.id = some id) {o : Options}
    (ho : o.getBool "new_edits" = .ok (some true)) :
    (bulk cancelled name [e] o).outcome m =
      (write cancelled name fun s =>
        (.ok [⟨id, (s.apply id e true).1⟩], (s.apply id e true).2)).outcome m := by
  have hitems : Bulk.assign true [e] m.ids = ([⟨some id, e⟩], m.ids) := by
    simp [Bulk.assign, hid]
  have hassigned : (assign true [e]).outcome m = (.ok [⟨some id, e⟩], m) := by
    unfold assign
    rw [Call.outcome_ofStep, hitems]
  unfold bulk
  rw [ho, Call.outcome_bind, Call.outcome_ofExcept]
  dsimp only [Option.getD_some]
  rw [Call.outcome_bind, hassigned]
  rfl

/-- Under a name there is no document of some id, as far as a call gets there. -/
def Lacks (m : Memory) (cancelled : Bool) (name id : String) : Prop :=
  ∀ i db, m.access cancelled name = .ok (i, db) → db.store.docs.contains id = false

theorem lacks_iff {i : Nat} {db : Database} (hfound : m.access cancelled name = .ok (i, db)) :
    m.Lacks cancelled name id ↔ db.store.docs.contains id = false := by
  constructor
  · exact fun h => h i db hfound
  · intro h i' db' hfound'
    rw [hfound] at hfound'
    cases hfound'
    exact h

theorem lacks_of_error {f : Error} (hfound : m.access cancelled name = .error f) :
    m.Lacks cancelled name id := by
  intro i db h
  rw [hfound] at h
  cases h

/-- A deletion that names no revision is refused by every store. -/
theorem outcome_bulk_of_bare (he : e.Bare) :
    (write cancelled name fun s =>
      (.ok [(⟨id, (s.apply id e true).1⟩ : BulkResult)], (s.apply id e true).2)).outcome m =
      ((m.access cancelled name).map fun found =>
        [⟨id, .error (if found.2.store.docs.contains id then .stale else .missing)⟩], m) := by
  have happly : ∀ s : Store,
      s.apply id e true = (.error (if s.docs.contains id then .stale else .missing), s) := by
    intro s
    simp [Store.apply, he.1, he.2]
  simp only [happly]
  rw [outcome_write]
  cases hfound : m.access cancelled name with
  | error f => rfl
  | ok found =>
    obtain ⟨i, db⟩ := found
    have hdb := (lookup_eq_ok.1 (access_eq_ok.1 hfound).1).2
    dsimp only
    rw [db.accept_self, setAt_self hdb]
    rfl

end Memory

/-! ## The two paths -/

namespace Server

variable {s : Server} {h : Handle} {id : String} {entries : List (String × Json)} {m : Memory}
  {e : Edit}

/-- The write of one document on its own and the bulk write of it report the same: a revision, a
refusal of the document, or the failure of the whole request. -/
inductive Agree (id : String) :
    Except Failure (String × Revision) → Except Failure (List BulkResult) → Prop
  | written (rev : Revision) : Agree id (.ok (id, rev)) (.ok [⟨id, .ok rev⟩])
  | rejected (e : Error) : Agree id (.error (.call e)) (.ok [⟨id, .error e⟩])
  | failed (f : Failure) : Agree id (.error f) (.error f)

/-- The members ask for no edit: both requests fail before a write. -/
theorem outcomes_of_malformed {wire : List (String × Json)} {f : Error}
    (hedit : Edit.ofMembers entries = .error f) (hwire : Edit.ofMembers wire = .error f)
    (o : Options) :
    (s.putDocument h id (.members entries) none).outcome (.memory m) =
        (.error (.call f), .memory m) ∧
      (s.bulkDocuments h ⟨[.members wire], some true⟩ o).outcome (.memory m) =
        (.error (.call f), .memory m) := by
  have hput : Edit.ofWire (.members entries) = .error f := hedit
  have hbulk : [Json.members wire].mapM Edit.ofWire = .error f := by
    show (Edit.ofMembers wire >>= _) = _
    rw [hwire]
    rfl
  unfold putDocument bulkDocuments
  rw [hput, hbulk]
  exact ⟨rfl, rfl⟩

theorem checkEditId_of_named
    (hid : Entries.get? "_id" entries = none ∨ Entries.get? "_id" entries = some (.string id))
    (hedit : Edit.ofMembers entries = .ok e) : checkEditId id e = .ok () := by
  obtain ⟨given, hreading⟩ := Edit.reading_of_ofMembers hedit
  have hread := hreading.id
  unfold checkEditId
  obtain h | h := hid
  · rw [h] at hread
    have hnone : e.id = none := (Except.ok.inj hread).symm
    rw [hnone]
  · rw [h] at hread
    have hsame : e.id = some id := (Except.ok.inj hread).symm
    rw [hsame]
    exact if_pos rfl

theorem putDocument_of_checked (hedit : Edit.ofMembers entries = .ok e)
    (hid : checkEditId id e = .ok ()) :
    s.putDocument h id (.members entries) none =
      if e.deleted then
        match e.rev with
        | none => throw (.call .stale)
        | some rev => do return (id, ← Action.ofCall (h.delete s.stopping id rev))
      else do return (id, ← Action.ofCall (h.put s.stopping id e.body e.rev)) := by
  have hwire : Edit.ofWire (.members entries) = .ok e := hedit
  have hrev : agreeRev e.rev none = .ok e.rev := by cases e.rev <;> rfl
  unfold putDocument
  rw [hwire]
  show (Action.ofRequest (checkEditId id e) >>= _) = _
  rw [hid]
  show (Action.ofRequest (agreeRev e.rev none) >>= _) = _
  rw [hrev]
  rfl

theorem outcome_putDocument_of_bare (hedit : Edit.ofMembers entries = .ok e)
    (hid : checkEditId id e = .ok ()) (he : e.Bare) :
    (s.putDocument h id (.members entries) none).outcome (.memory m) =
      (.error (.call .stale), .memory m) := by
  rw [putDocument_of_checked hedit hid, if_pos he.1, he.2]
  rfl

/-- Any other edit is written as the store applies it. -/
theorem outcome_putDocument (hedit : Edit.ofMembers entries = .ok e)
    (hid : checkEditId id e = .ok ()) (he : ¬ e.Bare) :
    let w := (Memory.write s.stopping h.name fun s => s.apply id e true).outcome m
    (s.putDocument h id (.members entries) none).outcome (.memory m) =
      ((w.1.map (id, ·)).mapError .call, .memory w.2) := by
  intro w
  have hcall : ∀ c : Call Memory Revision, c.outcome m = w →
      (do return (id, ← Action.ofCall (Backend.onMemory c)) : Action _).outcome (.memory m) =
        ((w.1.map (id, ·)).mapError .call, .memory w.2) := by
    intro c hc
    rw [Action.outcome_bind, Action.outcome_ofCall, Backend.outcome_onMemory, hc]
    clear_value w
    obtain ⟨x | x, m'⟩ := w
    · rfl
    · rfl
  rw [putDocument_of_checked hedit hid]
  cases hdeleted : e.deleted with
  | false =>
    refine hcall (Memory.put s.stopping h.name id e.body e.rev) ?_
    simp only [w, Store.apply, hdeleted]
    rfl
  | true =>
    cases hrev : e.rev with
    | none => exact absurd ⟨hdeleted, hrev⟩ he
    | some rev =>
      refine hcall (Memory.delete s.stopping h.name id rev) ?_
      simp only [w, Store.apply, hdeleted, hrev]
      rfl

theorem outcome_bulkDocuments {wire : List (String × Json)} (hedit : Edit.ofMembers wire = .ok e)
    (hid : e.id = some id) (o : Options) :
    let w := (Memory.write s.stopping h.name fun s =>
      (.ok [(⟨id, (s.apply id e true).1⟩ : BulkResult)], (s.apply id e true).2)).outcome m
    (s.bulkDocuments h ⟨[.members wire], some true⟩ o).outcome (.memory m) =
      (w.1.mapError .call, .memory w.2) := by
  intro w
  have hwire : [Json.members wire].mapM Edit.ofWire = .ok [e] := by
    show (Edit.ofMembers wire >>= _) = _
    rw [hedit]
    rfl
  have hoption : (h.effective (o.set "new_edits" (.bool true))).getBool "new_edits" =
      .ok (some true) := by
    have hget : (h.effective (o.set "new_edits" (.bool true))).get? "new_edits" =
        some (.bool true) := by
      rw [Handle.effective, Options.get?_layer, Options.set, Options.get?,
        SortedMap.get?_insert_self]
      rfl
    simp only [Options.getBool, hget]
  unfold bulkDocuments
  rw [hwire]
  show (Action.ofCall (h.bulk s.stopping [e] _)).outcome _ = _
  rw [Action.outcome_ofCall, Handle.bulk, Backend.outcome_onMemory,
    Memory.outcome_bulk_singleton hid hoption]

/-- Both paths write the same, and they report what comes of it. -/
theorem outcomes_of_not_bare {wire : List (String × Json)} (hedit : Edit.ofMembers entries = .ok e)
    (hid : checkEditId id e = .ok ()) (hbare : ¬ e.Bare)
    (hwire : Edit.ofMembers wire = .ok { e with id := some id }) (o : Options) :
    let put := (s.putDocument h id (.members entries) none).outcome (.memory m)
    let bulk := (s.bulkDocuments h ⟨[.members wire], some true⟩ o).outcome (.memory m)
    bulk.2 = put.2 ∧ Agree id put.1 bulk.1 := by
  intro put bulk
  have hput : put = _ := outcome_putDocument hedit hid hbare
  have hbulk : bulk = _ := outcome_bulkDocuments hwire rfl o
  have happly : ∀ s : Store, s.apply id { e with id := some id } true = s.apply id e true :=
    fun _ => rfl
  simp only [happly] at hbulk
  rw [Memory.outcome_write] at hput hbulk
  rw [hput, hbulk]
  cases m.access s.stopping h.name with
  | error f => exact ⟨rfl, .failed _⟩
  | ok found =>
    refine ⟨rfl, ?_⟩
    dsimp only
    obtain f | rev := (found.2.store.apply id e true).1
    · exact .rejected f
    · exact .written rev

/-- Neither path writes, and they report the same if the document is there. -/
theorem outcomes_of_bare {wire : List (String × Json)} (hedit : Edit.ofMembers entries = .ok e)
    (hid : checkEditId id e = .ok ()) (hbare : e.Bare)
    (hwire : Edit.ofMembers wire = .ok { e with id := some id }) (o : Options) :
    let put := (s.putDocument h id (.members entries) none).outcome (.memory m)
    let bulk := (s.bulkDocuments h ⟨[.members wire], some true⟩ o).outcome (.memory m)
    bulk.2 = put.2 ∧ (¬ m.Lacks s.stopping h.name id → Agree id put.1 bulk.1) ∧
      (m.Lacks s.stopping h.name id → put.1 = .error (.call .stale) ∧
        ∀ i db, m.access s.stopping h.name = .ok (i, db) →
          bulk.1 = .ok [⟨id, .error .missing⟩]) := by
  intro put bulk
  have hput : put = _ := outcome_putDocument_of_bare hedit hid hbare
  have hbulk : bulk = _ := outcome_bulkDocuments hwire rfl o
  have hstill : ({ e with id := some id } : Edit).Bare := hbare
  rw [Memory.outcome_bulk_of_bare hstill] at hbulk
  rw [hput, hbulk]
  refine ⟨rfl, fun hpresent => ?_, fun hlacks => ⟨rfl, fun i db hfound => ?_⟩⟩
  · cases hfound : m.access s.stopping h.name with
    | error f => exact absurd (Memory.lacks_of_error hfound) hpresent
    | ok found =>
      have hcontains : found.2.store.docs.contains id = true := by
        by_contra hnone
        rw [Bool.not_eq_true] at hnone
        exact hpresent ((Memory.lacks_iff hfound).2 hnone)
      dsimp only [Except.map, Except.mapError]
      rw [if_pos hcontains]
      exact .rejected _
  · have hnone := (Memory.lacks_iff hfound).1 hlacks
    rw [hfound]
    dsimp only [Except.map, Except.mapError]
    rw [hnone]
    rfl

/-- The write of a document on its own and the bulk write of it, under the id among its members,
leave the same databases, and they report the same but for a deletion that names no revision and
finds no document: that one is a conflict on the one path and a missing document on the other. -/
theorem bulk_of_one_agrees (s : Server) (h : Handle) (id : String) (entries : List (String × Json))
    (o : Options) (m : Memory)
    (hid : Entries.get? "_id" entries = none ∨ Entries.get? "_id" entries = some (.string id)) :
    let put := (s.putDocument h id (.members entries) none).outcome (.memory m)
    let bulk := (s.bulkDocuments h ⟨[.members (Edit.withId id entries)], some true⟩ o).outcome
      (.memory m)
    let astray := (∃ e, Edit.ofMembers entries = .ok e ∧ e.Bare) ∧ m.Lacks s.stopping h.name id
    bulk.2 = put.2 ∧ (¬ astray → Agree id put.1 bulk.1) ∧
      (astray → put.1 = .error (.call .stale) ∧
        ∀ i db, m.access s.stopping h.name = .ok (i, db) →
          bulk.1 = .ok [⟨id, .error .missing⟩]) := by
  intro put bulk astray
  have hwire := Edit.ofMembers_withId hid
  cases hedit : Edit.ofMembers entries with
  | error f =>
    rw [hedit] at hwire
    obtain ⟨hput, hbulk⟩ : put = _ ∧ bulk = _ := outcomes_of_malformed hedit hwire o
    have hno : ¬ astray := by
      rintro ⟨⟨e, he, -⟩, -⟩
      rw [hedit] at he
      cases he
    rw [hput, hbulk]
    exact ⟨rfl, fun _ => .failed _, fun h => absurd h hno⟩
  | ok e =>
    rw [hedit] at hwire
    -- The bulk write has no such check: the id among the members is the one that it takes.
    have hcheck : checkEditId id e = .ok () := checkEditId_of_named hid hedit
    have hastray : astray ↔ e.Bare ∧ m.Lacks s.stopping h.name id := by
      simp only [astray, hedit, Except.ok.injEq, exists_eq_left']
    by_cases hbare : e.Bare
    · have hlacks : astray ↔ m.Lacks s.stopping h.name id := by simp [hastray, hbare]
      rw [hlacks]
      exact outcomes_of_bare hedit hcheck hbare hwire o
    · have hno : ¬ astray := fun h => hbare (hastray.1 h).1
      obtain ⟨hstate, hagree⟩ := outcomes_of_not_bare hedit hcheck hbare hwire o
      exact ⟨hstate, fun _ => hagree, fun h => absurd h hno⟩

/-- A memory with one database, in which there is one document. -/
def oneDocument : Memory :=
  ⟨[(Database.create "d").commit (Store.empty.after [.graft "a" [⟨1, "r"⟩] false .emptyObject])],
    SortedMap.empty.insert "d" 0, .initial⟩

/-- An update that names the revision that it replaces. -/
theorem bulk_of_update_agrees :
    let s := hosting (Database.create "d")
    let entries := [("_rev", Json.string "1-r"), ("n", .nat 1)]
    let put := (s.putDocument ⟨"d", .empty⟩ "a" (.members entries) none).outcome
      (.memory oneDocument)
    let bulk := (s.bulkDocuments ⟨"d", .empty⟩ ⟨[.members (Edit.withId "a" entries)], some true⟩
      .empty).outcome (.memory oneDocument)
    Entries.get? "_id" entries = none ∧ bulk.2 = put.2 ∧ Agree "a" put.1 bulk.1 ∧
      ∃ rev, put.1 = .ok ("a", rev) := by
  intro s entries put bulk
  have hid : Entries.get? "_id" entries = none := rfl
  obtain ⟨hstate, hagree, -⟩ :=
    bulk_of_one_agrees s ⟨"d", .empty⟩ "a" entries .empty oneDocument (.inl hid)
  refine ⟨hid, hstate, hagree ?_, _, rfl⟩
  rintro ⟨⟨e, he, hbare⟩, -⟩
  cases he
  exact absurd hbare.1 (by decide)

/-- In a database without documents a deletion that names no revision is a conflict on the one path
and finds no document on the other. -/
theorem absent_deletion_disagrees :
    let s := hosting (Database.create "d")
    let m : Memory := ⟨[Database.create "d"], SortedMap.empty.insert "d" 0, .initial⟩
    let entries := [("_deleted", Json.bool true)]
    let put := (s.putDocument ⟨"d", .empty⟩ "a" (.members entries) none).outcome (.memory m)
    let bulk := (s.bulkDocuments ⟨"d", .empty⟩ ⟨[.members (Edit.withId "a" entries)], some true⟩
      .empty).outcome (.memory m)
    (Database.create "d").Reachable ∧ Entries.get? "_id" entries = none ∧
      put.1 = .error (.call .stale) ∧ bulk.1 = .ok [⟨"a", .error .missing⟩] ∧
      ¬ Agree "a" put.1 bulk.1 := by
  intro s m entries put bulk
  have hput : put.1 = .error (.call .stale) := rfl
  have hbulk : bulk.1 = .ok [⟨"a", .error .missing⟩] := rfl
  refine ⟨.create "d", rfl, hput, hbulk, ?_⟩
  rw [hput, hbulk]
  intro hagree
  cases hagree

end Server

end DocumentDb
