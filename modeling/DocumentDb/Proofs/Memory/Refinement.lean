import DocumentDb.Proofs.Memory.Kept
import DocumentDb.Proofs.Memory.Shelf
import DocumentDb.Proofs.SortedMap.Keys

/-! # Databases in memory act as a plain map

A memory keeps the databases at positions, a catalog that leads from names to positions, and in each
database a flag that tells whether it has been destroyed. As long as the catalog leads to open
databases alone, and no two names to the same one, a user sees a plain map from names to stores.

* `Memory.InStep`: the catalog and the databases agree.
* `Memory.Becomes`: what a call may do to the database under a name.
* `Memory.Shows`, `Refines`: the plain map that a memory shows, and calls that keep to it.
* `Operation.refines`, `Operation.spares`: one operation, and what it does not touch.
* `Memory.acts_as_shelf`: all runs.
-/

namespace DocumentDb

namespace Memory

/-! ## The catalog and the databases -/

/-- The catalog leads to databases that exist and are open, each of which has one name. -/
structure InStep (m : Memory) : Prop where
  opened : ∀ {name i}, m.catalog.get? name = some i →
    ∃ db, m.databases[i]? = some db ∧ db.closed = false
  apart : ∀ {name other i}, m.catalog.get? name = some i → m.catalog.get? other = some i →
    name = other

/-- The store under a name. -/
def store? (m : Memory) (name : String) : Option Store :=
  match m.lookup name with
  | .ok (_, db) => some db.store
  | .error _ => none

/-- Another memory has some store under a name, or none, and the same databases elsewhere. -/
structure Becomes (m : Memory) (name : String) (s : Option Store) (m' : Memory) : Prop where
  inStep : m'.InStep
  ids : m'.ids = m.ids
  here : m'.store? name = s
  elsewhere : ∀ {other}, other ≠ name → m'.lookup other = m.lookup other

section
variable {m : Memory} {name other : String} {i : Nat} {db db' : Database}

theorem lookup_of_get?_none (h : m.catalog.get? name = none) : m.lookup name = .error .missing := by
  unfold lookup
  rw [h]

theorem InStep.lookup (h : m.InStep) (name : String) :
    (∃ i db, m.catalog.get? name = some i ∧ m.databases[i]? = some db ∧ db.closed = false ∧
      m.lookup name = .ok (i, db)) ∨
      m.catalog.get? name = none ∧ m.lookup name = .error .missing := by
  cases hname : m.catalog.get? name with
  | none => exact .inr ⟨rfl, lookup_of_get?_none hname⟩
  | some i =>
    obtain ⟨db, hdb, hopen⟩ := h.opened hname
    exact .inl ⟨i, db, rfl, hdb, hopen, lookup_eq_ok.2 ⟨hname, hdb⟩⟩

/-- A write leaves the database open and does not touch any other. -/
theorem InStep.becomes_setAt (h : m.InStep) (hname : m.catalog.get? name = some i)
    (hdb : m.databases[i]? = some db) (hopen : db'.closed = false) :
    m.Becomes name (some db'.store) (m.setAt i db') where
  inStep := by
    refine ⟨fun {other j} hother => ?_, h.apart⟩
    by_cases hij : j = i
    · subst hij
      exact ⟨db', database_setAt hdb, hopen⟩
    · rw [database_setAt_of_ne hij]
      exact h.opened hother
  ids := rfl
  here := by
    have hfound : (m.setAt i db').lookup name = .ok (i, db') :=
      lookup_eq_ok.2 ⟨hname, database_setAt hdb⟩
    rw [store?, hfound]
  elsewhere := by
    intro other hne
    have hcatalog : (m.setAt i db').catalog.get? other = m.catalog.get? other := rfl
    unfold Memory.lookup
    rw [hcatalog]
    cases hother : m.catalog.get? other with
    | none => rfl
    | some j =>
      -- Another name leads to another position.
      have hij : j ≠ i := by
        rintro rfl
        exact hne (h.apart hother hname)
      dsimp only
      rw [database_setAt_of_ne hij]

/-- A new database takes a position that no name leads to. -/
theorem InStep.becomes_create (h : m.InStep) (name : String) :
    m.Becomes name (some .empty) { m with
      databases := m.databases ++ [.create name]
      catalog := m.catalog.insert name m.databases.length } := by
  have hbelow : ∀ {other j}, m.catalog.get? other = some j → j < m.databases.length := by
    intro other j hother
    obtain ⟨db, hdb, -⟩ := h.opened hother
    exact (List.getElem?_eq_some_iff.1 hdb).1
  have hnew : (m.databases ++ [Database.create name])[m.databases.length]? =
      some (Database.create name) := by simp
  have hcatalog : ∀ other, (m.catalog.insert name m.databases.length).get? other =
      if other = name then some m.databases.length else m.catalog.get? other :=
    fun other => SortedMap.get?_insert _ _ _ _
  refine ⟨⟨?_, ?_⟩, rfl, ?_, ?_⟩
  · intro other j hother
    rw [hcatalog] at hother
    split at hother
    · cases hother
      exact ⟨_, hnew, rfl⟩
    · obtain ⟨db, hdb, hopen⟩ := h.opened hother
      exact ⟨db, by rw [List.getElem?_append_left (hbelow hother), hdb], hopen⟩
  · intro a b j ha hb
    rw [hcatalog] at ha hb
    split at ha <;> split at hb
    · next haname hbname => rw [haname, hbname]
    · cases ha
      exact absurd (hbelow hb) (Nat.lt_irrefl _)
    · cases hb
      exact absurd (hbelow ha) (Nat.lt_irrefl _)
    · exact h.apart ha hb
  · unfold store?
    rw [lookup_eq_ok.2 ⟨SortedMap.get?_insert_self _ _ _, hnew⟩]
    rfl
  · intro other hne
    unfold Memory.lookup
    dsimp only
    rw [hcatalog, if_neg hne]
    cases hother : m.catalog.get? other with
    | none => rfl
    | some j =>
      dsimp only
      rw [List.getElem?_append_left (hbelow hother)]

/-- A destroyed database is closed, and no name leads to it any more. -/
theorem InStep.becomes_destroy (h : m.InStep) (hname : m.catalog.get? name = some i) :
    m.Becomes name none { m.setAt i db' with catalog := m.catalog.erase name } := by
  have hgone : (m.catalog.erase name).get? name = none := SortedMap.get?_erase_self _ _
  have hkept : ∀ {other}, other ≠ name →
      (m.catalog.erase name).get? other = m.catalog.get? other :=
    fun hne => SortedMap.get?_erase_of_ne _ hne
  have hother : ∀ {other j}, (m.catalog.erase name).get? other = some j →
      other ≠ name ∧ m.catalog.get? other = some j := by
    intro other j hj
    have hne : other ≠ name := by
      rintro rfl
      rw [hgone] at hj
      cases hj
    exact ⟨hne, by rw [← hkept hne, hj]⟩
  have hapart : ∀ {other j}, other ≠ name → m.catalog.get? other = some j → j ≠ i := by
    rintro other j hne hj rfl
    exact hne (h.apart hj hname)
  refine ⟨⟨?_, ?_⟩, rfl, ?_, ?_⟩
  · intro other j hj
    obtain ⟨hne, hj⟩ := hother hj
    have hsame : (m.setAt i db').databases[j]? = m.databases[j]? :=
      database_setAt_of_ne (hapart hne hj)
    obtain ⟨db, hdb, hopen⟩ := h.opened hj
    exact ⟨db, hsame.trans hdb, hopen⟩
  · intro a b j ha hb
    exact h.apart (hother ha).2 (hother hb).2
  · unfold store?
    rw [lookup_of_get?_none hgone]
  · intro other hne
    unfold Memory.lookup
    dsimp only
    rw [hkept hne]
    cases hj : m.catalog.get? other with
    | none => rfl
    | some j =>
      dsimp only
      rw [database_setAt_of_ne (hapart hne hj)]

end

theorem outcome_createDb (m : Memory) (name : String) :
    (createDb false name).outcome m =
      if m.catalog.contains name then
        (.error (.preconditionFailed
          "the database could not be created, the file already exists"), m)
      else
        (.ok (), { m with
          databases := m.databases ++ [.create name]
          catalog := m.catalog.insert name m.databases.length }) := rfl

theorem outcome_destroyDb (m : Memory) (name : String) :
    (destroyDb false name).outcome m =
      match m.lookup name with
      | .error e => (.error e, m)
      | .ok (i, db) => (.ok (), { m.setAt i db.close with catalog := m.catalog.erase name }) := rfl

/-! ## What a memory shows -/

/-- A memory is in step and shows the stores of a plain map. -/
structure Shows (m : Memory) (p : Shelf) : Prop where
  inStep : m.InStep
  ids : p.ids = m.ids
  stores : ∀ name, p.stores.get? name = m.store? name

theorem shows_empty (ids : IdSupply) : (empty ids).Shows (.empty ids) where
  inStep := ⟨fun h => (nomatch h), fun h => (nomatch h)⟩
  ids := rfl
  stores _ := rfl

section
variable {m m' : Memory} {p : Shelf} {name : String}

theorem Shows.insert (h : m.Shows p) {s : Store} (hm : m.Becomes name (some s) m') :
    m'.Shows { p with stores := p.stores.insert name s } where
  inStep := hm.inStep
  ids := h.ids.trans hm.ids.symm
  stores other := by
    by_cases hne : other = name
    · rw [hne, hm.here]
      exact SortedMap.get?_insert_self _ _ _
    · have hsame : m'.store? other = m.store? other := by rw [store?, store?, hm.elsewhere hne]
      rw [hsame, ← h.stores]
      exact SortedMap.get?_insert_of_ne _ hne _

theorem Shows.erase (h : m.Shows p) (hm : m.Becomes name none m') :
    m'.Shows { p with stores := p.stores.erase name } where
  inStep := hm.inStep
  ids := h.ids.trans hm.ids.symm
  stores other := by
    by_cases hne : other = name
    · rw [hne, hm.here]
      exact SortedMap.get?_erase_self _ _
    · have hsame : m'.store? other = m.store? other := by rw [store?, store?, hm.elsewhere hne]
      rw [hsame, ← h.stores]
      exact SortedMap.get?_erase_of_ne _ hne

/-- What a call finds under a name. -/
theorem Shows.access (h : m.Shows p) (name : String) :
    (∃ i db, m.catalog.get? name = some i ∧ m.databases[i]? = some db ∧ db.closed = false ∧
      m.access false name = .ok (i, db) ∧ p.stores.get? name = some db.store) ∨
      m.catalog.get? name = none ∧ m.access false name = .error .missing ∧
        p.stores.get? name = none := by
  obtain ⟨i, db, hname, hdb, hopen, hfound⟩ | ⟨hname, hmissing⟩ := h.inStep.lookup name
  · left
    refine ⟨i, db, hname, hdb, hopen, access_eq_ok.2 ⟨hfound, rfl, hopen⟩, ?_⟩
    rw [h.stores, store?, hfound]
  · right
    refine ⟨hname, ?_, ?_⟩
    · rw [Memory.access, hmissing]
      rfl
    · rw [h.stores, store?, hmissing]

theorem Shows.contains (h : m.Shows p) (name : String) :
    m.catalog.contains name = p.stores.contains name := by
  unfold SortedMap.contains
  obtain ⟨i, db, hname, -, -, -, hstore⟩ | ⟨hname, -, hstore⟩ := h.access name
  · rw [hname, hstore]
    rfl
  · rw [hname, hstore]
    rfl

theorem Shows.names (h : m.Shows p) : m.names = p.stores.keys := by
  have hkeys : m.catalog.keys = p.stores.keys :=
    SortedMap.keys_eq fun name => by rw [h.contains]
  exact hkeys

end

end Memory

/-! ## Calls -/

open Memory (Shows)

/-- A call on databases in memory does what a call on the plain map does that they show. -/
def Refines {α : Type} (c : Call Memory α) (c' : Call Shelf α) : Prop :=
  ∀ m p, m.Shows p →
    (c.outcome m).1 = (c'.outcome p).1 ∧ (c.outcome m).2.Shows (c'.outcome p).2

namespace Refines

variable {α β : Type}

protected theorem pure (a : α) : Refines (pure a) (pure a) := fun _ _ h => ⟨rfl, h⟩

protected theorem bind {c : Call Memory α} {c' : Call Shelf α} {f : α → Call Memory β}
    {f' : α → Call Shelf β} (hc : Refines c c') (hf : ∀ a, Refines (f a) (f' a)) :
    Refines (c >>= f) (c' >>= f') := by
  intro m p h
  obtain ⟨hfirst, hshows⟩ := hc m p h
  rw [Call.outcome_bind, Call.outcome_bind]
  generalize c.outcome m = r at hfirst hshows
  generalize c'.outcome p = r' at hfirst hshows
  obtain ⟨x, m'⟩ := r
  obtain ⟨x', p'⟩ := r'
  obtain rfl : x = x' := hfirst
  cases x with
  | error e => exact ⟨rfl, hshows⟩
  | ok a => exact hf a m' p' hshows

theorem ofExcept (r : Except Error α) : Refines (Call.ofExcept r) (Call.ofExcept r) :=
  fun _ _ h => ⟨rfl, h⟩

theorem look {f : Memory → Except Error α} {f' : Shelf → Except Error α}
    (hf : ∀ m p, m.Shows p → f m = f' p) : Refines (Call.look f) (Call.look f') :=
  fun m p h => ⟨hf m p h, h⟩

theorem read (name : String) (f : Store → α) :
    Refines (Memory.read false name f) (Shelf.read name f) := by
  intro m p h
  rw [Memory.outcome_read]
  unfold Shelf.read
  rw [Call.outcome_look]
  obtain ⟨i, db, -, -, -, hfound, hstore⟩ | ⟨-, hmissing, hstore⟩ := h.access name
  · rw [hfound, hstore]
    exact ⟨rfl, h⟩
  · rw [hmissing, hstore]
    exact ⟨rfl, h⟩

theorem write (name : String) (f : Store → Except Error α × Store) :
    Refines (Memory.write false name f) (Shelf.write name f) := by
  intro m p h
  rw [Memory.outcome_write]
  unfold Shelf.write
  rw [Call.outcome_ofStep]
  obtain ⟨i, db, hname, hdb, hopen, hfound, hstore⟩ | ⟨-, hmissing, hstore⟩ := h.access name
  · rw [hfound, hstore]
    have hclosed : (db.accept (f db.store).2).closed = false := by rw [db.closed_accept, hopen]
    have hbecomes := h.inStep.becomes_setAt hname hdb hclosed
    rw [db.store_accept] at hbecomes
    exact ⟨rfl, h.insert hbecomes⟩
  · rw [hmissing, hstore]
    exact ⟨rfl, h⟩

theorem draw (f : IdSupply → α × IdSupply) :
    Refines (Call.ofStep fun m => (.ok (f m.ids).1, { m with ids := (f m.ids).2 }))
      (Shelf.draw f) := by
  intro m p h
  unfold Shelf.draw
  rw [Call.outcome_ofStep, Call.outcome_ofStep, h.ids]
  exact ⟨rfl, ⟨h.inStep.opened, h.inStep.apart⟩, rfl, h.stores⟩

theorem create (name : String) : Refines (Memory.createDb false name) (Shelf.create name) := by
  intro m p h
  unfold Shelf.create
  rw [Memory.outcome_createDb, Call.outcome_ofStep, h.contains]
  split
  · exact ⟨rfl, h⟩
  · exact ⟨rfl, h.insert (h.inStep.becomes_create name)⟩

theorem destroy (name : String) : Refines (Memory.destroyDb false name) (Shelf.destroy name) := by
  intro m p h
  unfold Shelf.destroy
  rw [Memory.outcome_destroyDb, Call.outcome_ofStep, ← h.contains]
  obtain ⟨i, db, hname, -, -, hfound⟩ | ⟨hname, hmissing⟩ := h.inStep.lookup name
  · have hheld : m.catalog.contains name = true := by rw [SortedMap.contains, hname]; rfl
    rw [hfound, if_pos hheld]
    exact ⟨rfl, h.erase (h.inStep.becomes_destroy hname)⟩
  · have hfree : ¬ m.catalog.contains name = true := by rw [SortedMap.contains, hname]; simp
    rw [hmissing, if_neg hfree]
    exact ⟨rfl, h⟩

/-- A token that is not cancelled lets a call go on. -/
theorem live {c : Call Memory α} {c' : Call Shelf α} (hc : Refines c c') :
    Refines (Call.ensureLive false >>= fun _ => c) c' := hc

theorem holds (name : String) : Refines (Memory.dbExists false name) (Shelf.holds name) := by
  refine live (look fun m p h => ?_)
  rw [h.contains]

theorem names : Refines (Memory.allDbs false) Shelf.names := by
  refine live (look fun m p h => ?_)
  rw [h.names]

theorem handle (name : String) :
    Refines (Memory.openDb false name) (Shelf.read name fun _ => ()) := by
  refine live (look fun m p h => ?_)
  obtain ⟨i, db, hname, hdb, hopen, hfound, hstore⟩ | ⟨hname, hmissing, hstore⟩ := h.access name
  · rw [hstore, Memory.lookup_eq_ok.2 ⟨hname, hdb⟩]
    rfl
  · rw [hstore, Memory.lookup_of_get?_none hname]
    rfl

end Refines

/-! ## Other databases -/

namespace Memory

/-- The catalog and the databases still agree, and there is the same database under some name. -/
def Spares (other : String) (m m' : Memory) : Prop :=
  m.InStep → m'.InStep ∧ m'.lookup other = m.lookup other

instance (other : String) : IsPreorder Memory (Spares other) where
  refl _ h := ⟨h, rfl⟩
  trans _ _ _ h h' hm :=
    have hfirst := h hm
    have hsecond := h' hfirst.1
    ⟨hsecond.1, hsecond.2.trans hfirst.2⟩

section
variable {α : Type} {other name : String}

theorem Becomes.spares {m m' : Memory} {s : Option Store} (h : m.Becomes name s m')
    (hne : other ≠ name) : m'.InStep ∧ m'.lookup other = m.lookup other :=
  ⟨h.inStep, h.elsewhere hne⟩

theorem spares_of_kept {c : Call Memory α} (hc : Within Kept c) : Within (Spares other) c := by
  intro m h
  obtain ⟨ids, hsame⟩ := hc m
  rw [hsame]
  exact ⟨⟨h.opened, h.apart⟩, rfl⟩

theorem spares_write (hne : other ≠ name) (f : Store → Except Error α × Store) :
    Within (Spares other) (write false name f) := by
  refine within_of_outcome fun m h => ?_
  rw [outcome_write]
  cases hfound : m.access false name with
  | error e => exact ⟨h, rfl⟩
  | ok found =>
    obtain ⟨i, db⟩ := found
    obtain ⟨hlookup, -, hopen⟩ := access_eq_ok.1 hfound
    obtain ⟨hname, hdb⟩ := lookup_eq_ok.1 hlookup
    have hclosed : (db.accept (f db.store).2).closed = false := by rw [db.closed_accept, hopen]
    exact (h.becomes_setAt hname hdb hclosed).spares hne

theorem spares_createDb (hne : other ≠ name) : Within (Spares other) (createDb false name) := by
  refine within_of_outcome fun m h => ?_
  rw [outcome_createDb]
  split
  · exact ⟨h, rfl⟩
  · exact (h.becomes_create name).spares hne

theorem spares_destroyDb (hne : other ≠ name) : Within (Spares other) (destroyDb false name) := by
  refine within_of_outcome fun m h => ?_
  rw [outcome_destroyDb]
  obtain ⟨i, db, hname, -, -, hfound⟩ | ⟨-, hmissing⟩ := h.lookup name
  · rw [hfound]
    exact (h.becomes_destroy hname).spares hne
  · rw [hmissing]
    exact ⟨h, rfl⟩

end

end Memory

/-! ## Operations -/

namespace Operation

open Refines (read write draw)

/-- One operation does to databases in memory what it does to the plain map that they show. -/
theorem refines (op : Operation) : Refines op.run op.plain := by
  cases op with
  | create name => exact (Refines.create name).bind fun _ => .pure _
  | destroy name => exact (Refines.destroy name).bind fun _ => .pure _
  | probe name => exact (Refines.holds name).bind fun _ => .pure _
  | names => exact Refines.names.bind fun _ => .pure _
  | handle name => exact (Refines.handle name).bind fun _ => .pure _
  | info name => exact (read name _).bind fun _ => .pure _
  | put name id body rev => exact (write name _).bind fun _ => .pure _
  | createDoc name body =>
    simp only [run, plain, Memory.createDoc, bind_assoc, pure_bind]
    exact (draw IdSupply.next).bind fun id => (write name _).bind fun _ => .pure _
  | get name id rev o =>
    simp only [run, plain, Memory.get, bind_assoc]
    exact (Refines.ofExcept _).bind fun _ => (read name _).bind fun _ =>
      (Refines.ofExcept _).bind fun _ => .pure _
  | delete name id rev => exact (write name _).bind fun _ => .pure _
  | bulk name edits o =>
    simp only [run, plain, Memory.bulk, bind_assoc]
    exact (Refines.ofExcept _).bind fun newEdits =>
      (draw (Bulk.assign (newEdits.getD true) edits)).bind fun _ =>
        (write name _).bind fun _ => .pure _
  | list name o =>
    simp only [run, plain, Memory.list, bind_assoc]
    exact (Refines.ofExcept _).bind fun _ => (read name _).bind fun _ => .pure _

theorem runAll_refines (ops : List Operation) {m : Memory} {p : Shelf} (h : m.Shows p) :
    (runAll run ops m).1 = (runAll plain ops p).1 ∧
      (runAll run ops m).2.Shows (runAll plain ops p).2 := by
  induction ops generalizing m p with
  | nil => exact ⟨rfl, h⟩
  | cons op ops ih =>
    obtain ⟨hanswer, hshows⟩ := op.refines m p h
    obtain ⟨hanswers, hend⟩ := ih hshows
    exact ⟨congrArg₂ List.cons hanswer hanswers, hend⟩

/-- An operation does not touch the databases under other names than the one that it is about. -/
theorem spares {op : Operation} {other : String} (h : op.name? ≠ some other) :
    Within (Memory.Spares other) op.run := by
  have hne : ∀ {name}, op.name? = some name → other ≠ name := by
    rintro name hname rfl
    exact h hname
  have hget : ∀ {α : Type} {c : Call Memory α} (f : α → Answer), Within Memory.Kept c →
      Within (Memory.Spares other) (c >>= fun a => pure (f a)) := by
    intro α c f hc
    exact (Memory.spares_of_kept hc).bind fun _ => within_pure _
  cases op with
  | create name => exact (Memory.spares_createDb (hne rfl)).bind fun _ => within_pure _
  | destroy name => exact (Memory.spares_destroyDb (hne rfl)).bind fun _ => within_pure _
  | probe name => exact hget _ (Memory.kept_dbExists false name)
  | names => exact hget _ (Memory.kept_allDbs false)
  | handle name => exact hget _ (Memory.kept_openDb false name)
  | info name => exact hget _ (Memory.kept_info false name)
  | put name id body rev =>
    exact (Memory.spares_write (hne rfl) _).bind fun _ => within_pure _
  | createDoc name body =>
    have hdoc : Within (Memory.Spares other) (Memory.createDoc false name body) :=
      (Memory.spares_of_kept Memory.kept_freshId).bind fun _ =>
        (Memory.spares_write (hne rfl) _).bind fun _ => within_pure _
    exact hdoc.bind fun _ => within_pure _
  | get name id rev o => exact hget _ (Memory.kept_get false name id rev o)
  | delete name id rev => exact (Memory.spares_write (hne rfl) _).bind fun _ => within_pure _
  | bulk name edits o =>
    have hbulk : Within (Memory.Spares other) (Memory.bulk false name edits o) :=
      (Memory.spares_of_kept (Memory.kept_ofExcept _)).bind fun _ =>
        (Memory.spares_of_kept (Memory.kept_assign _ edits)).bind fun _ =>
          Memory.spares_write (hne rfl) _
    exact hbulk.bind fun _ => within_pure _
  | list name o => exact hget _ (Memory.kept_list false name o)

end Operation

/-- Whatever is asked of the databases of a client, through handles that may be older than the
databases under their names: the answers are those of a plain map from names to stores, which is
what the databases show in the end. Every database in the catalog is open, the next operation leaves
the databases under other names as they are, and if it creates a database, this one is empty. -/
theorem Memory.acts_as_shelf (ids : IdSupply) (ops : List Operation) :
    let m := Operation.runAll Operation.run ops (Memory.empty ids)
    let p := Operation.runAll Operation.plain ops (Shelf.empty ids)
    m.1 = p.1 ∧ (∀ name, m.2.store? name = p.2.stores.get? name) ∧
      (∀ name i, m.2.catalog.get? name = some i →
        ∃ db, m.2.databases[i]? = some db ∧ db.closed = false) ∧
      (∀ (op : Operation) (other : String), op.name? ≠ some other →
        (op.run.outcome m.2).2.lookup other = m.2.lookup other) ∧
      ∀ name, ((Memory.createDb false name).outcome m.2).1 = .ok () →
        ((Memory.createDb false name).outcome m.2).2.store? name = some .empty := by
  intro m p
  obtain ⟨hanswers, hshows⟩ := Operation.runAll_refines ops (Memory.shows_empty ids)
  refine ⟨hanswers, fun name => (hshows.stores name).symm, fun name i => hshows.inStep.opened,
    fun op other hother => ?_, fun name hcreated => ?_⟩
  · exact (Operation.spares hother m.2 hshows.inStep).2
  · rw [Memory.outcome_createDb] at hcreated ⊢
    split at hcreated
    · cases hcreated
    · next hfree =>
      rw [if_neg hfree]
      exact (hshows.inStep.becomes_create name).here

/-- A document that is written through a handle is gone with its database, also for a handle that
is opened before and used after a database of the same name has been created. -/
example :
    let edit := Edit.replicated "a" [⟨1, "x"⟩] false .emptyObject
    let replicated := Options.empty.set "new_edits" (.bool false)
    (Operation.runAll Operation.run
      [.create "d", .handle "d", .bulk "d" [edit] replicated, .destroy "d",
        .get "d" "a" none .empty, .create "d", .info "d", .get "d" "a" none .empty]
      (Memory.empty .initial)).1 =
      [.ok .done, .ok .done, .ok (.outcomes [⟨"a", .ok ⟨1, "x"⟩⟩]), .ok .done, .error .missing,
        .ok .done, .ok (.info ⟨"d", 0, 0, 0⟩), .error .missing] := by
  rfl

end DocumentDb
