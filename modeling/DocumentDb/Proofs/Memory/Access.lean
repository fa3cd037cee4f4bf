import DocumentDb.Proofs.Memory.Events

/-! # One call on one database

A call on a database looks its name up, asks whether it may go on, and reads or writes the store.

* `Memory.access`: what comes before the store is touched.
* `Memory.outcome_read`, `Memory.outcome_write`: a call in terms of it.
* `Memory.outcome_write_of_refused`: a write that its store refuses leaves everything as it is.
* `Memory.write_eq_ok`: what a write that succeeds has done.
-/

namespace DocumentDb

/-- The database with the store of a write, announced if its update sequence has moved. -/
def Database.accept (db : Database) (s : Store) : Database :=
  if s.updateSeq = db.store.updateSeq then db.commit s else (db.commit s).announce

@[simp] theorem Database.store_accept (db : Database) (s : Store) : (db.accept s).store = s := by
  unfold Database.accept
  split <;> rfl

@[simp] theorem Database.closed_accept (db : Database) (s : Store) :
    (db.accept s).closed = db.closed := by
  unfold Database.accept
  split <;> rfl

theorem Database.accept_self (db : Database) : db.accept db.store = db := if_pos rfl

theorem Database.check_eq_ok {db : Database} {cancelled : Bool} {u : Unit} :
    db.check cancelled = .ok u ↔ cancelled = false ∧ db.closed = false := by
  unfold Database.check
  cases cancelled with
  | true => simp
  | false => cases db.closed <;> simp

namespace Memory

variable {α β : Type} {m : Memory} {cancelled : Bool} {name : String} {i : Nat} {db : Database}

/-- The database under a name with its position, for a call that may go on. -/
def access (m : Memory) (cancelled : Bool) (name : String) : Except Error (Nat × Database) := do
  let (i, db) ← m.lookup name
  db.check cancelled
  return (i, db)

theorem access_eq_ok : m.access cancelled name = .ok (i, db) ↔
    m.lookup name = .ok (i, db) ∧ cancelled = false ∧ db.closed = false := by
  unfold access
  cases hfound : m.lookup name with
  | error e => simp [bind, Except.bind]
  | ok found =>
    obtain ⟨j, db'⟩ := found
    have hcheck : db'.check cancelled = .ok () ↔ cancelled = false ∧ db'.closed = false :=
      Database.check_eq_ok
    cases hc : db'.check cancelled with
    | error e =>
      rw [hc] at hcheck
      have hno : ¬ (cancelled = false ∧ db'.closed = false) := fun h => nomatch hcheck.2 h
      constructor
      · simp [bind, Except.bind, hc]
      · rintro ⟨hsame, hopen⟩
        cases hsame
        exact absurd hopen hno
    | ok u =>
      have hopen := hcheck.1 hc
      simp only [bind, Except.bind, pure, Except.pure, hc, Except.ok.injEq, Prod.mk.injEq]
      constructor
      · rintro ⟨rfl, rfl⟩
        exact ⟨⟨rfl, rfl⟩, hopen⟩
      · exact fun h => h.1

theorem outcome_read (f : Store → α) :
    (read cancelled name f).outcome m =
      ((m.access cancelled name).map fun found => f found.2.store, m) := by
  show (m.lookup name >>= fun found => found.2.read cancelled f, m) = _
  unfold access
  cases m.lookup name with
  | error e => rfl
  | ok found =>
    obtain ⟨i, db⟩ := found
    simp only [bind, Except.bind, Database.read]
    cases db.check cancelled <;> rfl

/-- A write gives what its function says about the store, which is put in its place. -/
theorem outcome_write (f : Store → Except Error α × Store) :
    (write cancelled name f).outcome m =
      match m.access cancelled name with
      | .error e => (.error e, m)
      | .ok (i, db) => ((f db.store).1, m.setAt i (db.accept (f db.store).2)) := by
  unfold write access
  rw [Call.outcome_ofStep]
  cases hfound : m.lookup name with
  | error e => rfl
  | ok found =>
    obtain ⟨i, db⟩ := found
    simp only [bind, Except.bind, Database.write]
    cases db.check cancelled with
    | error e => exact congrArg _ (setAt_self (lookup_eq_ok.1 hfound).2)
    | ok u => rfl

theorem outcome_write_of_refused {f : Store → Except Error α × Store}
    (hf : ∀ s e, (f s).1 = .error e → (f s).2 = s) {e : Error}
    (h : ((write cancelled name f).outcome m).1 = .error e) :
    ((write cancelled name f).outcome m).2 = m := by
  rw [outcome_write] at h ⊢
  cases hfound : m.access cancelled name with
  | error e => rfl
  | ok found =>
    obtain ⟨i, db⟩ := found
    rw [hfound] at h
    have hsame : (f db.store).2 = db.store := hf db.store e h
    have hdb := (lookup_eq_ok.1 (access_eq_ok.1 hfound).1).2
    show m.setAt i (db.accept (f db.store).2) = m
    rw [hsame, db.accept_self, setAt_self hdb]

/-- A write that succeeds has found its database, and it leaves it where it was. -/
theorem write_eq_ok {m' : Memory} {f : Store → Except Error α × Store} {a : α}
    (h : (write cancelled name f).outcome m = (.ok a, m')) :
    ∃ i db db', m.lookup name = .ok (i, db) ∧ m'.lookup name = .ok (i, db') ∧
      f db.store = (.ok a, db'.store) := by
  rw [outcome_write] at h
  cases hfound : m.access cancelled name with
  | error e =>
    rw [hfound] at h
    cases h
  | ok found =>
    obtain ⟨i, db⟩ := found
    rw [hfound] at h
    obtain ⟨hresult, rfl⟩ := Prod.mk.inj h
    have hlookup := (access_eq_ok.1 hfound).1
    obtain ⟨hname, hdb⟩ := lookup_eq_ok.1 hlookup
    refine ⟨i, db, _, hlookup, lookup_eq_ok.2 ⟨hname, database_setAt hdb⟩, ?_⟩
    rw [Database.store_accept]
    exact Prod.ext hresult rfl

/-- Creating a document is a put under the next id of the supply. -/
theorem outcome_createDoc (body : Json) :
    let w := (write cancelled name fun s => s.put m.ids.next.1 body none).outcome
      { m with ids := m.ids.next.2 }
    (createDoc cancelled name body).outcome m = (w.1.map (m.ids.next.1, ·), w.2) := by
  intro w
  have hfresh : freshId.outcome m = (.ok m.ids.next.1, { m with ids := m.ids.next.2 }) := rfl
  have hput : (put cancelled name m.ids.next.1 body none).outcome { m with ids := m.ids.next.2 } =
      w := rfl
  unfold createDoc
  rw [Call.outcome_bind, hfresh]
  dsimp only
  rw [Call.outcome_bind, hput]
  clear_value w
  obtain ⟨x | x, m'⟩ := w
  · rfl
  · rfl

end Memory

end DocumentDb
