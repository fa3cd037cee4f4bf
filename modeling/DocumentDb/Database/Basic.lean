import DocumentDb.Store.Basic

/-! # Databases

A database is a store with a watch on its update sequence and a flag that tells whether it has been
destroyed. A watch counts how often something has been announced, so that an observer who remembers
the count notices every announcement after it.

A write commits its store and then announces the new sequence number; closing sets the flag and then
announces. `Database.commit`, `Database.announce`, `Database.markClosed` and `Database.alert` are
the single steps.
-/

namespace DocumentDb

/-- A value that observers wait on. -/
structure Watch where
  /-- How often the value has been announced. -/
  version : Nat
  value : Nat
deriving DecidableEq

/-- A database. -/
structure Database where
  name : String
  store : Store
  /-- The update sequence as announced last. -/
  watch : Watch
  /-- Whether the database has been destroyed. -/
  closed : Bool

namespace Database

/-- A new database. -/
def create (name : String) : Database := ⟨name, .empty, ⟨0, 0⟩, false⟩

/-! ## Single steps -/

/-- The database with the store of a write, which is not announced yet. -/
def commit (db : Database) (s : Store) : Database := { db with store := s }

/-- The database with its update sequence announced. -/
def announce (db : Database) : Database :=
  { db with watch := ⟨db.watch.version + 1, db.store.updateSeq⟩ }

/-- The database marked as destroyed, which is not announced yet. -/
def markClosed (db : Database) : Database := { db with closed := true }

/-- The database after every observer has been alerted. -/
def alert (db : Database) : Database :=
  { db with watch := { db.watch with version := db.watch.version + 1 } }

@[simp] theorem store_commit (db : Database) (s : Store) : (db.commit s).store = s := rfl

@[simp] theorem watch_commit (db : Database) (s : Store) : (db.commit s).watch = db.watch := rfl

@[simp] theorem closed_commit (db : Database) (s : Store) : (db.commit s).closed = db.closed := rfl

@[simp] theorem store_announce (db : Database) : db.announce.store = db.store := rfl

@[simp] theorem watch_announce (db : Database) :
    db.announce.watch = ⟨db.watch.version + 1, db.store.updateSeq⟩ := rfl

@[simp] theorem closed_announce (db : Database) : db.announce.closed = db.closed := rfl

@[simp] theorem store_markClosed (db : Database) : db.markClosed.store = db.store := rfl

@[simp] theorem watch_markClosed (db : Database) : db.markClosed.watch = db.watch := rfl

@[simp] theorem closed_markClosed (db : Database) : db.markClosed.closed = true := rfl

@[simp] theorem store_alert (db : Database) : db.alert.store = db.store := rfl

@[simp] theorem watch_alert (db : Database) :
    db.alert.watch = ⟨db.watch.version + 1, db.watch.value⟩ := rfl

@[simp] theorem closed_alert (db : Database) : db.alert.closed = db.closed := rfl

/-! ## Whole calls -/

/-- The destroyed database. -/
def close (db : Database) : Database := db.markClosed.alert

/-- Whether a call on the database may go on. -/
def check (db : Database) (cancelled : Bool) : Except Error Unit :=
  if cancelled then .error .cancelled
  else if db.closed then .error .missing
  else .ok ()

/-- What a function says about the store. -/
def read {α : Type} (db : Database) (cancelled : Bool) (f : Store → α) : Except Error α :=
  (db.check cancelled).map fun _ => f db.store

/-- The outcome of a write and the database afterwards. The update sequence is announced if it has
moved. -/
def write {α : Type} (db : Database) (cancelled : Bool) (f : Store → Except Error α × Store) :
    Except Error α × Database :=
  match db.check cancelled with
  | .error e => (.error e, db)
  | .ok () =>
    let (result, s) := f db.store
    let committed := db.commit s
    (result, if s.updateSeq = db.store.updateSeq then committed else committed.announce)

end Database

end DocumentDb
