import DocumentDb.Call
import DocumentDb.Database.Feed
import DocumentDb.Store.Bulk

/-! # Databases in memory

A memory keeps every database that was ever created and a catalog of those that exist. A call names
its database, and the name is looked up anew for every call, so a handle outlives its database.
Feeds stay with the database on which they were opened.

* `Memory.createDb`, `Memory.destroyDb`: the life of a database.
* `Memory.put`, `Memory.createDoc`, `Memory.delete`, `Memory.bulk`: writes.
* `Memory.get`, `Memory.list`, `Memory.info`: reading.
* `Memory.openFeed`, `Memory.poll`: feeds of changes.
-/

namespace DocumentDb

/-- The databases of one client. -/
structure Memory where
  /-- Every database that was ever created, oldest first. -/
  databases : List Database
  /-- The positions of the databases that exist. -/
  catalog : SortedMap String Nat
  /-- The supply of fresh ids. -/
  ids : IdSupply

/-- A feed with the position of its database. -/
structure OpenFeed where
  source : Nat
  feed : Feed
deriving DecidableEq

namespace Memory

/-- The memory without databases that takes its ids from a supply. -/
def empty (ids : IdSupply) : Memory := ⟨[], .empty, ids⟩

instance : Inhabited Memory := ⟨empty .initial⟩

/-! ## Catalog -/

/-- The names of the databases that exist, in order. -/
def names (m : Memory) : List String := m.catalog.keys

/-- The database under a name, with its position. -/
def lookup (m : Memory) (name : String) : Except Error (Nat × Database) :=
  match m.catalog.get? name with
  | none => .error .missing
  | some i =>
    match m.databases[i]? with
    | none => .error .missing
    | some db => .ok (i, db)

/-- The memory with a database put at a position. -/
def setAt (m : Memory) (i : Nat) (db : Database) : Memory :=
  { m with databases := m.databases.set i db }

/-- Creates a database. -/
def createDb (cancelled : Bool) (name : String) : Call Memory Unit := do
  Call.ensureLive cancelled
  Call.ofStep fun m =>
    if m.catalog.contains name then
      (.error (.preconditionFailed
        "the database could not be created, the file already exists"), m)
    else
      (.ok (), { m with
        databases := m.databases ++ [.create name]
        catalog := m.catalog.insert name m.databases.length })

/-- Destroys a database. -/
def destroyDb (cancelled : Bool) (name : String) : Call Memory Unit := do
  Call.ensureLive cancelled
  Call.ofStep fun m =>
    match m.lookup name with
    | .error e => (.error e, m)
    | .ok (i, db) =>
      (.ok (), { m.setAt i db.close with catalog := m.catalog.erase name })

/-- The names of the databases. -/
def allDbs (cancelled : Bool) : Call Memory (List String) := do
  Call.ensureLive cancelled
  Call.look fun m => .ok m.names

/-- Whether a database exists. -/
def dbExists (cancelled : Bool) (name : String) : Call Memory Bool := do
  Call.ensureLive cancelled
  Call.look fun m => .ok (m.catalog.contains name)

/-- Fails unless a database exists. -/
def openDb (cancelled : Bool) (name : String) : Call Memory Unit := do
  Call.ensureLive cancelled
  Call.look fun m => (m.lookup name).map fun _ => ()

/-- Fresh ids. -/
def uuids (cancelled : Bool) (count : Nat) : Call Memory (List String) := do
  Call.ensureLive cancelled
  Call.ofStep fun m =>
    let (ids, supply) := m.ids.take count
    (.ok ids, { m with ids := supply })

/-! ## Reading and writing one database -/

/-- What a function says about the store of a database. -/
def read {α : Type} (cancelled : Bool) (name : String) (f : Store → α) : Call Memory α :=
  Call.look fun m => do
    let (_, db) ← m.lookup name
    db.read cancelled f

/-- A write to the store of a database. -/
def write {α : Type} (cancelled : Bool) (name : String) (f : Store → Except Error α × Store) :
    Call Memory α :=
  Call.ofStep fun m =>
    match m.lookup name with
    | .error e => (.error e, m)
    | .ok (i, db) =>
      let (result, db) := db.write cancelled f
      (result, m.setAt i db)

/-- A fresh id. -/
def freshId : Call Memory String :=
  Call.ofStep fun m =>
    let (id, supply) := m.ids.next
    (.ok id, { m with ids := supply })

/-- Creates or updates a document. -/
def put (cancelled : Bool) (name id : String) (body : Json) (rev : Option Revision) :
    Call Memory Revision :=
  write cancelled name fun s => s.put id body rev

/-- Creates a document under a fresh id. -/
def createDoc (cancelled : Bool) (name : String) (body : Json) :
    Call Memory (String × Revision) := do
  let id ← freshId
  let rev ← put cancelled name id body none
  return (id, rev)

/-- Deletes a document. -/
def delete (cancelled : Bool) (name id : String) (rev : Revision) : Call Memory Revision :=
  write cancelled name fun s => s.delete id rev

/-- The items of some edits, with fresh ids. -/
def assign (newEdits : Bool) (edits : List Edit) : Call Memory (List Bulk.Item) :=
  Call.ofStep fun m =>
    let (items, supply) := Bulk.assign newEdits edits m.ids
    (.ok items, { m with ids := supply })

/-- Applies edits, as new ones unless the option `new_edits` says otherwise. -/
def bulk (cancelled : Bool) (name : String) (edits : List Edit) (o : Options) :
    Call Memory (List BulkResult) := do
  let newEdits ← Call.ofExcept (o.getBool "new_edits")
  let newEdits := newEdits.getD true
  let items ← assign newEdits edits
  write cancelled name fun s =>
    let (results, s) := Bulk.applyAll newEdits s items
    (.ok results, s)

/-- A revision of a document, with its conflicts if the option `conflicts` says so. -/
def get (cancelled : Bool) (name id : String) (rev : Option Revision) (o : Options) :
    Call Memory Document := do
  let conflicts ← Call.ofExcept (o.flag "conflicts")
  let doc ← read cancelled name fun s => s.get id rev conflicts
  Call.ofExcept doc

/-- The enumeration of documents that some options ask for. -/
def list (cancelled : Bool) (name : String) (o : Options) : Call Memory Listing := do
  let q ← Call.ofExcept (ListingQuery.ofOptions o)
  read cancelled name fun s => s.list q

/-- The counters of a database. -/
def info (cancelled : Bool) (name : String) : Call Memory DbInfo :=
  read cancelled name fun s => s.info name

/-! ## Feeds -/

/-- Opens the feed that some options ask for. -/
def openFeed (cancelled : Bool) (now : Nat) (name : String) (o : Options) :
    Call Memory OpenFeed := do
  let q ← Call.ofExcept (ChangesQuery.ofOptions o)
  Call.look fun m => do
    let (i, db) ← m.lookup name
    let feed ← Feed.subscribe db cancelled q now
    return ⟨i, feed⟩

/-- The database of a feed. -/
def source (m : Memory) (f : OpenFeed) : Database :=
  (m.databases[f.source]?).getD { Database.create "" with closed := true }

/-- Asks a feed for its next entry. -/
def poll (m : Memory) (cancelled : Bool) (now : Nat) (f : OpenFeed) : Polled × OpenFeed :=
  let (p, feed) := f.feed.poll (m.source f) cancelled now
  (p, { f with feed })

/-- The entries that a feed hands out without waiting, and how it answers then. -/
def drain (m : Memory) (cancelled : Bool) (now : Nat) (f : OpenFeed) :
    List ChangeEntry × Polled × OpenFeed :=
  let (es, p, feed) := f.feed.drain (m.source f) cancelled now
  (es, p, { f with feed })

end Memory

end DocumentDb
