import DocumentDb.Memory

/-! # Databases as a plain map

What the databases of a client are to its user: stores by name, and a supply of ids. An operation
looks up the store that is under its name at the time, so nothing has to be remembered about a
database that is gone.

* `Shelf.read`, `Shelf.write`, `Shelf.create`, `Shelf.destroy`: calls on the map.
* `Operation.run`, `Operation.plain`: an operation on databases in memory and on the map.
* `Operation.runAll`: some operations, one after the other.
-/

namespace DocumentDb

/-- Stores by name. -/
structure Shelf where
  stores : SortedMap String Store
  ids : IdSupply

namespace Shelf

variable {α : Type}

/-- The map without stores. -/
def empty (ids : IdSupply) : Shelf := ⟨.empty, ids⟩

/-- Puts an empty store under a name that is free. -/
def create (name : String) : Call Shelf Unit :=
  Call.ofStep fun p =>
    if p.stores.contains name then
      (.error (.preconditionFailed
        "the database could not be created, the file already exists"), p)
    else (.ok (), { p with stores := p.stores.insert name .empty })

/-- Removes the store under a name. -/
def destroy (name : String) : Call Shelf Unit :=
  Call.ofStep fun p =>
    if p.stores.contains name then (.ok (), { p with stores := p.stores.erase name })
    else (.error .missing, p)

/-- Whether there is a store under a name. -/
def holds (name : String) : Call Shelf Bool := Call.look fun p => .ok (p.stores.contains name)

/-- The names in order. -/
def names : Call Shelf (List String) := Call.look fun p => .ok p.stores.keys

/-- What a function says about the store under a name. -/
def read (name : String) (f : Store → α) : Call Shelf α :=
  Call.look fun p =>
    match p.stores.get? name with
    | none => .error .missing
    | some s => .ok (f s)

/-- A write to the store under a name. -/
def write (name : String) (f : Store → Except Error α × Store) : Call Shelf α :=
  Call.ofStep fun p =>
    match p.stores.get? name with
    | none => (.error .missing, p)
    | some s => ((f s).1, { p with stores := p.stores.insert name (f s).2 })

/-- Something that is taken from the supply of ids. -/
def draw (f : IdSupply → α × IdSupply) : Call Shelf α :=
  Call.ofStep fun p => (.ok (f p.ids).1, { p with ids := (f p.ids).2 })

end Shelf

/-- What a user asks of the databases of a client. All but the first five go through a handle, of
which only the name counts. -/
inductive Operation where
  | create (name : String)
  | destroy (name : String)
  | probe (name : String)
  | names
  | handle (name : String)
  | info (name : String)
  | put (name id : String) (body : Json) (rev : Option Revision)
  | createDoc (name : String) (body : Json)
  | get (name id : String) (rev : Option Revision) (o : Options)
  | delete (name id : String) (rev : Revision)
  | bulk (name : String) (edits : List Edit) (o : Options)
  | list (name : String) (o : Options)

/-- What an operation that succeeds says. -/
inductive Answer where
  | done
  | known (b : Bool)
  | names (ns : List String)
  | info (i : DbInfo)
  | written (rev : Revision)
  | created (id : String) (rev : Revision)
  | document (d : Document)
  | outcomes (rs : List BulkResult)
  | listing (l : Listing)

namespace Operation

/-- The name of the database that an operation is about. -/
def name? : Operation → Option String
  | names => none
  | create name | destroy name | probe name | handle name | info name | put name .. |
    createDoc name _ | get name .. | delete name .. | bulk name .. | list name _ => some name

/-- An operation on databases in memory, with a token that is not cancelled. -/
def run : Operation → Call Memory Answer
  | create name => do
    Memory.createDb false name
    return .done
  | destroy name => do
    Memory.destroyDb false name
    return .done
  | probe name => return .known (← Memory.dbExists false name)
  | names => return .names (← Memory.allDbs false)
  | handle name => do
    Memory.openDb false name
    return .done
  | info name => return .info (← Memory.info false name)
  | put name id body rev => return .written (← Memory.put false name id body rev)
  | createDoc name body => do
    let (id, rev) ← Memory.createDoc false name body
    return .created id rev
  | get name id rev o => return .document (← Memory.get false name id rev o)
  | delete name id rev => return .written (← Memory.delete false name id rev)
  | bulk name edits o => return .outcomes (← Memory.bulk false name edits o)
  | list name o => return .listing (← Memory.list false name o)

/-- An operation on the plain map. -/
def plain : Operation → Call Shelf Answer
  | create name => do
    Shelf.create name
    return .done
  | destroy name => do
    Shelf.destroy name
    return .done
  | probe name => return .known (← Shelf.holds name)
  | names => return .names (← Shelf.names)
  | handle name => do
    Shelf.read name fun _ => ()
    return .done
  | info name => return .info (← Shelf.read name fun s => s.info name)
  | put name id body rev => return .written (← Shelf.write name fun s => s.put id body rev)
  | createDoc name body => do
    let id ← Shelf.draw IdSupply.next
    return .created id (← Shelf.write name fun s => s.put id body none)
  | get name id rev o => do
    let conflicts ← Call.ofExcept (o.flag "conflicts")
    let found ← Shelf.read name fun s => s.get id rev conflicts
    return .document (← Call.ofExcept found)
  | delete name id rev => return .written (← Shelf.write name fun s => s.delete id rev)
  | bulk name edits o => do
    let newEdits ← Call.ofExcept (o.getBool "new_edits")
    let items ← Shelf.draw (Bulk.assign (newEdits.getD true) edits)
    return .outcomes (← Shelf.write name fun s =>
      let (rs, s) := Bulk.applyAll (newEdits.getD true) s items
      (.ok rs, s))
  | list name o => do
    let q ← Call.ofExcept (ListingQuery.ofOptions o)
    return .listing (← Shelf.read name fun s => s.list q)

/-- The outcomes of some operations, one after the other, and the state afterwards. -/
def runAll {σ : Type} (run : Operation → Call σ Answer) :
    List Operation → σ → List (Except Error Answer) × σ
  | [], s => ([], s)
  | op :: ops, s =>
    let (answer, s) := (run op).outcome s
    let (answers, s) := runAll run ops s
    (answer :: answers, s)

end Operation

end DocumentDb
