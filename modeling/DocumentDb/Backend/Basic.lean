import DocumentDb.Json.Record
import DocumentDb.Memory

/-! # Backends

A backend serves the calls of a client: databases in memory, or a fixed set of answers. Some of its
capabilities are optional.

* `Backend.run`: a call on the databases of a backend.
* `Backend.capability`: a call of an optional capability, which fails where it is absent.
* `ServerInfo`, `Membership`, `Credentials`: what the calls are about.
-/

namespace DocumentDb

/-- What a server says about itself. -/
structure ServerInfo where
  welcome : String
  version : String
  vendor : String
  vendorVersion : String
deriving DecidableEq

namespace ServerInfo

/-- The information about a server of a vendor in a version. -/
def create (vendor version : String) : ServerInfo := ⟨"Welcome", version, vendor, version⟩

/-- The information as a value. -/
def encode (i : ServerInfo) : Json :=
  .object [("couchdb", .string i.welcome), ("version", .string i.version),
    ("vendor", .object [("name", .string i.vendor), ("version", .string i.vendorVersion)])]

/-- The information that a value holds. -/
def decode? (v : Json) : Option ServerInfo := do
  let f ← v.fields? 3
  let welcome ← f.required 0 "couchdb" Json.string?
  let version ← f.required 1 "version" Json.string?
  f.required 2 "vendor" fun v => do
    let f ← v.fields? 2
    let vendor ← f.required 0 "name" Json.string?
    let vendorVersion ← f.required 1 "version" Json.string?
    return { welcome, version, vendor, vendorVersion }

end ServerInfo

/-- The nodes of a cluster. -/
structure Membership where
  /-- All nodes that are known. -/
  allNodes : List String
  clusterNodes : List String
deriving DecidableEq

namespace Membership

/-- The nodes as a value. -/
def encode (m : Membership) : Json :=
  .object [("all_nodes", .strings m.allNodes), ("cluster_nodes", .strings m.clusterNodes)]

/-- The nodes that a value holds. -/
def decode? (v : Json) : Option Membership := do
  let f ← v.fields? 2
  let allNodes ← f.required 0 "all_nodes" (Json.list? Json.string?)
  let clusterNodes ← f.required 1 "cluster_nodes" (Json.list? Json.string?)
  return { allNodes, clusterNodes }

end Membership

/-- What a client presents to prove who it is. -/
structure Credentials where
  username : String
  password : String
deriving DecidableEq

/-- A backend without a state, given by its answers. The first argument of each tells whether the
token of the call has been cancelled; capabilities may be absent. -/
structure Answers where
  serverInfo : Bool → Options → Except Error ServerInfo
  allDbs : Bool → Options → Except Error (List String)
  dbExists : Bool → String → Options → Except Error Bool
  createDb : Bool → String → Options → Except Error Unit
  destroyDb : Bool → String → Options → Except Error Unit
  openDb : Bool → String → Options → Except Error Unit
  uuids : Option (Bool → Nat → Except Error (List String))
  membership : Option (Bool → Except Error Membership)
  /-- The text of some length that ends at some distance from the end of the log. -/
  log : Option (Bool → Nat → Nat → Except Error String)
  authenticate : Option (Bool → Credentials → Except Error Unit)

/-- A backend that a client is connected to. -/
inductive Backend where
  | memory (m : Memory)
  | answering (a : Answers)

namespace Backend

variable {α : Type}

/-- A call, as databases in memory serve it and as given answers do. -/
def run (inMemory : Call Memory α) (answer : Answers → Except Error α) : Call Backend α :=
  Call.ofStep fun
    | memory m =>
      let (r, m) := inMemory.outcome m
      (r, memory m)
    | answering a => (answer a, answering a)

/-- A call on a database, which only databases in memory serve. -/
def onMemory (c : Call Memory α) : Call Backend α := run c fun _ => .error .missing

/-- The failure of a call whose capability is absent. -/
def absent (capability : String) : Error :=
  .notImplemented ("driver does not support " ++ capability)

/-- A call of a capability, as far as databases in memory and given answers have it. -/
def capability (name : String) (inMemory : Option (Call Memory α))
    (answer : Answers → Option (Except Error α)) : Call Backend α :=
  run (inMemory.getD (Call.ofExcept (.error (absent name))))
    fun a => (answer a).getD (.error (absent name))

/-- The name that databases in memory report for their only node. -/
def nodeName : String := "settee@localhost"

/-! ## Feeds -/

/-- Asks a feed for its next entry. -/
def poll (b : Backend) (cancelled : Bool) (now : Nat) (f : OpenFeed) : Polled × OpenFeed :=
  match b with
  | memory m => m.poll cancelled now f
  | answering _ => (.ended, f)

/-- The entries that a feed hands out without waiting, and how it answers then. -/
def drain (b : Backend) (cancelled : Bool) (now : Nat) (f : OpenFeed) :
    List ChangeEntry × Polled × OpenFeed :=
  match b with
  | memory m => m.drain cancelled now f
  | answering _ => ([], .ended, f)

/-! ## Calls -/

/-- What the backend says about itself. -/
def serverInfo (cancelled : Bool) (o : Options) : Call Backend ServerInfo :=
  run (do Call.ensureLive cancelled; return .create "Settee" "0.1.0")
    fun a => a.serverInfo cancelled o

/-- The names of the databases, in order. -/
def allDbs (cancelled : Bool) (o : Options) : Call Backend (List String) :=
  run (Memory.allDbs cancelled) fun a => a.allDbs cancelled o

/-- Whether a database exists. -/
def dbExists (cancelled : Bool) (name : String) (o : Options) : Call Backend Bool :=
  run (Memory.dbExists cancelled name) fun a => a.dbExists cancelled name o

/-- Creates a database. -/
def createDb (cancelled : Bool) (name : String) (o : Options) : Call Backend Unit :=
  run (Memory.createDb cancelled name) fun a => a.createDb cancelled name o

/-- Destroys a database. -/
def destroyDb (cancelled : Bool) (name : String) (o : Options) : Call Backend Unit :=
  run (Memory.destroyDb cancelled name) fun a => a.destroyDb cancelled name o

/-- Fails unless a database can be opened. -/
def openDb (cancelled : Bool) (name : String) (o : Options) : Call Backend Unit :=
  run (Memory.openDb cancelled name) fun a => a.openDb cancelled name o

/-- Fresh ids. -/
def uuids (cancelled : Bool) (count : Nat) : Call Backend (List String) :=
  capability "uuids" (some (Memory.uuids cancelled count))
    fun a => a.uuids.map fun f => f cancelled count

/-- The nodes of the cluster. -/
def membership (cancelled : Bool) : Call Backend Membership :=
  capability "membership"
    (some do Call.ensureLive cancelled; return ⟨[nodeName], [nodeName]⟩)
    fun a => a.membership.map fun f => f cancelled

/-- A part of the log of the backend. -/
def log (cancelled : Bool) (length offset : Nat) : Call Backend String :=
  capability "log" none fun a => a.log.map fun f => f cancelled length offset

/-- Proves to the backend who the client is. -/
def authenticate (cancelled : Bool) (c : Credentials) : Call Backend Unit :=
  capability "authenticate" none fun a => a.authenticate.map fun f => f cancelled c

end Backend

end DocumentDb
