import DocumentDb.Backend.Registry

/-! # Clients

A client reaches the databases of a backend. Its default options lie under the options of every call
made through it and through the handles that it opens.

* `Client.createDb`, `Client.destroyDb`, `Client.openDb` and others: calls on the backend.
* `Handle.put`, `Handle.get`, `Handle.bulk` and others: calls on one database.
* `checkDbName`: the names that a new database may have.
-/

namespace DocumentDb

/-- The greatest number of ids that one call gives. -/
def maxUuids : Nat := 1000

/-- Whether a character may begin the name of a database. -/
def isSmallLetter (c : Char) : Bool := 'a' ≤ c && c ≤ 'z'

/-- Whether a character may follow in the name of a database. -/
def isNameChar (c : Char) : Bool := isSmallLetter c || c.isDigit || "_$()+-/".toList.contains c

/-- Whether a text may be the name of a new database. -/
def isDbName (name : String) : Bool :=
  match name.toList with
  | [] => false
  | c :: cs => isSmallLetter c && cs.all isNameChar

/-- Refuses the names that no new database may have. -/
def checkDbName (name : String) : Except Error Unit :=
  if isDbName name then .ok () else .error (.badRequest "invalid database name")

/-- A client of a backend. -/
structure Client where
  /-- The name of the driver. -/
  driver : String
  /-- The data source name that the driver got. -/
  dsn : String
  /-- The options that lie under those of every call. -/
  defaults : Options

/-- A handle on a database, which need not exist any more. -/
structure Handle where
  name : String
  defaults : Options

/-- The client that a driver connects, and its backend. -/
def Registry.newClient (r : Registry) (cancelled : Bool) (driver dsn : String) :
    Except Error (Client × Backend) :=
  (r.connect cancelled driver dsn).map fun b => (⟨driver, dsn, .empty⟩, b)

namespace Client

/-- The client with other default options. -/
def withDefaults (c : Client) (o : Options) : Client := { c with defaults := o }

/-- The options of a call. -/
def effective (c : Client) (o : Options) : Options := c.defaults.layer o

/-- A client without default options as messages show it. -/
def describe (c : Client) : String :=
  "Client \x7b driver: " ++ Text.quoted c.driver ++ ", dsn: " ++ Text.quoted c.dsn ++
    ", defaults: Options(\x7b\x7d), .. \x7d"

/-- What the backend says about itself. -/
def serverInfo (c : Client) (cancelled : Bool) (o : Options) : Call Backend ServerInfo :=
  Backend.serverInfo cancelled (c.effective o)

/-- The names of the databases, in order. -/
def allDbs (c : Client) (cancelled : Bool) (o : Options) : Call Backend (List String) :=
  Backend.allDbs cancelled (c.effective o)

/-- Whether a database exists. -/
def dbExists (c : Client) (cancelled : Bool) (name : String) (o : Options) : Call Backend Bool :=
  Backend.dbExists cancelled name (c.effective o)

/-- Creates a database. -/
def createDb (c : Client) (cancelled : Bool) (name : String) (o : Options) :
    Call Backend Unit := do
  Call.ofExcept (checkDbName name)
  Backend.createDb cancelled name (c.effective o)

/-- Destroys a database. -/
def destroyDb (c : Client) (cancelled : Bool) (name : String) (o : Options) : Call Backend Unit :=
  Backend.destroyDb cancelled name (c.effective o)

/-- A handle on a database that exists. -/
def openDb (c : Client) (cancelled : Bool) (name : String) (o : Options) :
    Call Backend Handle := do
  Backend.openDb cancelled name (c.effective o)
  return ⟨name, c.defaults⟩

/-- Fresh ids. -/
def uuids (_ : Client) (cancelled : Bool) (count : Nat) : Call Backend (List String) := do
  if maxUuids < count then
    throw (.badRequest ("count must not exceed " ++ Numeral.text maxUuids))
  Backend.uuids cancelled count

/-- The nodes of the cluster. -/
def membership (_ : Client) (cancelled : Bool) : Call Backend Membership :=
  Backend.membership cancelled

/-- A part of the log of the backend. -/
def log (_ : Client) (cancelled : Bool) (length offset : Nat) : Call Backend String :=
  Backend.log cancelled length offset

/-- Proves to the backend who the client is. -/
def authenticate (_ : Client) (cancelled : Bool) (c : Credentials) : Call Backend Unit :=
  Backend.authenticate cancelled c

end Client

namespace Handle

/-- The options of a call. -/
def effective (h : Handle) (o : Options) : Options := h.defaults.layer o

/-- The handle as messages show it. -/
def describe (h : Handle) : String := "Db \x7b name: " ++ Text.quoted h.name ++ ", .. \x7d"

/-- The counters of the database. -/
def info (h : Handle) (cancelled : Bool) : Call Backend DbInfo :=
  Backend.onMemory (Memory.info cancelled h.name)

/-- Creates or updates a document. -/
def put (h : Handle) (cancelled : Bool) (id : String) (body : Json) (rev : Option Revision) :
    Call Backend Revision :=
  Backend.onMemory (Memory.put cancelled h.name id body rev)

/-- Creates a document under a fresh id. -/
def createDoc (h : Handle) (cancelled : Bool) (body : Json) : Call Backend (String × Revision) :=
  Backend.onMemory (Memory.createDoc cancelled h.name body)

/-- A revision of a document, its winner if none is named. -/
def get (h : Handle) (cancelled : Bool) (id : String) (rev : Option Revision) (o : Options) :
    Call Backend Document :=
  Backend.onMemory (Memory.get cancelled h.name id rev (h.effective o))

/-- Deletes a document. -/
def delete (h : Handle) (cancelled : Bool) (id : String) (rev : Revision) :
    Call Backend Revision :=
  Backend.onMemory (Memory.delete cancelled h.name id rev)

/-- Applies edits, each on its own. -/
def bulk (h : Handle) (cancelled : Bool) (edits : List Edit) (o : Options) :
    Call Backend (List BulkResult) :=
  Backend.onMemory (Memory.bulk cancelled h.name edits (h.effective o))

/-- The enumeration of documents that some options ask for. -/
def list (h : Handle) (cancelled : Bool) (o : Options) : Call Backend Listing :=
  Backend.onMemory (Memory.list cancelled h.name (h.effective o))

/-- Opens the feed of changes that some options ask for. -/
def openFeed (h : Handle) (cancelled : Bool) (now : Nat) (o : Options) : Call Backend OpenFeed :=
  Backend.onMemory (Memory.openFeed cancelled now h.name (h.effective o))

end Handle

end DocumentDb
