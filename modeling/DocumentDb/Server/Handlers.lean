import DocumentDb.Document.Codec
import DocumentDb.Server.Basic

/-! # What a server does for a request

* `Server.putDocument`, `Server.postDocument`, `Server.bulkDocuments`: writes of documents in their
  wire form.
* `Server.serve`: the action of a route. A feed of changes gives rise to a reply that is not
  complete yet.
-/

namespace DocumentDb

/-- A reply to a request. -/
inductive Reply where
  /-- The whole response. -/
  | ready (r : Response)
  /-- A feed whose entries make up one response when it has ended. -/
  | collected (h : Handle) (feed : OpenFeed)
  /-- A feed whose entries are sent as they come. -/
  | streamed (feed : OpenFeed)

namespace Server

variable (s : Server)

/-! ## Documents -/

/-- The revision that the options name. -/
def revOption (o : Options) : Except Error (Option Revision) := do
  match ← o.getString "rev" with
  | none => return none
  | some text => return some (← Revision.parse text)

/-- The revision on which a write goes, from the body and from the options, which have to agree. -/
def agreeRev : Option Revision → Option Revision → Except Failure (Option Revision)
  | some a, some b =>
    if a = b then .ok (some a)
    else .error (.badRequest "document rev in body does not match the rev parameter")
  | a, b => .ok (a.or b)

/-- Refuses an edit of another document than the one that the path names. -/
def checkEditId (id : String) (e : Edit) : Except Failure Unit :=
  match e.id with
  | none => .ok ()
  | some other =>
    if other = id then .ok ()
    else .error (.badRequest "document id in body does not match the URL")

/-- Creates, updates or deletes a document as its wire form says. -/
def putDocument (h : Handle) (id : String) (body : Json) (rev : Option Revision) :
    Action (String × Revision) := do
  let e ← Action.ofExcept (Edit.ofWire body)
  Action.ofRequest (checkEditId id e)
  let rev ← Action.ofRequest (agreeRev e.rev rev)
  if e.deleted then
    match rev with
    | none => throw (.call .stale)
    | some rev => return (id, ← Action.ofCall (h.delete s.stopping id rev))
  else return (id, ← Action.ofCall (h.put s.stopping id e.body rev))

/-- Writes a document under the id in its wire form, or else creates one under a fresh id. -/
def postDocument (h : Handle) (body : Json) : Action (String × Revision) := do
  match body.get? "_id" with
  | some (.string id) => s.putDocument h id body none
  | _ =>
    let e ← Action.ofExcept (Edit.ofWire body)
    Action.ofCall (h.createDoc s.stopping e.body)

/-- Applies the edits of a bulk write. A document that asks for no edit fails the whole request. -/
def bulkDocuments (h : Handle) (r : Wire.BulkRequest) (o : Options) :
    Action (List BulkResult) := do
  let edits ← Action.ofExcept (r.docs.mapM Edit.ofWire)
  let o :=
    match r.newEdits with
    | none => o
    | some b => o.set "new_edits" (.bool b)
  Action.ofCall (h.bulk s.stopping edits o)

/-! ## Routes -/

/-- Fails unless the request may use a protected route. -/
def identify (r : Request) : Action Identity := Action.ofExcept (s.authorize r)

/-- A handle on the database that a path names. -/
def openDb (name : String) : Action Handle :=
  Action.ofCall (s.client.openDb s.stopping name .empty)

/-- The database that a path names. -/
def dbParameter (written : List Char) : Action String := Action.ofRequest (parameter "db" written)

/-- The number of ids that the options ask for. -/
def uuidCount (o : Options) : Except Error Nat := (o.getNat "count").map (·.getD 1)

/-- The value that tells who a request comes from. -/
def sessionJson (who : Identity) : Json :=
  .object [("ok", .bool true), ("userCtx", who.user.encode),
    ("info", .object (("authentication_handlers", .strings s.chain.names) ::
      (match who.method with
      | none => []
      | some method => [("authenticated", .string method)])))]

/-- The settings as a value. -/
def sectionJson (entries : Section) : Json := .ofMap (entries.map Json.string)

/-- The response with a value. -/
def respond (status : Nat) (v : Json) : Action Reply := return .ready (.json status v)

/-- What is at the top of the server. -/
def serveServer (route : Route) (r : Request) (o : Options) : Action Reply := do
  match route with
  | .root => respond 200 (← Action.ofCall (s.client.serverInfo s.stopping .empty)).encode
  | .allDbs => respond 200 (.strings (← Action.ofCall (s.client.allDbs s.stopping .empty)))
  | .uuids =>
    let count ← Action.ofExcept (uuidCount o)
    let ids ← Action.ofCall (s.client.uuids s.stopping count)
    respond 200 (.object [("uuids", .strings ids)])
  | .membership =>
    let _ ← s.identify r
    respond 200 (← Action.ofCall (s.client.membership s.stopping)).encode
  | .log =>
    let _ ← s.identify r
    let length ← Action.ofExcept (o.getNat "bytes")
    let offset ← Action.ofExcept (o.getNat "offset")
    let text ← Action.ofCall (s.client.log s.stopping (length.getD 1000) (offset.getD 0))
    return .ready (.text 200 Response.plainText text)
  | _ => respond 200 (s.sessionJson (← s.identify r))

/-- What the settings of the server are. They are read only. -/
def serveSettings (method : String) (route : Route) (r : Request) : Action Reply := do
  let _ ← s.identify r
  match route with
  | .settingsSection name =>
    let name ← Action.ofRequest (parameter "section" name)
    respond 200 (sectionJson (← Action.ofExcept (s.settings.getSection name)))
  | .setting name key =>
    if method = "GET" then
      let name ← Action.ofRequest (parameter "section" name)
      let key ← Action.ofRequest (parameter "key" key)
      respond 200 (.string (← Action.ofExcept (s.settings.get name key)))
    else throw (.call (.notImplemented "configuration is read-only"))
  | _ => respond 200 (.ofMap (s.settings.sections.map sectionJson))

/-- What is asked of a database as a whole. -/
def serveDatabase (method : String) (db : List Char) (r : Request) : Action Reply := do
  match method with
  | "PUT" =>
    let _ ← s.identify r
    let name ← dbParameter db
    Action.ofCall (s.client.createDb s.stopping name .empty)
    respond 201 Wire.ok
  | "DELETE" =>
    let _ ← s.identify r
    let name ← dbParameter db
    Action.ofCall (s.client.destroyDb s.stopping name .empty)
    respond 200 Wire.ok
  | "POST" =>
    let name ← dbParameter db
    let bytes ← Action.ofRequest (bodyOf r)
    let h ← s.openDb name
    let body ← Action.ofRequest (Wire.parseBody bytes)
    let (id, rev) ← s.postDocument h body
    respond 201 (Wire.written id rev)
  | _ =>
    let name ← dbParameter db
    let h ← s.openDb name
    respond 200 (← Action.ofCall (h.info s.stopping)).encode

/-- What is asked of a document. -/
def serveDocument (method : String) (db id : List Char) (r : Request) (o : Options) :
    Action Reply := do
  let name ← dbParameter db
  let id ← Action.ofRequest (parameter "docid" id)
  match method with
  | "PUT" =>
    let bytes ← Action.ofRequest (bodyOf r)
    let rev ← Action.ofExcept (revOption o)
    let body ← Action.ofRequest (Wire.parseBody bytes)
    let h ← s.openDb name
    let (id, rev) ← s.putDocument h id body rev
    respond 201 (Wire.written id rev)
  | "DELETE" =>
    let h ← s.openDb name
    match ← Action.ofExcept (revOption o) with
    | none => throw (.call .stale)
    | some rev => respond 200 (Wire.written id (← Action.ofCall (h.delete s.stopping id rev)))
  | _ =>
    let rev ← Action.ofExcept (revOption o)
    let h ← s.openDb name
    respond 200 (← Action.ofCall (h.get s.stopping id rev o)).toWire

/-- The documents of a database. -/
def serveListing (db : List Char) (o : Options) : Action Reply := do
  let h ← s.openDb (← dbParameter db)
  respond 200 (Wire.listing (← Action.ofCall (h.list s.stopping o)))

/-- A bulk write. -/
def serveBulk (db : List Char) (r : Request) (o : Options) : Action Reply := do
  let name ← dbParameter db
  let bytes ← Action.ofRequest (bodyOf r)
  let request ← Action.ofRequest (Wire.BulkRequest.parse bytes)
  let h ← s.openDb name
  respond 201 (.array ((← s.bulkDocuments h request o).map Wire.bulkResult))

/-- The changes of a database. The options of the request alone decide whether they are sent as they
come. -/
def serveChanges (now : Nat) (db : List Char) (o : Options) : Action Reply := do
  let name ← dbParameter db
  let q ← Action.ofExcept (ChangesQuery.ofOptions o)
  let h ← s.openDb name
  let feed ← Action.ofCall (h.openFeed s.stopping now o)
  return if q.feed = .continuous then .streamed feed else .collected h feed

/-- What the server does for a request whose method the route allows. -/
def serve (now : Nat) (method : String) (route : Route) (r : Request) (o : Options) :
    Action Reply :=
  match route with
  | .settings => s.serveSettings method route r
  | .settingsSection _ => s.serveSettings method route r
  | .setting _ _ => s.serveSettings method route r
  | .database db => s.serveDatabase method db r
  | .allDocs db => s.serveListing db o
  | .bulkDocs db => s.serveBulk db r o
  | .changes db => s.serveChanges now db o
  | .document db id => s.serveDocument method db id r o
  | _ => s.serveServer route r o

/-! ## Requests -/

/-- The reply to a request and the server afterwards, the body of a response to `HEAD` included. -/
def handle (now : Nat) (r : Request) : Reply × Server :=
  let target := Target.ofText r.target
  match Route.ofPath? target.parts with
  | none => (.ready (.empty (if r.method = "OPTIONS" then 200 else 404)), s)
  | some route =>
    if r.method = "OPTIONS" then
      (.ready { Response.empty 200 with allow := some route.allow }, s)
    else if !route.methods.contains r.method then
      (.ready { Response.empty 405 with allow := some route.allow }, s)
    else
      let method := if r.method = "HEAD" then "GET" else r.method
      let o := Options.ofQuery (Percent.pairs target.query)
      match (s.serve now method route r o).outcome s.backend with
      | (.ok reply, b) => (reply, { s with backend := b })
      | (.error e, b) => (.ready e.response, { s with backend := b })

/-- The response that the entries of a feed make up. Where there is none, it tells where the log
ends. -/
def collect (h : Handle) (es : List ChangeEntry) : Response × Server :=
  match es.getLast? with
  | some last => (.json 200 (Wire.changes es last.seq), s)
  | none =>
    match (Action.ofCall (h.info s.stopping)).outcome s.backend with
    | (.ok info, b) => (.json 200 (Wire.changes [] info.updateSeq), { s with backend := b })
    | (.error e, b) => (e.response, { s with backend := b })

/-- The response that sends the entries of a feed as they come. -/
def stream (es : List ChangeEntry) : Response :=
  .text 200 "application/json" (Wire.changeLines es)

end Server

end DocumentDb
