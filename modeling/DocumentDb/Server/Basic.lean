import DocumentDb.Auth.Basic
import DocumentDb.Client.Basic
import DocumentDb.Server.Route
import DocumentDb.Server.Wire
import DocumentDb.Settings.Basic

/-! # Servers

A server is a client of a backend with settings, users and a chain of authenticators.

* `Server.withChain`, `Server.withDefaults`, `Server.stop`: the same server with one part changed.
* `Server.authorize`: the user of a request, where credentials are demanded.
* `Action`: what the server does for a request: calls on its backend that may fail.
-/

namespace DocumentDb

/-- A server. -/
structure Server where
  client : Client
  backend : Backend
  settings : Settings
  chain : AuthChain
  users : UserStore
  /-- Whether credentials are demanded where they matter. -/
  authRequired : Bool
  /-- Whether the server is shutting down, which cancels the tokens of all requests. -/
  stopping : Bool

/-- What a server does for a request. -/
abbrev Action (α : Type) := ExceptT Failure (StateM Backend) α

namespace Action

/-- The action of a call. -/
def ofCall {α : Type} (c : Call Backend α) : Action α :=
  ExceptT.adapt Failure.call c

/-- The action of a value that may be missing. -/
def ofExcept {α : Type} (r : Except Error α) : Action α := ofCall (Call.ofExcept r)

/-- The action of a part of a request that may be wrong. -/
def ofRequest {α : Type} (r : Except Failure α) : Action α := ExceptT.mk (pure r)

/-- The outcome of an action and the backend afterwards. -/
def outcome {α : Type} (a : Action α) (b : Backend) : Except Failure α × Backend := a b

end Action

/-- A user with the method that has found it out. -/
structure Identity where
  user : UserContext
  method : Option String

namespace Server

/-- The user of a request, where credentials are demanded; otherwise nobody in particular. -/
def authorize (s : Server) (r : Request) : Except Error Identity :=
  if !s.authRequired then .ok ⟨.anonymous, none⟩
  else (s.chain.authenticate r s.users s.stopping).map fun a => ⟨a.user, some a.method⟩

/-- The server with other authenticators. -/
def withChain (s : Server) (chain : AuthChain) : Server := { s with chain }

/-- The server whose client has other default options. -/
def withDefaults (s : Server) (o : Options) : Server :=
  { s with client := s.client.withDefaults o }

/-- The server that shuts down. -/
def stop (s : Server) : Server := { s with stopping := true }

/-- A parameter of a path. -/
def parameter (name : String) (written : List Char) : Except Failure String :=
  match Percent.decode? (String.ofList written) with
  | some text => .ok text
  | none => .error (.badPath name)

/-- The number of bytes that a body may have. -/
def maxBody : Nat := 2097152

/-- The body of a request, for those that read it. -/
def bodyOf (r : Request) : Except Failure (List UInt8) :=
  if r.body.length ≤ maxBody then .ok r.body else .error .oversizedBody

end Server

end DocumentDb
