import DocumentDb.Auth.Users
import DocumentDb.Server.Request
import DocumentDb.Text.Base64
import DocumentDb.Text.Blank
import DocumentDb.Text.Split

/-! # Authentication of requests

An authenticator accepts a request for a user, declines it, or fails. A chain asks its
authenticators in order: the first that accepts counts, one that fails ends the search.

* `Credentials.ofHeader?`: a user name and a password in the header field of the scheme `Basic`.
* `Authenticator.basic`: accepts credentials that are right.
* `AuthChain.authenticate`: runs a chain.
-/

namespace DocumentDb

/-- A way to find out who a request comes from. -/
structure Authenticator where
  /-- The name of the method. -/
  name : String
  /-- The user of a request. The flag tells whether the token of the request has been cancelled; a
  failure as unauthorized declines the request. -/
  accept : Request → UserStore → Bool → Except Error UserContext

/-- A request whose user has been found. -/
structure Authenticated where
  user : UserContext
  /-- The name of the method that accepted it. -/
  method : String

namespace Credentials

/-- Whether a character may stand in the value of a header field that is read as text. -/
def isVisible (c : Char) : Bool := (0x20 ≤ c.toNat && c.toNat < 0x7F) || c == '\t'

/-- The name and the password in the text `name:password`. -/
def ofPair? (text : String) : Option Credentials :=
  match Text.cut ':' text.toList with
  | (_, none) => none
  | (name, some password) => some ⟨String.ofList name, String.ofList password⟩

/-- The credentials in the value of a header field: the scheme, a blank, and the pair in Base64. -/
def ofHeader? (value : String) : Option Credentials := do
  guard (value.toList.all isVisible)
  let (scheme, rest) := Text.cut ' ' value.toList
  let encoded ← rest
  guard (scheme.map Request.foldCase = "basic".toList)
  let bytes ← Base64.decode? (Text.trimBlank encoded)
  let text ← Utf8.decode? bytes
  ofPair? text

/-- The credentials of a request. -/
def ofRequest? (r : Request) : Option Credentials := (r.header? "authorization").bind ofHeader?

end Credentials

/-- Accepts requests with the credentials of a known user. -/
def Authenticator.basic : Authenticator where
  name := "default"
  accept r users cancelled :=
    match Credentials.ofRequest? r with
    | none => .error (.unauthorized "missing or malformed basic credentials")
    | some c => users.validate cancelled c.username c.password

/-- Authenticators in the order in which they are asked. -/
abbrev AuthChain := List Authenticator

namespace AuthChain

/-- The names of the methods. -/
def names (chain : AuthChain) : List String := chain.map (·.name)

/-- The user whom the first authenticator finds that does not decline; `last` is the failure if all
decline. -/
def search (r : Request) (users : UserStore) (cancelled : Bool) (last : Error) :
    AuthChain → Except Error Authenticated
  | [] => .error last
  | a :: rest =>
    match a.accept r users cancelled with
    | .ok user => .ok ⟨user, a.name⟩
    | .error (.unauthorized reason) => search r users cancelled (.unauthorized reason) rest
    | .error e => .error e

/-- The user of a request. -/
def authenticate (chain : AuthChain) (r : Request) (users : UserStore) (cancelled : Bool) :
    Except Error Authenticated :=
  search r users cancelled (.unauthorized "authentication required") chain

end AuthChain

end DocumentDb
