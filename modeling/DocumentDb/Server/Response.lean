import DocumentDb.Json.Printer
import DocumentDb.Error

/-! # Responses

* `Response`: what a request is answered with.
* `Failure`: why a request is not served; `Failure.response` is the answer to it, an object with the
  name of the failure and its reason.
-/

namespace DocumentDb

/-- The answer to a request. -/
structure Response where
  status : Nat
  contentType : Option String
  /-- The methods that the path allows, where the request used another. -/
  allow : Option String
  /-- The challenge to present credentials. -/
  challenge : Option String
  body : String
deriving DecidableEq

namespace Response

/-- An answer without a body. -/
def empty (status : Nat) : Response := ⟨status, none, none, none, ""⟩

/-- An answer with a text. -/
def text (status : Nat) (contentType body : String) : Response :=
  ⟨status, some contentType, none, none, body⟩

/-- An answer with a value. -/
def json (status : Nat) (v : Json) : Response := text status "application/json" v.text

/-- The answer without its body. -/
def withoutBody (r : Response) : Response := { r with body := "" }

/-- The content type of plain text. -/
def plainText : String := "text/plain; charset=utf-8"

end Response

/-- Why a request is not served. -/
inductive Failure where
  /-- The call on the database fails. -/
  | call (e : Error)
  /-- The request contradicts itself. -/
  | badRequest (reason : String)
  /-- The body is not the JSON that is expected. -/
  | malformedBody
  /-- The body has too many bytes. -/
  | oversizedBody
  /-- A part of the path is no text. -/
  | badPath (parameter : String)
deriving DecidableEq

namespace Failure

/-- The reason that is given for a body that is not the JSON that is expected. It tells the place
where a body begins, since the body as a whole is refused. -/
def malformedReason : String := "malformed JSON at line 1 column 1"

/-- The status, the name and the reason of a failed call. -/
def describe : Error → Nat × String × String
  | .notFound reason => (404, "not_found", reason)
  | .conflict reason => (409, "conflict", reason)
  | .preconditionFailed reason => (412, "file_exists", reason)
  | .badRequest reason => (400, "bad_request", reason)
  | .unauthorized reason => (401, "unauthorized", reason)
  | .notImplemented reason => (501, "not_implemented", reason)
  | .unknownDriver name => (500, "internal_server_error", (Error.unknownDriver name).message)
  | .internal reason => (500, "internal_server_error", (Error.internal reason).message)
  | .cancelled => (500, "internal_server_error", Error.cancelled.message)

/-- The challenge that goes with a demand for credentials. -/
def challenge : String := "Basic realm=\"settee\""

/-- The answer that tells a name and a reason. -/
def report (status : Nat) (name reason : String) : Response :=
  let r := Response.json status (.object [("error", .string name), ("reason", .string reason)])
  if status = 401 then { r with challenge := some challenge } else r

/-- The text of a failure that does not come from a call. -/
def badRequestMessage (reason : String) : String := "invalid request: " ++ reason

/-- The answer to a failure. -/
def response : Failure → Response
  | call e =>
    let (status, name, reason) := describe e
    report status name reason
  | badRequest reason => report 400 "bad_request" reason
  | malformedBody => report 400 "bad_request" malformedReason
  | oversizedBody =>
    .text 413 Response.plainText "Failed to buffer the request body: length limit exceeded"
  | badPath parameter =>
    .text 400 Response.plainText ("Invalid URL: Invalid UTF-8 in `" ++ parameter ++ "`")

end Failure

end DocumentDb
