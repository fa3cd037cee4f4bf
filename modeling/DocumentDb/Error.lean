import DocumentDb.Text.Quoted

/-! # Why a call on the database fails

`Error.message` is the text of a failure.
-/

namespace DocumentDb

/-- A failed call, by its kind. -/
inductive Error where
  /-- There is no such thing. -/
  | notFound (reason : String)
  /-- The write does not start from the current revision. -/
  | conflict (reason : String)
  | preconditionFailed (reason : String)
  | badRequest (reason : String)
  | unauthorized (reason : String)
  /-- An optional capability is absent. -/
  | notImplemented (reason : String)
  /-- No backend is registered under the name. -/
  | unknownDriver (name : String)
  | internal (reason : String)
  /-- The token of the call has been cancelled. -/
  | cancelled
deriving DecidableEq

namespace Error

/-- A document, a revision or a database that does not exist. -/
def missing : Error := notFound "missing"

/-- A document that has been deleted. -/
def deleted : Error := notFound "deleted"

/-- A write that does not start from the current revision. -/
def stale : Error := conflict "document update conflict"

/-- Whether the failure reports an absent capability. -/
def isNotImplemented : Error → Bool
  | notImplemented _ => true
  | _ => false

/-- The text of a failure. -/
def message : Error → String
  | notFound reason => "not found: " ++ reason
  | conflict reason => "document update conflict: " ++ reason
  | preconditionFailed reason => "precondition failed: " ++ reason
  | badRequest reason => "bad request: " ++ reason
  | unauthorized reason => "unauthorized: " ++ reason
  | notImplemented reason => "not implemented: " ++ reason
  | unknownDriver name => "unknown driver " ++ Text.quoted name ++ " (forgotten registration?)"
  | internal reason => "internal error: " ++ reason
  | cancelled => "operation cancelled"

end Error

end DocumentDb
