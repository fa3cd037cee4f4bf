import DocumentDb.Digest.Sha256
import DocumentDb.Json.Printer
import DocumentDb.Revision.Basic
import DocumentDb.Text.Utf8

/-! # The revision of an edit

An edit determines its revision: the hash is taken from the parent's text, the deleted flag and the
canonical text of the body.

* `Revision.preimage`: the bytes that are hashed.
* `Revision.compute`: the revision of an edit on top of a parent.
-/

namespace DocumentDb.Revision

/-- How many bytes of the digest a hash keeps. -/
def hashBytes : Nat := 16

/-- The bytes that the hash of an edit is taken from. -/
def preimage (parent : Option Revision) (deleted : Bool) (body : Json) : List UInt8 :=
  ((parent.map fun p => Utf8.encode p.text).getD []) ++
    0 :: (if deleted then 1 else 0) :: Utf8.encode body.text

/-- The generation of an edit on top of a parent, or of a first edit. -/
def childGeneration : Option Revision → Except Error Nat
  | none => .ok 1
  | some p => p.nextGeneration

/-- The hash of some bytes. -/
def hashOf (bytes : List UInt8) : String :=
  String.ofList (Hex.ofBytes ((Sha256.digest bytes).take hashBytes))

/-- The revision of an edit on top of a parent, or of a first edit. -/
def compute (parent : Option Revision) (deleted : Bool) (body : Json) : Except Error Revision :=
  (childGeneration parent).map fun generation =>
    ⟨generation, hashOf (preimage parent deleted body)⟩

end DocumentDb.Revision
