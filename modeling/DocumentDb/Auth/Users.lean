import DocumentDb.Backend.Basic
import DocumentDb.Digest.Sha256
import DocumentDb.Json.Record
import DocumentDb.Json.Reread
import DocumentDb.Text.Utf8

/-! # Users

* `UserContext`: who a request comes from.
* `UserStore`: users with the salted digests of their passwords. `UserStore.validate` checks a
  password.
* `UserStore.sameBytes`: how two digests are compared. It is equality, found out in a time that does
  not depend on where they differ.
-/

namespace DocumentDb

/-- The role of server administrators. -/
def adminRole : String := "_admin"

/-- Who a request comes from. -/
structure UserContext where
  /-- The name of the user; none for anonymous access. -/
  name : Option String
  roles : List String
  /-- What else the backend knows about the user. -/
  claims : SortedMap String Json

namespace UserContext

/-- A user with a name and roles. -/
def named (name : String) (roles : List String) : UserContext := ⟨some name, roles, .empty⟩

/-- A user who has not said who it is. -/
def anonymous : UserContext := ⟨none, [], .empty⟩

/-- Whether a user is an administrator. -/
def isAdmin (u : UserContext) : Bool := u.roles.contains adminRole

/-- A user as a value. -/
def encode (u : UserContext) : Json :=
  .object ([("name", (u.name.map Json.string).getD .null), ("roles", .strings u.roles)] ++
    (if u.claims.isEmpty then [] else [("claims", .ofMap u.claims)]))

/-- The user that a value holds. -/
def decode? (v : Json) : Option UserContext := do
  let f ← v.fields? 3
  let name ← f.optional 0 "name" Json.string?
  let roles ← f.required 1 "roles" (Json.list? Json.string?)
  let claims ← f.withDefault 2 "claims" .empty (Json.map? Json.reread?)
  return { name, roles, claims }

end UserContext

/-- What is kept of a user. -/
structure UserRecord where
  salt : String
  digest : List UInt8
  roles : List String

/-- Users by name. -/
structure UserStore where
  users : SortedMap String UserRecord
  /-- The supply of salts. -/
  salts : IdSupply

namespace UserStore

/-- The store without users. -/
def empty : UserStore := ⟨.empty, .initial⟩

/-- The digest of a password under a salt. -/
def digest (salt password : String) : List UInt8 :=
  Sha256.digest (Utf8.encode salt ++ Utf8.encode password)

/-- The store with a user added or replaced. -/
def add (s : UserStore) (name password : String) (roles : List String) : UserStore :=
  let (salt, salts) := s.salts.next
  { users := s.users.insert name ⟨salt, digest salt password, roles⟩, salts := salts }

/-- The store with an administrator added or replaced. -/
def addAdmin (s : UserStore) (name password : String) : UserStore :=
  s.add name password [adminRole]

/-- The number of users. -/
def size (s : UserStore) : Nat := s.users.size

/-- Whether there is no user. -/
def isEmpty (s : UserStore) : Bool := s.users.isEmpty

/-- Whether two lists of bytes have the same length and no difference. -/
def sameBytes (a b : List UInt8) : Bool :=
  a.length == b.length && (a.zip b).foldl (fun acc p => acc ||| (p.1 ^^^ p.2)) 0 == 0

/-- The differences that are collected are gone at the end exactly if there never was one. -/
theorem differences_eq_zero (ps : List (UInt8 × UInt8)) (acc : UInt8) :
    ps.foldl (fun acc p => acc ||| (p.1 ^^^ p.2)) acc = 0 ↔ acc = 0 ∧ ∀ p ∈ ps, p.1 = p.2 := by
  induction ps generalizing acc with
  | nil => simp
  | cons p ps ih =>
    rw [List.foldl_cons, ih, UInt8.or_eq_zero_iff, UInt8.xor_eq_zero_iff, List.forall_mem_cons,
      and_assoc]

theorem sameBytes_iff {a b : List UInt8} : sameBytes a b = true ↔ a = b := by
  unfold sameBytes
  rw [Bool.and_eq_true, beq_iff_eq, beq_iff_eq, differences_eq_zero]
  induction a generalizing b with
  | nil => cases b <;> simp
  | cons x a ih =>
    cases b with
    | nil => simp
    | cons y b =>
      have hrest := ih (b := b)
      simp only [true_and] at hrest
      simp only [List.length_cons, List.zip_cons_cons, List.forall_mem_cons,
        Nat.add_right_cancel_iff, true_and, List.cons.injEq, ← hrest]
      exact and_left_comm

/-- The failure of a user who is not known or gives a wrong password. -/
def rejected : Error := .unauthorized "name or password is incorrect"

/-- The user with a name, if the password is right. -/
def validate (s : UserStore) (cancelled : Bool) (name password : String) :
    Except Error UserContext :=
  if cancelled then .error .cancelled
  else
    match s.users.get? name with
    | none => .error rejected
    | some u =>
      if sameBytes (digest u.salt password) u.digest then .ok (.named name u.roles) else .error rejected

end UserStore

end DocumentDb
