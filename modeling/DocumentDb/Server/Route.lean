import DocumentDb.Text.Percent

/-! # Routes

* `Target.ofText`: the path and the query string of a request target, which may name a scheme and a
  host in front of them.
* `Route.ofPath?`: the route of a path. Fixed names win over parameters, part by part; a parameter
  may be empty where another part follows it.
* `Route.methods`: the methods that a route allows.
-/

namespace DocumentDb

/-- A request target: the parts of the path as they are written, and the query string. -/
structure Target where
  /-- A path of no part leads nowhere; the path of the top is one empty part. -/
  parts : List (List Char)
  query : String

namespace Target

/-- Whether a character may stand in the name of a scheme. -/
def isSchemeChar (c : Char) : Bool := c.isAlphanum || c = '+' || c = '-' || c = '.'

/-- What a target holds behind a scheme and its colon and slashes. -/
def afterScheme? (cs : List Char) : Option (List Char) :=
  match cs.dropWhile isSchemeChar with
  | ':' :: '/' :: '/' :: rest => some rest
  | _ => none

/-- What a target holds from its path on. Behind a scheme and a host the slash of the top may be
left out; a host alone has no path. -/
def fromPath (cs : List Char) : List Char :=
  if cs.head? = some '/' then cs
  else
    match afterScheme? cs with
    | none => []
    | some rest =>
      let rest := rest.dropWhile fun c => c ≠ '/' && c ≠ '?' && c ≠ '#'
      if rest.head? = some '/' then rest else '/' :: rest

/-- The target that a text spells. What follows a number sign does not count. -/
def ofText (text : String) : Target :=
  let cs := (fromPath text.toList).takeWhile (· ≠ '#')
  let (path, query) := Text.cut '?' cs
  { parts := (Text.pieces '/' path).drop 1, query := String.ofList (query.getD []) }

end Target

/-- A place on the server. Parameters are as they are written in the path. -/
inductive Route where
  | root
  | allDbs
  | uuids
  | membership
  | log
  | session
  | settings
  | settingsSection (name : List Char)
  | setting (name key : List Char)
  | database (db : List Char)
  | allDocs (db : List Char)
  | bulkDocs (db : List Char)
  | changes (db : List Char)
  | document (db id : List Char)
deriving DecidableEq

namespace Route

/-- The route of a path of one part. -/
def ofOne (a : List Char) : Route :=
  if a = "_all_dbs".toList then allDbs
  else if a = "_uuids".toList then uuids
  else if a = "_membership".toList then membership
  else if a = "_log".toList then log
  else if a = "_session".toList then session
  else if a = "_config".toList then settings
  else database a

/-- The route of a path of two parts. -/
def ofTwo (a b : List Char) : Route :=
  if a = "_config".toList then settingsSection b
  else if b = "_all_docs".toList then allDocs a
  else if b = "_bulk_docs".toList then bulkDocs a
  else if b = "_changes".toList then changes a
  else document a b

/-- The route of a path. -/
def ofPath? (parts : List (List Char)) : Option Route :=
  match parts with
  | [[]] => some root
  | [a] => some (ofOne a)
  | [a, b] => if b.isEmpty then none else some (ofTwo a b)
  | [a, b, c] => if a = "_config".toList ∧ c ≠ [] then some (setting b c) else none
  | _ => none

/-- The methods that a route allows, in order. -/
def methods : Route → List String
  | setting _ _ => ["DELETE", "GET", "HEAD", "PUT"]
  | database _ => ["DELETE", "GET", "HEAD", "POST", "PUT"]
  | bulkDocs _ => ["POST"]
  | document _ _ => ["DELETE", "GET", "HEAD", "PUT"]
  | _ => ["GET", "HEAD"]

/-- The methods that a route allows, with commas between them. -/
def allow (r : Route) : String := ",".intercalate r.methods

end Route

end DocumentDb
