import DocumentDb.Options.Basic

/-! # Queries

The options that an enumeration of documents and a feed of changes understand.

* `ListingQuery.ofOptions`, `ListingQuery.keyRange`: which ids are listed.
* `ChangesQuery.ofOptions`: where a feed begins and how it ends.
-/

namespace DocumentDb

/-- One end of a range of ids. -/
inductive Bound where
  | included (key : String)
  | excluded (key : String)
  | unbounded
deriving DecidableEq

/-- Which documents an enumeration lists, and in which order. -/
structure ListingQuery where
  /-- Where the enumeration starts, the upper end if it descends. -/
  start : Bound
  /-- Where the enumeration stops, the lower end if it descends. -/
  stop : Bound
  limit : Option Nat
  skip : Nat
  descending : Bool
  includeDocs : Bool

namespace Bound

/-- The key of a bound. -/
def key? : Bound → Option String
  | included key => some key
  | excluded key => some key
  | unbounded => none

/-- Whether an id is not below a lower bound. -/
def admitsAbove : Bound → String → Bool
  | included key, id => (compare key id).isLE
  | excluded key, id => (compare key id).isLT
  | unbounded, _ => true

/-- Whether an id is not above an upper bound. -/
def admitsBelow : Bound → String → Bool
  | included key, id => (compare id key).isLE
  | excluded key, id => (compare id key).isLT
  | unbounded, _ => true

/-- The bound at a key, or none. -/
def ofKey (inclusive : Bool) : Option String → Bound
  | none => unbounded
  | some key => if inclusive then included key else excluded key

/-- Whether no id can lie between a lower and an upper bound, as far as their order tells. -/
def crossed (low high : Bound) : Bool :=
  match low, high with
  | included a, included b => (compare a b).isGT
  | low, high =>
    match low.key?, high.key? with
    | some a, some b => (compare a b).isGE
    | _, _ => false

end Bound

namespace ListingQuery

/-- All documents in ascending order, without bodies. -/
def all : ListingQuery where
  start := .unbounded
  stop := .unbounded
  limit := none
  skip := 0
  descending := false
  includeDocs := false

/-- A key under one of some option names; messages use the first. -/
def keyOption (o : Options) (name : String) (others : List String) :
    Except Error (Option String) :=
  match o.firstOf (name :: others) with
  | none => .ok none
  | some .null => .ok none
  | some (.string key) => .ok (some key)
  | some v => .error (.badRequest (name ++ " must be a string document id, got " ++ v.text))

/-- The query that some options describe. -/
def ofOptions (o : Options) : Except Error ListingQuery := do
  let startKey ← keyOption o "startkey" ["start_key"]
  let stopKey ← keyOption o "endkey" ["end_key"]
  let inclusiveStart ← o.getBool "inclusive_start"
  let inclusiveStop ← o.getBool "inclusive_end"
  let limit ← o.getNat "limit"
  let skip ← o.getNat "skip"
  let descending ← o.flag "descending"
  let includeDocs ← o.flag "include_docs"
  return {
    start := .ofKey (inclusiveStart.getD true) startKey
    stop := .ofKey (inclusiveStop.getD true) stopKey
    limit := limit
    skip := skip.getD 0
    descending := descending
    includeDocs := includeDocs }

/-- The lower and the upper bound of the ids, unless they cross. -/
def keyRange (q : ListingQuery) : Option (Bound × Bound) :=
  let (low, high) := if q.descending then (q.stop, q.start) else (q.start, q.stop)
  if low.crossed high then none else some (low, high)

end ListingQuery

/-! ## Changes -/

/-- When a feed of changes ends. -/
inductive FeedKind where
  /-- After what there is. -/
  | normal
  /-- After the first changes, for which it waits. -/
  | longpoll
  /-- Not by itself. -/
  | continuous
deriving DecidableEq

namespace FeedKind

/-- The name of a kind. -/
def name : FeedKind → String
  | normal => "normal"
  | longpoll => "longpoll"
  | continuous => "continuous"

/-- The kind with a name. -/
def ofName? (s : String) : Option FeedKind :=
  [normal, longpoll, continuous].find? fun k => k.name == s

/-- The kind with a name, or the failure to find one. -/
def parse (s : String) : Except Error FeedKind :=
  match ofName? s with
  | some k => .ok k
  | none => .error (.badRequest ("unsupported feed type: " ++ s))

/-- A kind as a value. -/
def encode (k : FeedKind) : Json := .string k.name

/-- The kind that a value holds: its name, or an object whose only member is the name with null. -/
def decode? : Json → Option FeedKind
  | .string s => ofName? s
  | .members [(name, .null)] => ofName? name
  | _ => none

end FeedKind

/-- Where a feed begins. -/
inductive Since where
  /-- After a sequence number. -/
  | seq (n : Nat)
  /-- After what there is. -/
  | now
deriving DecidableEq

/-- Which changes a feed delivers. -/
structure ChangesQuery where
  since : Since
  feed : FeedKind
  /-- The milliseconds that a feed waits without a change. -/
  timeout : Option Nat
  /-- The number of entries that are delivered at most. -/
  limit : Option Nat
deriving DecidableEq

namespace ChangesQuery

/-- The place that a text names. -/
def readSince : Option String → Except Error Since
  | none => .ok (.seq 0)
  | some s =>
    if s = "now" then .ok .now
    else
      match Numeral.read? Numeral.max64 s with
      | some n => .ok (.seq n)
      | none => .error (.badRequest ("invalid since value: " ++ s))

/-- The kind that a text names. -/
def readFeed : Option String → Except Error FeedKind
  | none => .ok .normal
  | some s => FeedKind.parse s

/-- The query that some options describe. -/
def ofOptions (o : Options) : Except Error ChangesQuery := do
  let since ← readSince (← o.getString "since")
  let feed ← readFeed (← o.getString "feed")
  let timeout ← o.getNat "timeout"
  let limit ← o.getNat "limit"
  return { since, feed, timeout, limit }

end ChangesQuery

end DocumentDb
