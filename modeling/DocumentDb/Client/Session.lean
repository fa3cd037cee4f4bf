import DocumentDb.Client.Basic

/-! # Sessions

A session is a client with everything that its user holds by name: tokens, handles and feeds. Time
is a number of milliseconds that moves only when the user waits.

* `Session.call`: a call under a token.
* `Session.openFeed`, `Session.nextEntry`, `Session.dropFeed`: a feed that is read entry by entry.
* `Session.changes`: a feed that is read to its end.
-/

namespace DocumentDb

/-- A feed with the name of the token under which it was opened. -/
structure HeldFeed where
  feed : OpenFeed
  token : Option String

/-- A client with the tokens, handles and feeds that its user holds. -/
structure Session where
  client : Client
  backend : Backend
  /-- The names of the cancelled tokens. -/
  cancelled : List String
  handles : SortedMap String Handle
  feeds : SortedMap String HeldFeed
  /-- The time. -/
  clock : Nat

/-- What a feed answers to a user who waits. -/
inductive Waited where
  | entry (e : ChangeEntry)
  | ended
  /-- Nothing came while the user waited. -/
  | pending
deriving DecidableEq

namespace Session

/-- The milliseconds after which a call that still waits is given up. -/
def guardTime : Nat := 3600000

/-- A new session. -/
def start (c : Client) (b : Backend) : Session := ⟨c, b, [], .empty, .empty, 0⟩

/-- Whether a token has been cancelled. -/
def isCancelled (s : Session) : Option String → Bool
  | none => false
  | some token => s.cancelled.contains token

/-- Cancels a token. -/
def cancel (s : Session) (token : String) : Session := { s with cancelled := token :: s.cancelled }

/-- A call on the backend under a token. -/
def call {α : Type} (s : Session) (token : Option String) (c : Bool → Call Backend α) :
    Except Error α × Session :=
  let (r, b) := (c (s.isCancelled token)).outcome s.backend
  (r, { s with backend := b })

/-- Opens a handle and keeps it under a name. -/
def openDb (s : Session) (token : Option String) (name held : String) (o : Options) :
    Except Error String × Session :=
  match s.call token fun cancelled => s.client.openDb cancelled name o with
  | (.ok h, s) => (.ok h.name, { s with handles := s.handles.insert held h })
  | (.error e, s) => (.error e, s)

/-! ## Feeds -/

/-- Opens a feed and keeps it under a name. -/
def openFeed (s : Session) (token : Option String) (h : Handle) (held : String) (o : Options) :
    Except Error Unit × Session :=
  match s.call token fun cancelled => h.openFeed cancelled s.clock o with
  | (.ok f, s) => (.ok (), { s with feeds := s.feeds.insert held ⟨f, token⟩ })
  | (.error e, s) => (.error e, s)

/-- Forgets a feed. -/
def dropFeed (s : Session) (held : String) : Session := { s with feeds := s.feeds.erase held }

/-- The session at a later time. -/
def setClock (s : Session) (now : Nat) : Session := { s with clock := now }

/-- When a feed that waits from now on ends for want of changes, if that is within some time. -/
def endsWithin (s : Session) (f : OpenFeed) (wait : Nat) : Option Nat :=
  f.feed.deadline.filter (· ≤ s.clock + wait)

/-- Asks a held feed for its next entry and waits for it some time. A feed that has ended is
forgotten. -/
def nextEntry (s : Session) (held : String) (f : HeldFeed) (wait : Nat) : Waited × Session :=
  match s.backend.poll (s.isCancelled f.token) s.clock f.feed with
  | (.entry e, feed) => (.entry e, { s with feeds := s.feeds.insert held { f with feed } })
  | (.ended, _) => (.ended, s.dropFeed held)
  | (.pending, feed) =>
    match s.endsWithin feed wait with
    | some deadline => (.ended, (s.dropFeed held).setClock deadline)
    | none =>
      (.pending,
        { s with feeds := s.feeds.insert held { f with feed }, clock := s.clock + wait })

/-- The entries of a feed up to its end, and whether it was given up before. -/
def changes (s : Session) (token : Option String) (h : Handle) (o : Options) :
    Except Error (List ChangeEntry × Bool) × Session :=
  match s.call token fun cancelled => h.openFeed cancelled s.clock o with
  | (.error e, s) => (.error e, s)
  | (.ok f, s) =>
    match s.backend.drain (s.isCancelled token) s.clock f with
    | (es, .pending, f) =>
      match s.endsWithin f guardTime with
      | some deadline => (.ok (es, false), s.setClock deadline)
      | none => (.ok (es, true), s.setClock (s.clock + guardTime))
    | (es, _, _) => (.ok (es, false), s)

end Session

end DocumentDb
