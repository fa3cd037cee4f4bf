import DocumentDb.Database.Basic

/-! # Feeds of changes

A feed follows the log of one database. It reads the log in batches: it remembers the state of the
watch, reads, and hands out what it has read. When there is nothing to read it ends or parks until
the watch moves, its time runs out, or its token is cancelled.

* `Feed.subscribe`, `Feed.mark`, `Feed.receive`, `Feed.resume`, `Feed.finish`: the single steps.
* `Feed.fill`: marks and reads.
* `Feed.poll`: asks for the next entry.
* `Feed.drain`: asks until there is none.
-/

namespace DocumentDb

/-- What a feed does next. -/
inductive Feed.Phase where
  /-- Remember the state of the watch. -/
  | idle
  /-- Read the log. -/
  | marked
  /-- Wait for the watch. -/
  | parked
  /-- Nothing but hand out what it has read. -/
  | done
deriving DecidableEq

/-- A feed of the changes of a database. -/
structure Feed where
  kind : FeedKind
  /-- The sequence number of the last entry that has been read. -/
  cursor : Nat
  /-- The number of entries that may still be read. -/
  remaining : Option Nat
  /-- The milliseconds that the feed waits without a change. -/
  timeout : Option Nat
  /-- The time at which waiting ends. -/
  deadline : Option Nat
  /-- The entries that have been read and not handed out. -/
  buffer : List ChangeEntry
  /-- The version of the watch that the feed has seen. -/
  seen : Nat
  phase : Feed.Phase
deriving DecidableEq

/-- The answer of a feed that is asked for its next entry. -/
inductive Polled where
  | entry (e : ChangeEntry)
  | ended
  /-- There is nothing yet. -/
  | pending
deriving DecidableEq

namespace Feed

/-! ## Single steps -/

/-- A feed that begins after a sequence number. It has subscribed before that number was found. -/
def start (q : ChangesQuery) (seen since now : Nat) : Feed where
  kind := q.feed
  cursor := since
  remaining := q.limit
  timeout := q.timeout
  deadline := q.timeout.map (now + ·)
  buffer := []
  seen := seen
  phase := .idle

/-- The sequence number after which a query begins. -/
def resolve (db : Database) (cancelled : Bool) : Since → Except Error Nat
  | .seq n => .ok n
  | .now => db.read cancelled Store.updateSeq

/-- The feed of a query, opened on a database. -/
def subscribe (db : Database) (cancelled : Bool) (q : ChangesQuery) (now : Nat) :
    Except Error Feed :=
  let seen := db.watch.version
  (resolve db cancelled q.since).map fun since => start q seen since now

/-- The feed after it has remembered the state of the watch. -/
def mark (f : Feed) (w : Watch) : Feed := { f with seen := w.version, phase := .marked }

/-- The batch that the feed reads from a store. -/
def batch (f : Feed) (s : Store) : List ChangeEntry := s.changesSince f.cursor f.remaining

/-- The feed without anything left to do. -/
def finish (f : Feed) : Feed := { f with phase := .done }

/-- The feed that waits. -/
def park (f : Feed) : Feed := { f with phase := .parked }

/-- The feed that reads again. -/
def resume (f : Feed) : Feed := { f with phase := .idle }

/-- The feed after it has read a batch. Only a continuous feed reads on after entries, and its time
begins anew; without entries a normal feed is done and the others wait. -/
def receive (f : Feed) (now : Nat) (entries : List ChangeEntry) : Feed :=
  match entries.getLast? with
  | some last =>
    { f with
      cursor := last.seq
      remaining := f.remaining.map (· - entries.length)
      deadline := f.timeout.map (now + ·)
      buffer := f.buffer ++ entries
      phase := if f.kind = .continuous then .idle else .done }
  | none => if f.kind = .normal then f.finish else f.park

/-- Whether the time of a waiting feed has run out. -/
def expired (f : Feed) (now : Nat) : Bool := f.deadline.any (· ≤ now)

/-- Whether the watch has moved since the feed has looked at it. -/
def alerted (f : Feed) (w : Watch) : Bool := w.version != f.seen

/-! ## Polling -/

/-- The feed after it has marked and read; a database that cannot be read ends it. -/
def fill (f : Feed) (db : Database) (cancelled : Bool) (now : Nat) : Feed :=
  let marked := f.mark db.watch
  match db.read cancelled marked.batch with
  | .error _ => marked.finish
  | .ok entries => marked.receive now entries

/-- The feed after a look at what it waits for. -/
def wake (f : Feed) (db : Database) (cancelled : Bool) (now : Nat) : Feed :=
  if cancelled then f.finish
  else if f.alerted db.watch then (if db.closed then f.finish else f.resume)
  else if f.expired now then f.finish
  else f

/-- The first entry that has been read, or what the phase says if there is none. -/
def take (f : Feed) : Polled × Feed :=
  match f.buffer with
  | e :: rest => (.entry e, { f with buffer := rest })
  | [] => if f.phase = .parked then (.pending, f) else (.ended, f)

/-- Whether the feed has no use for the log. -/
def spent (f : Feed) : Bool := f.phase == .done || f.remaining == some 0

/-- The feed after it has done what it can towards its next entry. -/
def settle (f : Feed) (db : Database) (cancelled : Bool) (now : Nat) : Feed :=
  if !f.buffer.isEmpty then f
  else
    let f := if f.phase = .parked then f.wake db cancelled now else f
    if f.phase = .parked then f
    else if f.spent then f.finish
    else
      let f := f.fill db cancelled now
      if f.phase = .parked ∧ f.expired now then f.finish else f

/-- Asks a feed for its next entry. -/
def poll (f : Feed) (db : Database) (cancelled : Bool) (now : Nat) : Polled × Feed :=
  (f.settle db cancelled now).take

/-- Asks a feed for entries until there is none, so many times at most. -/
def drainFor (db : Database) (cancelled : Bool) (now : Nat) :
    Nat → Feed → List ChangeEntry × Polled × Feed
  | 0, f => ([], .pending, f)
  | fuel + 1, f =>
    match f.poll db cancelled now with
    | (.entry e, f) =>
      let (es, p, f) := drainFor db cancelled now fuel f
      (e :: es, p, f)
    | (p, f) => ([], p, f)

/-- The entries that a feed hands out without waiting, how it answers then, and the feed
afterwards. -/
def drain (f : Feed) (db : Database) (cancelled : Bool) (now : Nat) :
    List ChangeEntry × Polled × Feed :=
  drainFor db cancelled now (f.buffer.length + db.store.updateSeq + 2) f

end Feed

end DocumentDb
