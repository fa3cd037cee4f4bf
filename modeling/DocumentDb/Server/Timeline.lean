import DocumentDb.Server.Handlers

/-! # Requests that take time

A timeline is a server with a clock and the requests that are under way. A request whose feed has to
wait stays under way until the feed ends or the time of the request is up.

* `Underway.settle`: what becomes of a request at a time.
* `Timeline.run`: a request that is waited for.
* `Timeline.begin`, `Timeline.finish`: a request in the background.
-/

namespace DocumentDb

/-- What comes of a request. -/
structure Answered where
  /-- The response; none if it did not begin in time. -/
  response : Option Response
  /-- Whether the request was given up before it had ended. -/
  pending : Bool
deriving DecidableEq

/-- A request that has been taken on. -/
inductive Running where
  | answered (a : Answered)
  /-- A feed whose entries make up one response when it has ended, with those so far. -/
  | collecting (h : Handle) (feed : OpenFeed) (entries : List ChangeEntry)
  /-- A feed whose entries are sent as they come, with those so far. -/
  | streaming (feed : OpenFeed) (entries : List ChangeEntry)

/-- A request under way, with the time at which it began. -/
structure Underway where
  started : Nat
  /-- Whether the request wants no body. -/
  headOnly : Bool
  running : Running

namespace Underway

/-- The milliseconds after which a request is given up. -/
def guardTime : Nat := 3600000

/-- The time at which a request is given up. -/
def limit (u : Underway) : Nat := u.started + guardTime

/-- The feed that a request waits for. -/
def feed? (u : Underway) : Option OpenFeed :=
  match u.running with
  | .answered _ => none
  | .collecting _ f _ => some f
  | .streaming f _ => some f

/-- The time at which a request ends if nothing happens, none if it has ended. -/
def endTime? (u : Underway) : Option Nat :=
  u.feed?.map fun f =>
    match f.feed.deadline with
    | none => u.limit
    | some deadline => min deadline u.limit

/-- The request with its answer. -/
def answer (u : Underway) (r : Option Response) (pending : Bool) : Underway :=
  let r := if u.headOnly then r.map Response.withoutBody else r
  { u with running := .answered ⟨r, pending⟩ }

/-- What becomes of a request at a time. -/
def settle (u : Underway) (s : Server) (now : Nat) : Underway × Server :=
  match u.running with
  | .answered _ => (u, s)
  | .collecting h f got =>
    match s.backend.drain s.stopping now f with
    | (es, .pending, f) =>
      if u.limit ≤ now then (u.answer none true, s)
      else ({ u with running := .collecting h f (got ++ es) }, s)
    | (es, _, _) =>
      let (r, s) := s.collect h (got ++ es)
      (u.answer (some r) false, s)
  | .streaming f got =>
    match s.backend.drain s.stopping now f with
    | (es, .pending, f) =>
      if u.limit ≤ now then (u.answer (some (Server.stream (got ++ es))) true, s)
      else ({ u with running := .streaming f (got ++ es) }, s)
    | (es, _, _) => (u.answer (some (Server.stream (got ++ es))) false, s)

/-- What becomes of a request up to a time: it ends when it has to. -/
def settleBy (u : Underway) (s : Server) (now : Nat) : Underway × Server :=
  match u.endTime? with
  | none => (u, s)
  | some t => u.settle s (min t now)

/-- The answer to a request that has ended. -/
def answer? (u : Underway) : Option Answered :=
  match u.running with
  | .answered a => some a
  | _ => none

/-- A request that a server has taken on. A streamed response begins at once, so it is complete if
no body is wanted. -/
def ofReply (now : Nat) (headOnly : Bool) (reply : Reply) : Underway :=
  let u (running : Running) : Underway := ⟨now, headOnly, running⟩
  match reply with
  | .ready r =>
    u (.answered ⟨some (if headOnly then r.withoutBody else r), false⟩)
  | .collected h f => u (.collecting h f [])
  | .streamed f =>
    if headOnly then u (.answered ⟨some (Server.stream []), false⟩) else u (.streaming f [])

end Underway

/-- A server with a clock and requests in the background. -/
structure Timeline where
  server : Server
  clock : Nat
  /-- The requests in the background by name. -/
  background : SortedMap String Underway

namespace Timeline

/-- The beginning of time. -/
def start (s : Server) : Timeline := ⟨s, 0, .empty⟩

/-- What becomes of some requests up to a time. -/
def settleAll (now : Nat) : List (String × Underway) → Server → List (String × Underway) × Server
  | [], s => ([], s)
  | (name, u) :: rest, s =>
    let (u, s) := u.settleBy s now
    let (rest, s) := settleAll now rest s
    ((name, u) :: rest, s)

/-- The timeline at a time, with the requests in the background settled. -/
def advance (t : Timeline) (now : Nat) : Timeline :=
  let (us, s) := settleAll now t.background.toList t.server
  { server := s, clock := now, background := .ofList us }

@[simp] theorem clock_advance (t : Timeline) (now : Nat) : (t.advance now).clock = now := rfl

/-- The timeline before the next thing that its user does: while there are requests in the
background, they go on, and a millisecond passes. What is due at its end comes after the user. -/
def breathe (t : Timeline) : Timeline :=
  if t.background.isEmpty then t else { t.advance t.clock with clock := t.clock + 1 }

/-- Time does not pass by itself for a user who has nothing in the background. -/
theorem breathe_of_isEmpty {t : Timeline} (h : t.background.isEmpty) : t.breathe = t := by
  simp [breathe, h]

/-- Breathing settles the requests in the background no later than at the time at which it begins. -/
theorem server_breathe {t : Timeline} (h : t.background.isEmpty = false) :
    t.breathe.server = (t.advance t.clock).server := by
  simp [breathe, h]

/-- A request that the server takes on. -/
def take (t : Timeline) (r : Request) : Underway × Timeline :=
  let (reply, s) := t.server.handle t.clock r
  (.ofReply t.clock (r.method == "HEAD") reply, { t with server := s })

/-- The answer to a request that is waited for. -/
def wait (t : Timeline) (u : Underway) : Answered × Timeline :=
  let (u, s) := u.settleBy t.server t.clock
  let t := { t with server := s }
  match u.endTime? with
  | none => (u.answer?.getD ⟨none, true⟩, t)
  | some e =>
    let t := t.advance (max t.clock e)
    let (u, s) := u.settle t.server e
    (u.answer?.getD ⟨none, true⟩, { t with server := s })

/-- The answer to a request. -/
def run (t : Timeline) (r : Request) : Answered × Timeline :=
  let (u, t) := t.take r
  t.wait u

/-- Begins a request in the background, behind those that are due. -/
def begin (t : Timeline) (name : String) (r : Request) : Timeline :=
  let (u, t) := (t.advance t.clock).take r
  { t with background := t.background.insert name u }

/-- The answer to a request in the background. -/
def finish (t : Timeline) (name : String) : Option (Answered × Timeline) :=
  (t.background.get? name).map fun u =>
    { t with background := t.background.erase name }.wait u

/-- The timeline whose server shuts down. -/
def stop (t : Timeline) : Timeline := { t with server := t.server.stop }

end Timeline

end DocumentDb
