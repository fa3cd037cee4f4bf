import DocumentDb.Proofs.Database.Events
import DocumentDb.Proofs.Feed.Steps
import Mathlib.Data.List.Infix

/-! # What a feed hands out

A feed hands out a piece of the log that begins right after its start, whatever happens to its
database between its steps.

* `Feed.Run`: a feed from its subscription on, with the events that fall between its steps.
* `Feed.Run.subscribe_call`, `Feed.Run.steps`, `Feed.Run.events`, `Feed.Run.drain`: the calls of the
  program lead from run to run.
* `Feed.Follows`, `Feed.Run.follows`: the invariant, and that every run keeps it.
-/

namespace DocumentDb.Feed

/-! ## Runs -/

/-- How far a feed has come. -/
inductive Stage where
  /-- It watches its database, and where it begins has not been found yet. -/
  | subscribed (seen : Nat)
  /-- It begins after a sequence number and has handed out some entries. -/
  | following (start : Nat) (f : Feed) (got : List ChangeEntry)

/-- The runs of a feed, together with what happens to its database. Each step has a time of its
own and may find its token cancelled. -/
inductive Run (q : ChangesQuery) : Database → Stage → Prop where
  | subscribe {db : Database} (hdb : db.Reachable) : Run q db (.subscribed db.watch.version)
  | resolve {db : Database} {seen start : Nat} {cancelled : Bool} (now : Nat)
      (h : Run q db (.subscribed seen)) (hstart : resolve db cancelled q.since = .ok start) :
      Run q db (.following start (Feed.start q seen start now) [])
  | step {db : Database} {start : Nat} {f g : Feed} {got es : List ChangeEntry} (cancelled : Bool)
      (now : Nat) (h : Run q db (.following start f got)) (hstep : f.Step db cancelled now es g) :
      Run q db (.following start g (got ++ es))
  | event {db db' : Database} {st : Stage} (h : Run q db st) (e : db.Event db') : Run q db' st

section
variable {q : ChangesQuery} {db : Database} {start now : Nat} {cancelled : Bool} {f g : Feed}
  {got es : List ChangeEntry}

theorem Run.subscribe_call (hdb : db.Reachable) (h : Feed.subscribe db cancelled q now = .ok f) :
    ∃ start, Feed.resolve db cancelled q.since = .ok start ∧ Run q db (.following start f []) := by
  unfold Feed.subscribe at h
  cases hstart : Feed.resolve db cancelled q.since with
  | error e =>
    rw [hstart] at h
    cases h
  | ok start =>
    rw [hstart] at h
    cases h
    exact ⟨start, rfl, .resolve now (.subscribe hdb) hstart⟩

theorem Run.steps (h : Run q db (.following start f got)) (hsteps : f.Steps db cancelled now es g) :
    Run q db (.following start g (got ++ es)) := by
  induction hsteps with
  | refl =>
    rw [List.append_nil]
    exact h
  | tail _ hstep ih =>
    rw [← List.append_assoc]
    exact ih.step cancelled now hstep

theorem Run.events {db' : Database} {st : Stage} (h : Run q db st)
    (hevents : Relation.ReflTransGen Database.Event db db') : Run q db' st := by
  induction hevents with
  | refl => exact h
  | tail _ e ih => exact ih.event e

theorem Run.drain (h : Run q db (.following start f got)) (hmarked : f.phase ≠ .marked)
    (cancelled : Bool) (now : Nat) :
    let r := f.drain db cancelled now
    Run q db (.following start r.2.2 (got ++ r.1)) ∧ r.2.2.phase ≠ .marked ∧
      (r.2.1 = .pending ∨ r.2.1 = .ended ∧ r.2.2.Exhausted) := by
  obtain ⟨hsteps, hphase, hanswer⟩ := drain_steps db cancelled now hmarked
  exact ⟨h.steps hsteps, hphase, hanswer⟩

theorem Run.reachable {st : Stage} (h : Run q db st) : db.Reachable := by
  induction h with
  | subscribe hdb => exact hdb
  | resolve _ _ _ ih => exact ih
  | step _ _ _ _ ih => exact ih
  | event _ e ih => exact ih.event e

/-! ## The invariant -/

/-- What a feed has handed out and what it still holds are a piece of the log that begins at its
start and ends at its cursor. -/
structure Follows (f : Feed) (s : Store) (start : Nat) (got : List ChangeEntry) : Prop where
  piece : got ++ f.buffer <+: s.log.drop start
  cursor : f.cursor = start + (got ++ f.buffer).length

theorem Follows.handed {s : Store} (h : f.Follows s start got) : got <+: s.log.drop start :=
  (List.prefix_append got f.buffer).trans h.piece

/-- Handing out an entry takes it off the buffer. -/
theorem handed_append {e : ChangeEntry} {rest : List ChangeEntry} (hbuffer : f.buffer = e :: rest) :
    got ++ [e] ++ rest = got ++ f.buffer := by
  rw [hbuffer, List.append_assoc, List.singleton_append]

theorem Follows.log {s s' : Store} (h : f.Follows s start got) (hlog : s.log <+: s'.log) :
    f.Follows s' start got := ⟨h.piece.trans (hlog.drop start), h.cursor⟩

theorem Follows.move {s : Store} (h : f.Follows s start got) (hbuffer : g.buffer = f.buffer)
    (hcursor : g.cursor = f.cursor) : g.Follows s start got := by
  constructor
  · rw [hbuffer]
    exact h.piece
  · rw [hbuffer, hcursor]
    exact h.cursor

/-- A batch goes on where the feed has stopped reading. -/
theorem Follows.batch {s : Store} (h : f.Follows s start got) :
    got ++ (f.buffer ++ f.batch s) <+: s.log.drop start := by
  obtain ⟨rest, hrest⟩ := h.piece
  have hdrop : s.log.drop f.cursor = rest := by
    rw [h.cursor, ← List.drop_drop, ← hrest, List.drop_left]
  have hbatch : f.batch s <+: rest := by
    rw [← hdrop]
    exact Store.prefix_atMost f.remaining _
  rw [← hrest, ← List.append_assoc]
  exact (List.prefix_append_right_inj _).2 hbatch

theorem Follows.receive {s : Store} (h : f.Follows s start got) (hl : s.Logged) (now : Nat) :
    (f.receive now (f.batch s)).Follows s start got := by
  have hpiece := h.batch
  unfold Feed.receive
  cases hlast : (f.batch s).getLast? with
  | none =>
    dsimp only
    split
    · exact h.move rfl rfl
    · exact h.move rfl rfl
  | some last =>
    have hend : (got ++ (f.buffer ++ f.batch s)).getLast? = some last := by
      rw [List.getLast?_append, List.getLast?_append, hlast]
      rfl
    exact ⟨hpiece, hl.seq_getLast hpiece hend⟩

theorem Follows.step (h : f.Follows db.store start got) (hl : db.store.Logged)
    (hstep : f.Step db cancelled now es g) : g.Follows db.store start (got ++ es) := by
  cases hstep with
  | @hand e rest hbuffer =>
    constructor
    · show got ++ [e] ++ rest <+: _
      rw [handed_append hbuffer]
      exact h.piece
    · show f.cursor = start + (got ++ [e] ++ rest).length
      rw [handed_append hbuffer]
      exact h.cursor
  | read hphase hread =>
    obtain ⟨-, -, hentries⟩ := Database.read_eq_ok.1 hread
    rw [List.append_nil, ← hentries]
    exact h.receive hl now
  -- All other steps leave the buffer and the cursor alone.
  | stop | mark | fail | cancel | expire | lose | wake =>
    rw [List.append_nil]
    exact h.move rfl rfl

/-- In every run a feed hands out a piece of the log that begins at its start. -/
theorem Run.follows (h : Run q db (.following start f got)) :
    f.Follows db.store start got := by
  generalize hst : Stage.following start f got = st at h
  induction h generalizing f got with
  | subscribe _ => cases hst
  | resolve now _ _ _ =>
    cases hst
    exact ⟨List.nil_prefix, rfl⟩
  | step _ _ h hstep ih =>
    cases hst
    exact (ih rfl).step h.reachable.logged hstep
  | event h e ih => exact (ih hst).log (e.log h.reachable)

end

end DocumentDb.Feed
