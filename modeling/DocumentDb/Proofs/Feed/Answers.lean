import DocumentDb.Proofs.Database.Events
import DocumentDb.Proofs.Feed.Steps

/-! # A feed hands out no errors

Reading the log and waiting for it can fail, and a failure is handed out unless it is a cancelled
token or something that is not found. All that can keep a feed from its log is a cancelled token or
a destroyed database, so no failure is ever handed out, and polling needs no answer for one.

* `Feed.attempt`, `Feed.answer`: polling with the failures that are met.
* `Feed.Settles`, `Feed.settles_attempt`: a failure leaves nothing to do.
* `Feed.answer_eq`: the answers are those of polling.
-/

namespace DocumentDb.Feed

variable {db : Database} {cancelled : Bool} {now : Nat} {f g : Feed}

/-! ## Attempts -/

/-- Marking and reading, with the error of the read. -/
def attemptFill (f : Feed) (db : Database) (cancelled : Bool) (now : Nat) : Except Error Feed :=
  (db.read cancelled (f.mark db.watch).batch).map fun entries =>
    (f.mark db.watch).receive now entries

/-- Looking at what the feed waits for, with the error of waiting. -/
def attemptWake (f : Feed) (db : Database) (cancelled : Bool) (now : Nat) : Except Error Feed :=
  if cancelled then .error .cancelled
  else if f.alerted db.watch then (if db.closed then .error .missing else .ok f.resume)
  else if f.expired now then .ok f.finish
  else .ok f

/-- What a feed that does not wait does towards its next entry, with the error that is met. -/
def attemptAttend (f : Feed) (db : Database) (cancelled : Bool) (now : Nat) : Except Error Feed :=
  if f.spent then .ok f.finish
  else do
    let g ← f.attemptFill db cancelled now
    if g.phase = .parked ∧ g.expired now then .ok g.finish else .ok g

/-- Doing what can be done towards the next entry, with the error that is met. -/
def attempt (f : Feed) (db : Database) (cancelled : Bool) (now : Nat) : Except Error Feed :=
  if !f.buffer.isEmpty then .ok f
  else
    let woken := if f.phase = .parked then f.attemptWake db cancelled now else .ok f
    woken >>= fun g => if g.phase = .parked then .ok g else g.attemptAttend db cancelled now

/-- The answer of a feed. A cancelled token and what is not found end it quietly, and any other
error is handed out. -/
def answer (f : Feed) (db : Database) (cancelled : Bool) (now : Nat) : Except Error Polled :=
  match f.attempt db cancelled now with
  | .ok g => .ok g.take.1
  | .error .cancelled => .ok .ended
  | .error (.notFound _) => .ok .ended
  | .error e => .error e

/-- An attempt succeeds with a feed, or it fails quietly and the feed has nothing left to do. -/
def Settles (attempted : Except Error Feed) (g : Feed) : Prop :=
  attempted = .ok g ∨
    (attempted = .error .cancelled ∨ attempted = .error .missing) ∧ g.Exhausted

theorem Exhausted.not_parked (h : f.Exhausted) : f.phase ≠ .parked := by simp [h.2]

/-- What comes after a failure is not attempted, and an exhausted feed has no use for it either. -/
theorem Settles.bind {attempted : Except Error Feed} {next : Feed → Except Error Feed}
    (h : Settles attempted f) (hnext : Settles (next f) g) (hstill : f.Exhausted → g.Exhausted) :
    Settles (attempted >>= next) g := by
  obtain rfl | ⟨rfl | rfl, hexhausted⟩ := h
  · exact hnext
  · exact .inr ⟨.inl rfl, hstill hexhausted⟩
  · exact .inr ⟨.inr rfl, hstill hexhausted⟩

theorem settles_attemptFill (hbuffer : f.buffer = []) :
    Settles (f.attemptFill db cancelled now) (f.fill db cancelled now) := by
  unfold attemptFill fill
  dsimp only
  cases hread : db.read cancelled (f.mark db.watch).batch with
  | ok entries => exact .inl rfl
  | error e =>
    refine .inr ⟨?_, hbuffer, rfl⟩
    obtain ⟨rfl, -⟩ | ⟨rfl, -⟩ := Database.read_eq_error hread
    · exact .inl rfl
    · exact .inr rfl

theorem settles_attemptWake (hbuffer : f.buffer = []) :
    Settles (f.attemptWake db cancelled now) (f.wake db cancelled now) := by
  unfold attemptWake wake
  split
  · exact .inr ⟨.inl rfl, hbuffer, rfl⟩
  · split
    · split
      · exact .inr ⟨.inr rfl, hbuffer, rfl⟩
      · exact .inl rfl
    · split
      · exact .inl rfl
      · exact .inl rfl

theorem settles_attemptAttend (hbuffer : f.buffer = []) :
    Settles (f.attemptAttend db cancelled now) (f.attend db cancelled now) := by
  unfold attemptAttend Feed.attend
  split
  · exact .inl rfl
  · dsimp only
    refine (settles_attemptFill hbuffer).bind ?_ fun hexhausted => ?_
    · split
      · exact .inl rfl
      · exact .inl rfl
    · rw [if_neg fun hexpired => hexhausted.not_parked hexpired.1]
      exact hexhausted

theorem Exhausted.attend (h : f.Exhausted) (db : Database) (cancelled : Bool) (now : Nat) :
    (f.attend db cancelled now).Exhausted := by
  have hspent : f.spent = true := by simp [spent, h.2]
  unfold Feed.attend
  rw [if_pos hspent, finish_eq h.2]
  exact h

theorem settles_attempt : Settles (f.attempt db cancelled now) (f.settle db cancelled now) := by
  rw [settle_eq]
  unfold attempt
  split
  · exact .inl rfl
  · next hbuffer =>
    have hnil : f.buffer = [] := by simpa using hbuffer
    have hwoken : ∃ g, (if f.phase = .parked then f.wake db cancelled now else f) = g ∧
        Settles (if f.phase = .parked then f.attemptWake db cancelled now else .ok f) g ∧
        g.buffer = [] := by
      split
      · next hparked =>
        obtain ⟨-, hbuf, -⟩ := wake_steps db cancelled now hparked
        exact ⟨_, rfl, settles_attemptWake hnil, hbuf.trans hnil⟩
      · exact ⟨f, rfl, .inl rfl, hnil⟩
    obtain ⟨g, hg, hsettles, hgnil⟩ := hwoken
    dsimp only
    rw [hg]
    refine hsettles.bind ?_ fun hexhausted => ?_
    · split
      · exact .inl rfl
      · exact settles_attemptAttend hgnil
    · rw [if_neg hexhausted.not_parked]
      exact hexhausted.attend db cancelled now

/-- A feed hands out no error, and polling is what is left without the errors. -/
theorem answer_eq : f.answer db cancelled now = .ok (f.poll db cancelled now).1 := by
  have hsettles : Settles (f.attempt db cancelled now) (f.settle db cancelled now) :=
    settles_attempt
  unfold answer poll
  obtain hok | ⟨herror, hnil, hdone⟩ := hsettles
  · rw [hok]
  · have htake : (f.settle db cancelled now).take.1 = .ended := by
      unfold take
      rw [hnil]
      dsimp only
      rw [if_neg (by simp [hdone])]
    rw [htake]
    obtain h | h := herror
    · rw [h]
    · rw [h]
      rfl

end DocumentDb.Feed
