import DocumentDb.Database.Feed

/-! # The steps of a feed

Between any two steps of a feed its database may change and time may pass. Asking a feed for its
next entry takes some steps at once.

* `Feed.Step`, `Feed.Steps`: one step and several of them, with the entries that they hand out.
* `Feed.poll_steps`, `Feed.drain_steps`: polling a feed and draining it are made of steps, and a
  feed that says that it has ended is exhausted.
-/

namespace DocumentDb

/-- The entries in an answer. -/
def Polled.entries : Polled → List ChangeEntry
  | .entry e => [e]
  | .ended => []
  | .pending => []

namespace Feed

/-- One step of a feed, with the entries that it hands out. The three ways to stop waiting are not
in any order. -/
inductive Step (db : Database) (cancelled : Bool) (now : Nat) (f : Feed) :
    List ChangeEntry → Feed → Prop where
  | hand {e : ChangeEntry} {rest : List ChangeEntry} (hbuffer : f.buffer = e :: rest) :
      Step db cancelled now f [e] { f with buffer := rest }
  | stop (hbuffer : f.buffer = []) (hphase : f.phase = .idle) (hspent : f.spent = true) :
      Step db cancelled now f [] f.finish
  | mark (hbuffer : f.buffer = []) (hphase : f.phase = .idle) (hspent : f.spent = false) :
      Step db cancelled now f [] (f.mark db.watch)
  | read {entries : List ChangeEntry} (hphase : f.phase = .marked)
      (hread : db.read cancelled f.batch = .ok entries) :
      Step db cancelled now f [] (f.receive now entries)
  | fail {e : Error} (hphase : f.phase = .marked) (hread : db.read cancelled f.batch = .error e) :
      Step db cancelled now f [] f.finish
  | cancel (hphase : f.phase = .parked) (hcancelled : cancelled = true) :
      Step db cancelled now f [] f.finish
  | expire (hphase : f.phase = .parked) (hexpired : f.expired now = true) :
      Step db cancelled now f [] f.finish
  | lose (hphase : f.phase = .parked) (halerted : f.alerted db.watch = true)
      (hclosed : db.closed = true) : Step db cancelled now f [] f.finish
  | wake (hphase : f.phase = .parked) (halerted : f.alerted db.watch = true)
      (hopen : db.closed = false) : Step db cancelled now f [] f.resume

/-- Some steps of a feed while its database stays the same. -/
inductive Steps (db : Database) (cancelled : Bool) (now : Nat) (f : Feed) :
    List ChangeEntry → Feed → Prop where
  | refl : Steps db cancelled now f [] f
  | tail {g h : Feed} {es es' : List ChangeEntry} (hsteps : Steps db cancelled now f es g)
      (hstep : g.Step db cancelled now es' h) : Steps db cancelled now f (es ++ es') h

/-- Nothing is left to hand out or to read. -/
def Exhausted (f : Feed) : Prop := f.buffer = [] ∧ f.phase = .done

section
variable {db : Database} {cancelled : Bool} {now : Nat} {f g h : Feed} {es es' : List ChangeEntry}

theorem Steps.single (hstep : f.Step db cancelled now es g) : f.Steps db cancelled now es g :=
  .tail .refl hstep

theorem Steps.trans (hfg : f.Steps db cancelled now es g) (hgh : g.Steps db cancelled now es' h) :
    f.Steps db cancelled now (es ++ es') h := by
  induction hgh with
  | refl =>
    rw [List.append_nil]
    exact hfg
  | tail _ hstep ih =>
    rw [← List.append_assoc]
    exact ih.tail hstep

end

/-! ## Settling -/

/-- A feed between two polls has something to hand out, waits, or has nothing left to do. -/
structure Rests (f : Feed) : Prop where
  phase : f.phase ≠ .marked
  empty : f.buffer = [] → f.phase = .parked ∨ f.phase = .done

/-- What a feed that does not wait does towards its next entry. -/
def attend (f : Feed) (db : Database) (cancelled : Bool) (now : Nat) : Feed :=
  if f.spent then f.finish
  else
    let g := f.fill db cancelled now
    if g.phase = .parked ∧ g.expired now then g.finish else g

theorem settle_eq (f : Feed) (db : Database) (cancelled : Bool) (now : Nat) :
    f.settle db cancelled now =
      if !f.buffer.isEmpty then f
      else
        let g := if f.phase = .parked then f.wake db cancelled now else f
        if g.phase = .parked then g else g.attend db cancelled now := rfl

section
variable (db : Database) (cancelled : Bool) (now : Nat) {f : Feed}

theorem rests_finish (f : Feed) : f.finish.Rests := ⟨by simp [finish], fun _ => .inr rfl⟩

theorem finish_eq (hphase : f.phase = .done) : f.finish = f := by rw [finish, ← hphase]

theorem rests_receive (f : Feed) (now : Nat) (entries : List ChangeEntry) :
    (f.receive now entries).Rests := by
  unfold receive
  cases hlast : entries.getLast? with
  | none =>
    dsimp only
    split
    · exact rests_finish f
    · exact ⟨by simp [park], fun _ => .inl rfl⟩
  | some last =>
    have hne : entries ≠ [] := List.ne_nil_of_mem (List.mem_of_getLast? hlast)
    refine ⟨?_, fun hnil => absurd (List.append_eq_nil_iff.1 hnil).2 hne⟩
    dsimp only
    split <;> simp

theorem fill_steps (hbuffer : f.buffer = []) (hphase : f.phase = .idle)
    (hspent : f.spent = false) :
    f.Steps db cancelled now [] (f.fill db cancelled now) ∧ (f.fill db cancelled now).Rests := by
  have hmark : f.Steps db cancelled now [] (f.mark db.watch) :=
    .single (.mark hbuffer hphase hspent)
  unfold fill
  dsimp only
  cases hread : db.read cancelled (f.mark db.watch).batch with
  | error e => exact ⟨hmark.tail (.fail rfl hread), rests_finish _⟩
  | ok entries => exact ⟨hmark.tail (.read rfl hread), rests_receive _ now entries⟩

theorem wake_steps (hphase : f.phase = .parked) :
    f.Steps db cancelled now [] (f.wake db cancelled now) ∧
      (f.wake db cancelled now).buffer = f.buffer ∧
      (f.wake db cancelled now).phase ≠ .marked := by
  unfold wake
  split
  · next hcancelled => exact ⟨.single (.cancel hphase hcancelled), rfl, by simp [finish]⟩
  · split
    · next halerted =>
      split
      · next hclosed => exact ⟨.single (.lose hphase halerted hclosed), rfl, by simp [finish]⟩
      · next hopen =>
        exact ⟨.single (.wake hphase halerted (by simpa using hopen)), rfl, by simp [resume]⟩
    · split
      · next hexpired => exact ⟨.single (.expire hphase hexpired), rfl, by simp [finish]⟩
      · exact ⟨.refl, rfl, by simp [hphase]⟩

theorem attend_steps (hbuffer : f.buffer = []) (hmarked : f.phase ≠ .marked)
    (hparked : f.phase ≠ .parked) :
    f.Steps db cancelled now [] (f.attend db cancelled now) ∧
      (f.attend db cancelled now).Rests := by
  unfold attend
  split
  · next hspent =>
    refine ⟨?_, rests_finish f⟩
    cases hphase : f.phase with
    | idle => exact .single (.stop hbuffer hphase hspent)
    | marked => exact absurd hphase hmarked
    | parked => exact absurd hphase hparked
    | done =>
      rw [finish_eq hphase]
      exact .refl
  · next hspent =>
    have hidle : f.phase = .idle := by
      cases hphase : f.phase with
      | idle => rfl
      | marked => exact absurd hphase hmarked
      | parked => exact absurd hphase hparked
      | done => simp [spent, hphase] at hspent
    obtain ⟨hfill, hrests⟩ := fill_steps db cancelled now hbuffer hidle (by simpa using hspent)
    dsimp only
    split
    · next hexpired => exact ⟨hfill.tail (.expire hexpired.1 hexpired.2), rests_finish _⟩
    · exact ⟨hfill, hrests⟩

theorem settle_steps (hmarked : f.phase ≠ .marked) :
    f.Steps db cancelled now [] (f.settle db cancelled now) ∧
      (f.settle db cancelled now).Rests := by
  rw [settle_eq]
  split
  · next hbuffer =>
    refine ⟨.refl, hmarked, fun hnil => ?_⟩
    rw [hnil] at hbuffer
    cases hbuffer
  · next hbuffer =>
    have hnil : f.buffer = [] := by simpa using hbuffer
    have hwake : ∃ g, (if f.phase = .parked then f.wake db cancelled now else f) = g ∧
        f.Steps db cancelled now [] g ∧ g.buffer = [] ∧ g.phase ≠ .marked := by
      split
      · next hparked =>
        obtain ⟨hsteps, hbuf, hphase⟩ := wake_steps db cancelled now hparked
        exact ⟨_, rfl, hsteps, hbuf.trans hnil, hphase⟩
      · exact ⟨f, rfl, .refl, hnil, hmarked⟩
    obtain ⟨g, hg, hsteps, hgnil, hgmarked⟩ := hwake
    rw [hg]
    dsimp only
    split
    · next hparked => exact ⟨hsteps, hgmarked, fun _ => .inl hparked⟩
    · next hparked =>
      obtain ⟨hattend, hrests⟩ := attend_steps db cancelled now hgnil hgmarked hparked
      exact ⟨hsteps.trans hattend, hrests⟩

/-! ## Polling -/

/-- Asking a feed for its next entry takes some steps, and it is exhausted if it says that it has
ended. -/
theorem poll_steps (hmarked : f.phase ≠ .marked) :
    let r := f.poll db cancelled now
    f.Steps db cancelled now r.1.entries r.2 ∧ r.2.phase ≠ .marked ∧
      (r.1 = .ended → r.2.Exhausted) := by
  obtain ⟨hsteps, hrests⟩ := settle_steps db cancelled now hmarked
  unfold poll
  generalize f.settle db cancelled now = g at hsteps hrests
  unfold take
  split
  · next e rest hbuffer =>
    exact ⟨hsteps.tail (.hand hbuffer), hrests.phase, fun h => by cases h⟩
  · next hbuffer =>
    split
    · exact ⟨hsteps, hrests.phase, fun h => by cases h⟩
    · next hparked =>
      have hdone : g.phase = .done := (hrests.empty hbuffer).resolve_left hparked
      exact ⟨hsteps, hrests.phase, fun _ => ⟨hbuffer, hdone⟩⟩

theorem drainFor_steps (fuel : Nat) (hmarked : f.phase ≠ .marked) :
    let r := drainFor db cancelled now fuel f
    f.Steps db cancelled now r.1 r.2.2 ∧ r.2.2.phase ≠ .marked ∧
      (r.2.1 = .pending ∨ r.2.1 = .ended ∧ r.2.2.Exhausted) := by
  induction fuel generalizing f with
  | zero => exact ⟨.refl, hmarked, .inl rfl⟩
  | succ fuel ih =>
    have hpoll := poll_steps db cancelled now hmarked
    unfold drainFor
    generalize f.poll db cancelled now = r at hpoll
    obtain ⟨p, g⟩ := r
    obtain ⟨hsteps, hphase, hended⟩ := hpoll
    cases p with
    | entry e =>
      obtain ⟨hrest, hphase', hanswer⟩ := ih hphase
      exact ⟨hsteps.trans hrest, hphase', hanswer⟩
    | ended => exact ⟨hsteps, hphase, .inr ⟨rfl, hended rfl⟩⟩
    | pending => exact ⟨hsteps, hphase, .inl rfl⟩

theorem drain_steps (hmarked : f.phase ≠ .marked) :
    let r := f.drain db cancelled now
    f.Steps db cancelled now r.1 r.2.2 ∧ r.2.2.phase ≠ .marked ∧
      (r.2.1 = .pending ∨ r.2.1 = .ended ∧ r.2.2.Exhausted) :=
  drainFor_steps db cancelled now _ hmarked

end

end Feed

end DocumentDb
