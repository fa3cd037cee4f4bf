import DocumentDb.Proofs.Database.Events

/-! # Databases between the steps of a call

A write commits its store and then announces it, and holds the lock of the database in between, so
no other write and no read falls between the two. Closing needs no lock: it marks the database and
then alerts its observers, and anything may fall between these two.

* `Database.Moment`, `Database.Moment.Step`: a database with the calls that are under way, and what
  happens next.
* `Database.Moment.write_steps`, `Database.Moment.close_steps`: the calls are made of these steps.
* `Database.Moment.Reachable`, `Database.Moment.Reachable.value`: the moments that follow the
  creation of a database; the watch has the update sequence unless a write is under way.
* `Database.Moment.Watched`, `Database.Moment.Watched.step`: an observer has missed nothing that it
  will not be told of, and this stays so.
-/

namespace DocumentDb.Database

/-- A database with the calls that are between their two steps. -/
structure Moment where
  db : Database
  /-- A write has committed and not announced yet. It holds the lock. -/
  writing : Bool
  /-- How many calls have marked the database as destroyed and not alerted its observers yet. -/
  closing : Nat

namespace Moment

/-- What happens next. A write has looked at the flag of the database before it commits, so it may
commit to a database that was marked since. -/
inductive Step (x : Moment) : Moment → Prop where
  | commit (ws : List Store.Write) (hfree : x.writing = false) :
      Step x ⟨x.db.commit (x.db.store.after ws),
        (x.db.store.after ws).updateSeq != x.db.store.updateSeq, x.closing⟩
  | announce (hwriting : x.writing = true) : Step x ⟨x.db.announce, false, x.closing⟩
  | markClosed : Step x ⟨x.db.markClosed, x.writing, x.closing + 1⟩
  | alert {n : Nat} (hclosing : x.closing = n + 1) : Step x ⟨x.db.alert, x.writing, n⟩

/-- The moments that may follow the creation of a database. -/
inductive Reachable : Moment → Prop where
  | create (name : String) : Reachable ⟨.create name, false, 0⟩
  | step {x y : Moment} (h : Reachable x) (hstep : x.Step y) : Reachable y

/-- No write and no closing is between its two steps. -/
structure AtRest (x : Moment) : Prop where
  writing : x.writing = false
  closing : x.closing = 0

/-! ## Calls -/

theorem write_steps {α : Type} (db : Database) (closing : Nat) (cancelled : Bool)
    {f : Store → Except Error α × Store} (hf : ∀ s, ∃ ws, (f s).2 = s.after ws) :
    Relation.ReflTransGen Step ⟨db, false, closing⟩ ⟨(db.write cancelled f).2, false, closing⟩ := by
  unfold write
  cases db.check cancelled with
  | error e => exact .refl
  | ok u =>
    obtain ⟨ws, hws⟩ := hf db.store
    have hcommit : Step ⟨db, false, closing⟩ ⟨db.commit (f db.store).2,
        (f db.store).2.updateSeq != db.store.updateSeq, closing⟩ := by
      rw [hws]
      exact .commit ws rfl
    dsimp only
    split
    · next hsame =>
      have hsilent : ((f db.store).2.updateSeq != db.store.updateSeq) = false := by simp [hsame]
      rw [hsilent] at hcommit
      exact .single hcommit
    · next hmoved =>
      have hmoved : ((f db.store).2.updateSeq != db.store.updateSeq) = true := by simp [hmoved]
      rw [hmoved] at hcommit
      exact .tail (.single hcommit) (.announce rfl)

theorem close_steps (x : Moment) :
    Relation.ReflTransGen Step x ⟨x.db.close, x.writing, x.closing⟩ :=
  .tail (.single .markClosed) (.alert rfl)

/-! ## Reachable moments -/

section
variable {x y : Moment}

theorem Step.event (h : x.Step y) : x.db.Event y.db := by
  cases h with
  | commit ws _ => exact .commit ws
  | announce _ => exact .announce
  | markClosed => exact .markClosed
  | alert _ => exact .alert

theorem Reachable.db (h : x.Reachable) : x.db.Reachable := by
  induction h with
  | create name => exact .create name
  | step _ hstep ih => exact ih.event hstep.event

theorem Reachable.steps (h : x.Reachable) (hsteps : Relation.ReflTransGen Step x y) :
    y.Reachable := by
  induction hsteps with
  | refl => exact h
  | tail _ hstep ih => exact ih.step hstep

/-- Unless a write is under way, the watch has the update sequence. -/
theorem Reachable.value (h : x.Reachable) (hfree : x.writing = false) :
    x.db.watch.value = x.db.store.updateSeq := by
  induction h with
  | create name => rfl
  | step _ hstep ih =>
    cases hstep with
    | commit ws hbefore =>
      have hsame : (_ != _) = false := hfree
      rw [bne_eq_false_iff_eq] at hsame
      exact (ih hbefore).trans hsame.symm
    | announce _ => rfl
    | markClosed => exact ih hfree
    | alert _ => exact ih hfree

theorem Step.version (h : x.Step y) : x.db.watch.version ≤ y.db.watch.version := by
  cases h with
  | commit ws _ => exact Nat.le_refl _
  | announce _ => exact Nat.le_succ _
  | markClosed => exact Nat.le_refl _
  | alert _ => exact Nat.le_succ _

/-! ## Observers -/

/-- For an observer that has seen a version of the watch and has read the log up to a sequence
number: unless the watch has moved since, the log goes no further or the write that made it longer
will announce it, and the database is open or the call that closes it will alert its observers. -/
structure Watched (x : Moment) (seen cursor : Nat) : Prop where
  le : seen ≤ x.db.watch.version
  log : seen < x.db.watch.version ∨ x.db.store.updateSeq ≤ cursor ∨ x.writing = true
  closed : seen < x.db.watch.version ∨ x.db.closed = false ∨ 0 < x.closing

variable {seen cursor : Nat}

/-- Whatever happens next, an observer is told or will be. -/
theorem Watched.step (h : x.Watched seen cursor) (hstep : x.Step y) : y.Watched seen cursor := by
  obtain ⟨hseen, hlog, hclosed⟩ := h
  cases hstep with
  | commit ws hfree =>
    refine ⟨hseen, ?_, hclosed⟩
    rcases hlog with hmoved | hread | hwriting
    · exact .inl hmoved
    · by_cases hsame : (x.db.store.after ws).updateSeq = x.db.store.updateSeq
      · exact .inr (.inl (le_of_eq_of_le hsame hread))
      · exact .inr (.inr (bne_iff_ne.2 hsame))
    · rw [hfree] at hwriting
      cases hwriting
  | announce _ =>
    have hmoved : seen < x.db.watch.version + 1 := Nat.lt_succ_of_le hseen
    exact ⟨Nat.le_succ_of_le hseen, .inl hmoved, .inl hmoved⟩
  | markClosed => exact ⟨hseen, hlog, .inr (.inr (Nat.succ_pos _))⟩
  | alert _ =>
    have hmoved : seen < x.db.watch.version + 1 := Nat.lt_succ_of_le hseen
    exact ⟨Nat.le_succ_of_le hseen, .inl hmoved, .inl hmoved⟩

/-- At rest, an observer that has something to learn has a version of the watch that it has not
seen. -/
theorem Watched.lt_version (h : x.Watched seen cursor) (hrest : x.AtRest)
    (hnews : cursor < x.db.store.updateSeq ∨ x.db.closed = true) :
    seen < x.db.watch.version := by
  rcases hnews with hlonger | hgone
  · rcases h.log with hmoved | hread | hwriting
    · exact hmoved
    · exact absurd hread (Nat.not_le_of_lt hlonger)
    · rw [hrest.writing] at hwriting
      cases hwriting
  · rcases h.closed with hmoved | hopen | hclosing
    · exact hmoved
    · rw [hgone] at hopen
      cases hopen
    · rw [hrest.closing] at hclosing
      exact absurd hclosing (Nat.lt_irrefl 0)

end

end Moment

end DocumentDb.Database
