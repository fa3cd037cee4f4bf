import DocumentDb.Proofs.Database.Moments
import DocumentDb.Proofs.Feed.Slice

/-! # No wake-up is lost

A feed remembers the version of the watch before it reads the log, and it parks only if it has read
nothing. A write or a closing that comes after the read therefore moves the watch away from the
version that the feed remembers, even if it comes before the feed parks.

* `Feed.Progress`, `Feed.Watches`: a feed beside a database of which calls may be under way, with
  reading and parking as separate steps.
* `Feed.Watches.subscribe_call`, `Feed.Watches.poll`: the calls of the program are made of these
  steps.
* `Feed.Progress.Covered`, `Feed.Watches.covered`: the invariant, and that every run keeps it.
* `Feed.no_wakeup_lost`: what follows at rest.
-/

namespace DocumentDb.Feed

open Database (Moment)

/-- How far a feed has come. -/
inductive Progress where
  /-- It watches its database, and where it begins has not been found yet. -/
  | subscribed (seen : Nat)
  | following (f : Feed)
  /-- It has read nothing and is about to park. -/
  | dry (f : Feed)

/-- The runs of a feed beside a database of which calls may be under way. A read takes the lock, so
it waits for a write to end, unless the feed is cancelled while it waits. -/
inductive Watches (q : ChangesQuery) : Moment → Progress → Prop where
  | subscribe {x : Moment} (hx : x.Reachable) : Watches q x (.subscribed x.db.watch.version)
  | resolve {x : Moment} {seen start : Nat} {cancelled : Bool} (now : Nat)
      (h : Watches q x (.subscribed seen)) (hfree : q.since = .now → x.writing = false)
      (hstart : resolve x.db cancelled q.since = .ok start) :
      Watches q x (.following (Feed.start q seen start now))
  /-- Any step but that of a feed that has marked and reads. -/
  | act {x : Moment} {f g : Feed} {es : List ChangeEntry} (cancelled : Bool) (now : Nat)
      (h : Watches q x (.following f)) (hstep : f.Step x.db cancelled now es g)
      (hphase : f.phase = .marked → g.phase = .marked) : Watches q x (.following g)
  | refuse {x : Moment} {f : Feed} {e : Error} (cancelled : Bool) (h : Watches q x (.following f))
      (hphase : f.phase = .marked) (hfree : cancelled = false → x.writing = false)
      (hread : x.db.read cancelled f.batch = .error e) : Watches q x (.following f.finish)
  /-- A read with which a feed does not have to wait. -/
  | find {x : Moment} {f : Feed} {entries : List ChangeEntry} (now : Nat)
      (h : Watches q x (.following f)) (hphase : f.phase = .marked) (hfree : x.writing = false)
      (hread : x.db.read false f.batch = .ok entries) (hgo : entries ≠ [] ∨ f.kind = .normal) :
      Watches q x (.following (f.receive now entries))
  | miss {x : Moment} {f : Feed} (h : Watches q x (.following f)) (hphase : f.phase = .marked)
      (hfree : x.writing = false) (hread : x.db.read false f.batch = .ok [])
      (hkind : f.kind ≠ .normal) : Watches q x (.dry f)
  | park {x : Moment} {f : Feed} (h : Watches q x (.dry f)) : Watches q x (.following f.park)
  | event {x y : Moment} {p : Progress} (h : Watches q x p) (hstep : x.Step y) : Watches q y p

section
variable {q : ChangesQuery} {x y : Moment} {f g : Feed} {es : List ChangeEntry} {cancelled : Bool}
  {now : Nat} {p : Progress}

/-! ## Calls -/

theorem Watches.subscribe_call (hx : x.Reachable) (hfree : x.writing = false)
    (h : Feed.subscribe x.db cancelled q now = .ok f) : Watches q x (.following f) := by
  unfold Feed.subscribe at h
  cases hstart : Feed.resolve x.db cancelled q.since with
  | error e =>
    rw [hstart] at h
    cases h
  | ok start =>
    rw [hstart] at h
    cases h
    exact .resolve now (.subscribe hx) (fun _ => hfree) hstart

theorem Watches.events (h : Watches q x p) (hsteps : Relation.ReflTransGen Moment.Step x y) :
    Watches q y p := by
  induction hsteps with
  | refl => exact h
  | tail _ hstep ih => exact ih.event hstep

theorem receive_nil (hkind : f.kind ≠ .normal) : f.receive now [] = f.park := if_neg hkind

/-- A feed that reads and parks at once reads and then parks. -/
theorem Watches.read (h : Watches q x (.following f)) (hfree : x.writing = false)
    {entries : List ChangeEntry} (hphase : f.phase = .marked)
    (hread : x.db.read cancelled f.batch = .ok entries) :
    Watches q x (.following (f.receive now entries)) := by
  have hlive : cancelled = false := (Database.read_eq_ok.1 hread).1
  rw [hlive] at hread
  by_cases hgo : entries ≠ [] ∨ f.kind = .normal
  · exact h.find now hphase hfree hread hgo
  · obtain ⟨hnil, hkind⟩ := not_or.1 hgo
    rw [not_not.1 hnil] at hread ⊢
    rw [receive_nil hkind]
    exact (h.miss hphase hfree hread hkind).park

theorem Watches.step (h : Watches q x (.following f)) (hfree : x.writing = false)
    (hstep : f.Step x.db cancelled now es g) : Watches q x (.following g) := by
  cases hstep with
  | read hphase hread => exact h.read hfree hphase hread
  | fail hphase hread => exact h.refuse cancelled hphase (fun _ => hfree) hread
  | hand hbuffer => exact h.act cancelled now (.hand hbuffer) id
  | mark hbuffer hidle hspent => exact h.act cancelled now (.mark hbuffer hidle hspent) fun _ => rfl
  | stop hbuffer hidle hspent =>
    exact h.act cancelled now (.stop hbuffer hidle hspent) fun hm => by simp [hm] at hidle
  | cancel hparked hcancelled =>
    exact h.act cancelled now (.cancel hparked hcancelled) fun hm => by simp [hm] at hparked
  | expire hparked hexpired =>
    exact h.act cancelled now (.expire hparked hexpired) fun hm => by simp [hm] at hparked
  | lose hparked halerted hclosed =>
    exact h.act cancelled now (.lose hparked halerted hclosed) fun hm => by simp [hm] at hparked
  | wake hparked halerted hopen =>
    exact h.act cancelled now (.wake hparked halerted hopen) fun hm => by simp [hm] at hparked

theorem Watches.steps (h : Watches q x (.following f)) (hfree : x.writing = false)
    (hsteps : f.Steps x.db cancelled now es g) : Watches q x (.following g) := by
  induction hsteps with
  | refl => exact h
  | tail _ hstep ih => exact ih.step hfree hstep

theorem Watches.poll (h : Watches q x (.following f)) (hfree : x.writing = false)
    (hmarked : f.phase ≠ .marked) (cancelled : Bool) (now : Nat) :
    Watches q x (.following (f.poll x.db cancelled now).2) :=
  h.steps hfree (poll_steps x.db cancelled now hmarked).1

/-! ## The invariant -/

/-- What a feed has seen is not ahead of the watch, it reads only if it may read something, and a
feed that waits is told of what it has to know. -/
structure Heeds (f : Feed) (x : Moment) : Prop where
  seen : f.seen ≤ x.db.watch.version
  marked : f.phase = .marked → f.remaining ≠ some 0
  parked : f.phase = .parked → x.Watched f.seen f.cursor

/-- What holds of a feed however far it has come. -/
def Progress.Covered (x : Moment) : Progress → Prop
  | .subscribed seen => seen ≤ x.db.watch.version
  | .following f => f.Heeds x
  | .dry f => x.Watched f.seen f.cursor

theorem remaining_of_not_spent (h : f.spent = false) : f.remaining ≠ some 0 := by
  intro hzero
  simp [spent, hzero] at h

/-- A feed that may read something and reads nothing has reached the end of the log. -/
theorem updateSeq_le_of_batch {s : Store} (hnil : f.batch s = []) (hmore : f.remaining ≠ some 0) :
    s.updateSeq ≤ f.cursor := by
  have hdrop : s.log.drop f.cursor = [] := by
    unfold batch Store.changesSince Store.atMost at hnil
    cases hlimit : f.remaining with
    | none => simpa [hlimit] using hnil
    | some n =>
      rw [hlimit] at hnil hmore
      exact (List.take_eq_nil_iff.1 hnil).resolve_left fun hzero => hmore (by rw [hzero])
  exact List.drop_eq_nil_iff.1 hdrop

theorem Heeds.of_idle (hseen : f.seen ≤ x.db.watch.version)
    (hphase : f.phase = .idle ∨ f.phase = .done) : f.Heeds x where
  seen := hseen
  marked hm := by simp [hm] at hphase
  parked hp := by simp [hp] at hphase

theorem phase_receive {entries : List ChangeEntry} (hgo : entries ≠ [] ∨ f.kind = .normal) :
    (f.receive now entries).phase = .idle ∨ (f.receive now entries).phase = .done := by
  unfold receive
  cases hlast : entries.getLast? with
  | none =>
    have hkind : f.kind = .normal :=
      hgo.resolve_left (not_not.2 (List.getLast?_eq_none_iff.1 hlast))
    dsimp only
    rw [if_pos hkind]
    exact .inr rfl
  | some last =>
    dsimp only
    split
    · exact .inl rfl
    · exact .inr rfl

theorem seen_receive (entries : List ChangeEntry) : (f.receive now entries).seen = f.seen := by
  unfold receive
  split
  · rfl
  · split <;> rfl

theorem Heeds.act (h : f.Heeds x) (hstep : f.Step x.db cancelled now es g)
    (hphase : f.phase = .marked → g.phase = .marked) : g.Heeds x := by
  cases hstep with
  | hand hbuffer => exact ⟨h.seen, h.marked, h.parked⟩
  | mark hbuffer hidle hspent =>
    have hmore : f.remaining ≠ some 0 := remaining_of_not_spent hspent
    exact ⟨Nat.le_refl _, fun _ => hmore, fun hp => by cases hp⟩
  | read hmarked hread => exact absurd (hphase hmarked) (rests_receive f now _).phase
  | fail hmarked hread => exact absurd (hphase hmarked) (rests_finish f).phase
  | wake _ _ _ => exact .of_idle h.seen (.inl rfl)
  | stop | cancel | expire | lose => exact .of_idle h.seen (.inr rfl)

theorem Progress.Covered.event (h : p.Covered x) (hstep : x.Step y) : p.Covered y := by
  cases p with
  | subscribed seen => exact le_trans h hstep.version
  | following f =>
    exact ⟨le_trans h.seen hstep.version, h.marked, fun hp => (h.parked hp).step hstep⟩
  | dry f => exact Moment.Watched.step h hstep

/-- A feed that reads nothing from an open database is told of all that comes after the read. -/
theorem Heeds.miss (h : f.Heeds x) (hphase : f.phase = .marked)
    (hread : x.db.read false f.batch = .ok []) : x.Watched f.seen f.cursor := by
  obtain ⟨-, hopen, hnil⟩ := Database.read_eq_ok.1 hread
  exact ⟨h.seen, .inr (.inl (updateSeq_le_of_batch hnil (h.marked hphase))), .inr (.inl hopen)⟩

theorem Watches.covered (h : Watches q x p) : p.Covered x := by
  induction h with
  | subscribe _ => exact Nat.le_refl _
  | resolve now _ _ _ ih => exact .of_idle ih (.inl rfl)
  | act cancelled now _ hstep hphase ih => exact ih.act hstep hphase
  | refuse cancelled _ _ _ _ ih => exact .of_idle ih.seen (.inr rfl)
  | find now _ _ _ _ hgo ih =>
    exact .of_idle (by rw [seen_receive]; exact ih.seen) (phase_receive hgo)
  | miss _ hphase _ hread _ ih => exact ih.miss hphase hread
  | park _ ih => exact ⟨Moment.Watched.le ih, (by intro hm; cases hm), fun _ => ih⟩
  | event _ hstep ih => exact ih.event hstep

end

/-- At every moment that may follow the creation of a database, while no write and no closing is
between its two steps: the watch has the update sequence, and a feed that is parked while the log
has an entry after its cursor, or while the database is destroyed, has not seen the last change of
the watch. -/
theorem no_wakeup_lost {x : Moment} (hx : x.Reachable) (hrest : x.AtRest) :
    x.db.watch.value = x.db.store.updateSeq ∧
    ∀ q f, Watches q x (.following f) → f.phase = .parked →
      (∃ e ∈ x.db.store.log, f.cursor < e.seq) ∨ x.db.closed = true →
      f.alerted x.db.watch = true := by
  refine ⟨hx.value hrest.writing, fun q f h hparked hnews => ?_⟩
  have hnews : f.cursor < x.db.store.updateSeq ∨ x.db.closed = true := by
    refine hnews.imp_left ?_
    rintro ⟨e, he, hlt⟩
    exact lt_of_lt_of_le hlt (hx.db.logged.seq_le he)
  have hmoved : f.seen < x.db.watch.version :=
    (h.covered.parked hparked).lt_version hrest hnews
  exact bne_iff_ne.2 (Nat.ne_of_gt hmoved)

/-- A long poll reads the empty log, a document is written, and only then the feed parks. -/
theorem alerted_though_parked_late :
    let q : ChangesQuery := ⟨.seq 0, .longpoll, none, none⟩
    let w : Store.Write := .graft "a" [⟨1, "r"⟩] false .emptyObject
    let x : Moment := ⟨((Database.create "d").write false fun s => w.run s).2, false, 0⟩
    x.Reachable ∧ x.AtRest ∧ ∃ f, Watches q x (.following f) ∧ f.phase = .parked ∧
      (∃ e ∈ x.db.store.log, f.cursor < e.seq) ∧ f.alerted x.db.watch = true := by
  intro q w x
  let fresh : Moment := ⟨.create "d", false, 0⟩
  have hfresh : fresh.Reachable := .create "d"
  have hwrite : Relation.ReflTransGen Moment.Step fresh x :=
    Moment.write_steps (.create "d") 0 false fun _ => ⟨[w], rfl⟩
  have hx : x.Reachable := hfresh.steps hwrite
  have hrest : x.AtRest := ⟨rfl, rfl⟩
  have hopened : Feed.subscribe fresh.db false q 0 = .ok (Feed.start q 0 0 0) := rfl
  have hstarted := Watches.subscribe_call hfresh rfl hopened
  have hmarked := hstarted.act false 0 (.mark rfl rfl rfl) fun _ => rfl
  have hdry := hmarked.miss rfl rfl rfl (by decide)
  have hparked := (hdry.events hwrite).park
  have hnews : ∃ e ∈ x.db.store.log, 0 < e.seq :=
    ⟨⟨1, "a", ⟨1, "r"⟩, false⟩, List.mem_singleton.2 rfl, Nat.one_pos⟩
  exact ⟨hx, hrest, _, hparked, rfl, hnews,
    (no_wakeup_lost hx hrest).2 q _ hparked rfl (.inl hnews)⟩

end DocumentDb.Feed
