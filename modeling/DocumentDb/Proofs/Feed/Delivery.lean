import DocumentDb.Proofs.Feed.Slice
import DocumentDb.Proofs.Memory.Events

/-! # What a feed delivers

A feed stays with the database on which it was opened, also when this database is destroyed and its
name is given to another one. What it has delivered are consecutive entries of the log of this
database, no more than its limit, and unless it is continuous they all come from one read.

* `Feed.Course`: a feed among the databases of a client, with the batches that it has read.
  `Feed.Course.openFeed`, `Feed.Course.poll`, `Feed.Course.drain`: the calls of a client lead from
  course to course.
* `Feed.Bounded`, `Feed.Run.bounded`: the limit.
* `Feed.Single`, `Feed.Course.single`: the single read.
* `Feed.delivered_exactly`: what any feed has delivered at any time.
-/

namespace DocumentDb.Feed

/-! ## The course of a feed -/

/-- The batch that a feed reads in its next step, if this step is a read and succeeds. -/
def reading (f : Feed) (db : Database) (cancelled : Bool) : List (List ChangeEntry) :=
  if f.phase = .marked then (db.read cancelled f.batch).toOption.toList else []

/-- A feed from its subscription on, and the batches that it has read, among all that happens to the
databases of a client. It looks for its database by name when it subscribes and by position ever
after. -/
inductive Course (q : ChangesQuery) (i : Nat) :
    Memory → Stage → List (List ChangeEntry) → Prop where
  | subscribe {m : Memory} {name : String} {db : Database} (hm : m.Reachable)
      (hfound : m.lookup name = .ok (i, db)) : Course q i m (.subscribed db.watch.version) []
  | resolve {m : Memory} {db : Database} {seen start : Nat} {cancelled : Bool} (now : Nat)
      (h : Course q i m (.subscribed seen) []) (hdb : m.databases[i]? = some db)
      (hstart : Feed.resolve db cancelled q.since = .ok start) :
      Course q i m (.following start (Feed.start q seen start now) []) []
  | step {m : Memory} {db : Database} {start : Nat} {f g : Feed} {got es : List ChangeEntry}
      {reads : List (List ChangeEntry)} (cancelled : Bool) (now : Nat)
      (h : Course q i m (.following start f got) reads) (hdb : m.databases[i]? = some db)
      (hstep : f.Step db cancelled now es g) :
      Course q i m (.following start g (got ++ es)) (reads ++ f.reading db cancelled)
  | event {m m' : Memory} {st : Stage} {reads : List (List ChangeEntry)}
      (h : Course q i m st reads) (e : m.Event m') : Course q i m' st reads

section
variable {q : ChangesQuery} {i start now : Nat} {m m' : Memory} {db : Database} {cancelled : Bool}
  {st : Stage} {f g : Feed} {got es : List ChangeEntry} {reads : List (List ChangeEntry)}

/-- What happens on the course of a feed happens to its database. -/
theorem Course.run (h : Course q i m st reads) :
    ∃ db, m.databases[i]? = some db ∧ Run q db st := by
  induction h with
  | subscribe hm hfound =>
    obtain ⟨-, hdb⟩ := Memory.lookup_eq_ok.1 hfound
    exact ⟨_, hdb, .subscribe (hm.database_at hdb)⟩
  | resolve now _ hdb hstart ih =>
    obtain ⟨db, hdb', hrun⟩ := ih
    rw [hdb] at hdb'
    cases hdb'
    exact ⟨_, hdb, .resolve now hrun hstart⟩
  | step cancelled now _ hdb hstep ih =>
    obtain ⟨db, hdb', hrun⟩ := ih
    rw [hdb] at hdb'
    cases hdb'
    exact ⟨_, hdb, .step cancelled now hrun hstep⟩
  | event _ e ih =>
    obtain ⟨db, hdb, hrun⟩ := ih
    obtain ⟨db', hdb', rfl | hevent⟩ := e.database_at hdb
    · exact ⟨_, hdb', hrun⟩
    · exact ⟨db', hdb', .event hrun hevent⟩

theorem Course.events (h : Course q i m st reads)
    (hevents : Relation.ReflTransGen Memory.Event m m') : Course q i m' st reads := by
  induction hevents with
  | refl => exact h
  | tail _ e ih => exact ih.event e

theorem Course.steps (h : Course q i m (.following start f got) reads)
    (hdb : m.databases[i]? = some db) (hsteps : f.Steps db cancelled now es g) :
    ∃ reads', Course q i m (.following start g (got ++ es)) (reads ++ reads') := by
  induction hsteps with
  | refl =>
    refine ⟨[], ?_⟩
    rw [List.append_nil, List.append_nil]
    exact h
  | @tail g _ _ _ _ hstep ih =>
    obtain ⟨reads', hcourse⟩ := ih
    refine ⟨reads' ++ g.reading db cancelled, ?_⟩
    rw [← List.append_assoc, ← List.append_assoc]
    exact hcourse.step cancelled now hdb hstep

/-! ## Calls of a client -/

theorem subscribe_eq_ok (h : Feed.subscribe db cancelled q now = .ok f) :
    ∃ start, Feed.resolve db cancelled q.since = .ok start ∧
      f = Feed.start q db.watch.version start now := by
  unfold Feed.subscribe at h
  cases hstart : Feed.resolve db cancelled q.since with
  | error e =>
    rw [hstart] at h
    cases h
  | ok start =>
    rw [hstart] at h
    cases h
    exact ⟨start, rfl, rfl⟩

theorem openFeed_eq_ok {name : String} {o : Options} {feed : OpenFeed}
    (h : ((Memory.openFeed cancelled now name o).outcome m).1 = .ok feed) :
    ∃ q db, ChangesQuery.ofOptions o = .ok q ∧ m.lookup name = .ok (feed.source, db) ∧
      Feed.subscribe db cancelled q now = .ok feed.feed := by
  unfold Memory.openFeed at h
  rw [Call.outcome_bind, Call.outcome_ofExcept] at h
  cases hq : ChangesQuery.ofOptions o with
  | error e =>
    rw [hq] at h
    cases h
  | ok q =>
    rw [hq] at h
    dsimp only at h
    rw [Call.outcome_look] at h
    cases hfound : m.lookup name with
    | error e =>
      rw [hfound] at h
      cases h
    | ok found =>
      obtain ⟨i, db⟩ := found
      rw [hfound] at h
      cases hfeed : Feed.subscribe db cancelled q now with
      | error e => simp [bind, Except.bind, hfeed] at h
      | ok f =>
        simp only [bind, Except.bind, pure, Except.pure, hfeed, Except.ok.injEq] at h
        subst h
        exact ⟨q, db, rfl, rfl, hfeed⟩

theorem Course.openFeed {name : String} {o : Options} {feed : OpenFeed} (hm : m.Reachable)
    (h : ((Memory.openFeed cancelled now name o).outcome m).1 = .ok feed) :
    ∃ q start, ChangesQuery.ofOptions o = .ok q ∧
      Course q feed.source m (.following start feed.feed []) [] := by
  obtain ⟨q, db, hq, hfound, hfeed⟩ := openFeed_eq_ok h
  obtain ⟨start, hstart, hstarted⟩ := subscribe_eq_ok hfeed
  obtain ⟨-, hdb⟩ := Memory.lookup_eq_ok.1 hfound
  refine ⟨q, start, hq, ?_⟩
  rw [hstarted]
  exact .resolve now (.subscribe hm hfound) hdb hstart

theorem source_eq {feed : OpenFeed} (hdb : m.databases[feed.source]? = some db) :
    m.source feed = db := by
  unfold Memory.source
  rw [hdb]
  rfl

theorem Course.poll {feed : OpenFeed}
    (h : Course q feed.source m (.following start feed.feed got) reads)
    (hmarked : feed.feed.phase ≠ .marked) (cancelled : Bool) (now : Nat) :
    let r := m.poll cancelled now feed
    (∃ reads', Course q feed.source m (.following start r.2.feed (got ++ r.1.entries))
      (reads ++ reads')) ∧ r.2.source = feed.source ∧ r.2.feed.phase ≠ .marked := by
  obtain ⟨db, hdb, -⟩ := h.run
  obtain ⟨hsteps, hphase, -⟩ := poll_steps db cancelled now hmarked
  unfold Memory.poll
  rw [source_eq hdb]
  exact ⟨h.steps hdb hsteps, rfl, hphase⟩

theorem Course.drain {feed : OpenFeed}
    (h : Course q feed.source m (.following start feed.feed got) reads)
    (hmarked : feed.feed.phase ≠ .marked) (cancelled : Bool) (now : Nat) :
    let r := m.drain cancelled now feed
    (∃ reads', Course q feed.source m (.following start r.2.2.feed (got ++ r.1))
      (reads ++ reads')) ∧ r.2.2.source = feed.source ∧ r.2.2.feed.phase ≠ .marked := by
  obtain ⟨db, hdb, -⟩ := h.run
  obtain ⟨hsteps, hphase, -⟩ := drain_steps db cancelled now hmarked
  unfold Memory.drain
  rw [source_eq hdb]
  exact ⟨h.steps hdb hsteps, rfl, hphase⟩

/-! ## The limit -/

/-- What a feed has handed out and what it still holds stay within its limit, and it keeps account
of what is left of it. -/
structure Bounded (q : ChangesQuery) (f : Feed) (got : List ChangeEntry) : Prop where
  kind : f.kind = q.feed
  remaining : f.remaining = q.limit.map (· - (got ++ f.buffer).length)
  within : ∀ n, q.limit = some n → (got ++ f.buffer).length ≤ n

theorem length_batch_le {n : Nat} (h : f.remaining = some n) (s : Store) :
    (f.batch s).length ≤ n := by
  have hlen : (f.batch s).length = min n (s.log.drop f.cursor).length := by
    unfold batch Store.changesSince
    rw [h]
    exact List.length_take
  omega

theorem Bounded.move (h : Bounded q f got) (hkind : g.kind = f.kind)
    (hremaining : g.remaining = f.remaining) (hbuffer : g.buffer = f.buffer) :
    Bounded q g got := by
  constructor
  · rw [hkind, h.kind]
  · rw [hremaining, hbuffer, h.remaining]
  · rw [hbuffer]
    exact h.within

theorem Bounded.receive (h : Bounded q f got) (s : Store) (now : Nat) :
    Bounded q (f.receive now (f.batch s)) got := by
  unfold Feed.receive
  cases hlast : (f.batch s).getLast? with
  | none =>
    dsimp only
    split
    · exact h.move rfl rfl rfl
    · exact h.move rfl rfl rfl
  | some last =>
    have hlen : (got ++ (f.buffer ++ f.batch s)).length =
        (got ++ f.buffer).length + (f.batch s).length := by
      simp only [List.length_append]
      omega
    constructor
    · exact h.kind
    · dsimp only
      rw [h.remaining, Option.map_map, hlen]
      congr 1
      funext n
      simp only [Function.comp_apply]
      omega
    · intro n hn
      have hremaining : f.remaining = some (n - (got ++ f.buffer).length) := by
        rw [h.remaining, hn]
        rfl
      have hbatch := length_batch_le hremaining s
      have hwithin := h.within n hn
      dsimp only
      omega

theorem Bounded.step (h : Bounded q f got) (hstep : f.Step db cancelled now es g) :
    Bounded q g (got ++ es) := by
  cases hstep with
  | hand hbuffer =>
    constructor
    · exact h.kind
    · dsimp only
      rw [handed_append hbuffer]
      exact h.remaining
    · dsimp only
      rw [handed_append hbuffer]
      exact h.within
  | read hphase hread =>
    obtain ⟨-, -, hentries⟩ := Database.read_eq_ok.1 hread
    rw [List.append_nil, ← hentries]
    exact h.receive db.store now
  -- All other steps leave the buffer and what remains of the limit alone.
  | stop | mark | fail | cancel | expire | lose | wake =>
    rw [List.append_nil]
    exact h.move rfl rfl rfl

theorem Run.bounded (h : Run q db (.following start f got)) : Bounded q f got := by
  generalize hst : Stage.following start f got = st at h
  induction h generalizing f got with
  | subscribe _ => cases hst
  | resolve now _ _ _ =>
    cases hst
    refine ⟨rfl, ?_, fun n _ => Nat.zero_le n⟩
    show q.limit = q.limit.map (· - 0)
    simp
  | step _ _ _ hstep ih =>
    cases hst
    exact (ih rfl).step hstep
  | event _ _ ih => exact ih hst

/-! ## The single read -/

/-- Either no read has found anything, or the last one has, and then the feed is done and hands out
what this read has found. -/
def Single (f : Feed) (got : List ChangeEntry) (reads : List (List ChangeEntry)) : Prop :=
  (got ++ f.buffer = [] ∧ ∀ b ∈ reads, b = []) ∨
  (f.phase = .done ∧ ∃ before batch, reads = before ++ [batch] ∧ (∀ b ∈ before, b = []) ∧
    got ++ f.buffer = batch)

theorem reading_of_ne (hphase : f.phase ≠ .marked) : f.reading db cancelled = [] := if_neg hphase

theorem reading_of_error {e : Error} (hread : db.read cancelled f.batch = .error e) :
    f.reading db cancelled = [] := by
  unfold reading
  rw [hread]
  split <;> rfl

theorem reading_of_ok {entries : List ChangeEntry} (hphase : f.phase = .marked)
    (hread : db.read cancelled f.batch = .ok entries) : f.reading db cancelled = [entries] := by
  unfold reading
  rw [if_pos hphase, hread]
  rfl

theorem Single.move (h : Single f got reads) (hbuffer : g.buffer = f.buffer)
    (hphase : f.phase ≠ .done) : Single g got reads := by
  rcases h with ⟨hnone, hreads⟩ | ⟨hdone, -⟩
  · rw [← hbuffer] at hnone
    exact .inl ⟨hnone, hreads⟩
  · exact absurd hdone hphase

theorem Single.receive (h : Single f got reads) (hphase : f.phase = .marked)
    (hkind : f.kind ≠ .continuous) (now : Nat) (entries : List ChangeEntry) :
    Single (f.receive now entries) got (reads ++ [entries]) := by
  obtain ⟨hnone, hreads⟩ : got ++ f.buffer = [] ∧ ∀ b ∈ reads, b = [] := by
    rcases h with h | ⟨hdone, -⟩
    · exact h
    · rw [hdone] at hphase
      cases hphase
  unfold Feed.receive
  cases hlast : entries.getLast? with
  | none =>
    rw [List.getLast?_eq_none_iff] at hlast
    subst hlast
    have hempty : ∀ b ∈ reads ++ [[]], b = [] := by
      intro b hb
      rcases List.mem_append.1 hb with hb | hb
      · exact hreads b hb
      · exact List.mem_singleton.1 hb
    left
    dsimp only
    split
    · exact ⟨hnone, hempty⟩
    · exact ⟨hnone, hempty⟩
  | some last =>
    right
    refine ⟨if_neg hkind, reads, entries, rfl, hreads, ?_⟩
    show got ++ (f.buffer ++ entries) = entries
    rw [← List.append_assoc, hnone, List.nil_append]

theorem Single.step (h : Single f got reads) (hkind : f.kind ≠ .continuous)
    (hstep : f.Step db cancelled now es g) :
    Single g (got ++ es) (reads ++ f.reading db cancelled) := by
  cases hstep with
  | hand hbuffer =>
    -- With something left to hand out, the read that has found it is over.
    rcases h with ⟨hnone, -⟩ | ⟨hdone, hbatch⟩
    · rw [hbuffer] at hnone
      simp at hnone
    · rw [reading_of_ne (by rw [hdone]; decide), List.append_nil]
      refine .inr ⟨hdone, ?_⟩
      dsimp only
      rw [handed_append hbuffer]
      exact hbatch
  | read hphase hread =>
    rw [reading_of_ok hphase hread, List.append_nil]
    exact h.receive hphase hkind now _
  | fail hphase hread =>
    rw [reading_of_error hread, List.append_nil, List.append_nil]
    exact h.move rfl (by rw [hphase]; decide)
  | stop _ hphase _ | mark _ hphase _ | cancel hphase _ | expire hphase _ | lose hphase _ _
  | wake hphase _ _ =>
    rw [reading_of_ne (by rw [hphase]; decide), List.append_nil, List.append_nil]
    exact h.move rfl (by rw [hphase]; decide)

theorem Course.single (h : Course q i m (.following start f got) reads)
    (hq : q.feed ≠ .continuous) : Single f got reads := by
  generalize hst : Stage.following start f got = st at h
  induction h generalizing f got with
  | subscribe _ _ => cases hst
  | resolve now _ _ _ _ =>
    cases hst
    exact .inl ⟨rfl, fun b hb => by cases hb⟩
  | step cancelled now h hdb hstep ih =>
    cases hst
    obtain ⟨_, _, hrun⟩ := h.run
    exact (ih rfl).step (by rw [hrun.bounded.kind]; exact hq) hstep
  | event _ _ ih => exact ih hst

/-! ## Delivery -/

theorem Follows.seqs {s : Store} (h : f.Follows s start got) (hl : s.Logged) :
    got.map (·.seq) = List.range' (start + 1) got.length := by
  have hpiece := h.handed
  apply List.ext_getElem
  · simp
  · intro k hk hk'
    have hlt : k < got.length := by simpa using hk
    have hlog : start + k < s.log.length := by
      have hle := hpiece.length_le
      rw [List.length_drop] at hle
      omega
    rw [List.getElem_map, List.getElem_range', hpiece.getElem hlt, List.getElem_drop,
      hl.seq_getElem hlog]
    omega

end

/-- Whatever happens to the databases of a client, and whenever a feed of one of them takes its
steps, gets its time-outs or is cancelled: the entries that it has handed out are the entries from
`start + 1` on, in order, of the log of the database on which it was opened; there are no more of
them than its limit; and unless the feed is continuous, all of them were found by its last read,
those before having found nothing. -/
theorem delivered_exactly {q : ChangesQuery} {i start : Nat} {m : Memory} {f : Feed}
    {got : List ChangeEntry} {reads : List (List ChangeEntry)}
    (h : Course q i m (.following start f got) reads) :
    ∃ db, m.databases[i]? = some db ∧
      got = (db.store.log.drop start).take got.length ∧
      got.map (·.seq) = List.range' (start + 1) got.length ∧
      (∀ n, q.limit = some n → got.length ≤ n) ∧
      (q.feed ≠ .continuous → got ≠ [] →
        ∃ before batch, reads = before ++ [batch] ∧ (∀ b ∈ before, b = []) ∧ got <+: batch) := by
  obtain ⟨db, hdb, hrun⟩ := h.run
  have hfollows := hrun.follows
  refine ⟨db, hdb, List.prefix_iff_eq_take.1 hfollows.handed, hfollows.seqs hrun.reachable.logged, ?_, ?_⟩
  · intro n hn
    have hwithin := hrun.bounded.within n hn
    rw [List.length_append] at hwithin
    omega
  · intro hq hgot
    rcases h.single hq with ⟨hnone, -⟩ | ⟨-, before, batch, hreads, hbefore, hbatch⟩
    · exact absurd (List.append_eq_nil_iff.1 hnone).1 hgot
    · exact ⟨before, batch, hreads, hbefore, f.buffer, hbatch⟩

/-- A database with two changes, alone in its memory. -/
def twoChanges : Memory where
  databases := [((Database.create "d").commit (Store.empty.after
    [.graft "a" [⟨1, "x"⟩] false .emptyObject, .graft "b" [⟨1, "y"⟩] true .null])).announce]
  catalog := SortedMap.empty.insert "d" 0
  ids := .initial

theorem twoChanges_reachable : twoChanges.Reachable := by
  have hcreate := (Memory.Reachable.empty .initial).event (@Memory.Event.create _ "d" rfl)
  have hcommit := hcreate.event (.database (i := 0) rfl (.commit
    [.graft "a" [⟨1, "x"⟩] false .emptyObject, .graft "b" [⟨1, "y"⟩] true .null]))
  exact hcommit.event (.database (i := 0) rfl .announce)

/-- A long poll for one change reads, then its database is destroyed and another one gets the name,
and then the change is handed out. -/
theorem delivered_after_replacement :
    let q : ChangesQuery := ⟨.seq 0, .longpoll, none, some 1⟩
    let got : List ChangeEntry := [⟨1, "a", ⟨1, "x"⟩, false⟩]
    ∃ m f reads, m.catalog.get? "d" = some 1 ∧ Course q 0 m (.following 0 f got) reads ∧
      ∃ db, m.databases[0]? = some db ∧
        got = (db.store.log.drop 0).take got.length ∧
        got.map (·.seq) = List.range' (0 + 1) got.length ∧
        (∀ n, q.limit = some n → got.length ≤ n) ∧
        (q.feed ≠ .continuous → got ≠ [] →
          ∃ before batch, reads = before ++ [batch] ∧ (∀ b ∈ before, b = []) ∧
            got <+: batch) := by
  intro q got
  have hsubscribed : Course q 0 twoChanges (.subscribed 1) [] :=
    .subscribe twoChanges_reachable (show twoChanges.lookup "d" = .ok (0, _) from rfl)
  have hstarted := hsubscribed.resolve 0 rfl (show Feed.resolve _ false _ = .ok 0 from rfl)
  have hmarked := hstarted.step false 0 rfl (.mark rfl rfl rfl)
  have hread := hmarked.step false 0 rfl (.read rfl rfl)
  have hclosed := hread.event (.database (i := 0) rfl .markClosed)
  have hreleased := hclosed.event (.release "d")
  have hreplaced := hreleased.event (@Memory.Event.create _ "d" rfl)
  have hhanded := hreplaced.step false 0 rfl (.hand rfl)
  exact ⟨_, _, _, by decide, hhanded, delivered_exactly hhanded⟩

end DocumentDb.Feed
