import DocumentDb.Proofs.Feed.Answers
import DocumentDb.Proofs.Feed.Delivery
import DocumentDb.Proofs.Feed.Wakeup

/-! # Why a feed ends

A feed shares one clock and one token with its surroundings. It ends when it has handed out what it
may, when its token is cancelled or its database destroyed, or when its time has run out. This time
runs from the last read that has found something, whatever wakes the feed in between.

* `Feed.Scene`, `Feed.Life`: a feed with its reads of the log, among all that happens around it.
* `Feed.Ending`: the reasons for which a feed may end.
* `Feed.Kept`, `Feed.Life.kept`: the invariant, and that every step keeps it.
* `Feed.Pausing`, `Feed.Pausing.steps`: a wake-up that brings nothing.
* `Feed.ends_only_for`: what holds of any feed at any time.
-/

namespace DocumentDb.Feed

/-! ## A feed and its surroundings -/

/-- What a feed lives in: the databases of a client, a clock and a token. -/
structure Scene where
  memory : Memory
  now : Nat
  cancelled : Bool

/-- Something that happens around a feed. -/
inductive Scene.Change (x : Scene) : Scene → Prop where
  | event {m : Memory} (e : x.memory.Event m) : Change x { x with memory := m }
  | pass {now : Nat} (hle : x.now ≤ now) : Change x { x with now := now }
  | cancel : Change x { x with cancelled := true }

/-- A read of the log: when it was made, the log at that time and what was taken from it. -/
structure Sighting where
  time : Nat
  log : List ChangeEntry
  batch : List ChangeEntry

/-- The read that a feed makes in its next step, if this step is a read and succeeds. -/
def sighting (f : Feed) (db : Database) (cancelled : Bool) (now : Nat) : List Sighting :=
  (f.reading db cancelled).map fun batch => ⟨now, db.store.log, batch⟩

/-- What a feed has gone through. -/
structure Record where
  opened : Nat
  got : List ChangeEntry
  reads : List Sighting

namespace Record

/-- The record with some more entries handed out and some more reads made. -/
def add (r : Record) (es : List ChangeEntry) (reads : List Sighting) : Record :=
  ⟨r.opened, r.got ++ es, r.reads ++ reads⟩

/-- The time of the last read that has found something, or that of the opening. -/
def lastFound (r : Record) : Nat :=
  ((r.reads.filter fun s => !s.batch.isEmpty).getLast?.map (·.time)).getD r.opened

@[simp] theorem add_nil (r : Record) : r.add [] [] = r := by simp [add]

theorem add_add (r : Record) (es es' : List ChangeEntry) (reads reads' : List Sighting) :
    (r.add es reads).add es' reads' = r.add (es ++ es') (reads ++ reads') := by
  simp [add]

theorem lastFound_add_miss (r : Record) (es : List ChangeEntry) {s : Sighting}
    (hmiss : s.batch = []) : (r.add es [s]).lastFound = r.lastFound := by
  simp [lastFound, add, hmiss]

theorem lastFound_add_find (r : Record) (es : List ChangeEntry) {s : Sighting}
    (hfind : s.batch ≠ []) : (r.add es [s]).lastFound = s.time := by
  simp [lastFound, add, hfind]

end Record

/-- A feed from its opening on, with all that happens around it between its steps. -/
inductive Life (q : ChangesQuery) (i : Nat) : Scene → Feed → Record → Prop where
  | start {x : Scene} {db : Database} {seen start : Nat}
      (hsubscribed : Course q i x.memory (.subscribed seen) [])
      (hdb : x.memory.databases[i]? = some db)
      (hstart : resolve db x.cancelled q.since = .ok start) :
      Life q i x (Feed.start q seen start x.now) ⟨x.now, [], []⟩
  | step {x : Scene} {db : Database} {f g : Feed} {r : Record} {es : List ChangeEntry}
      (h : Life q i x f r) (hdb : x.memory.databases[i]? = some db)
      (hstep : f.Step db x.cancelled x.now es g) :
      Life q i x g (r.add es (f.sighting db x.cancelled x.now))
  | change {x y : Scene} {f : Feed} {r : Record} (h : Life q i x f r) (hchange : x.Change y) :
      Life q i y f r

section
variable {q : ChangesQuery} {i now : Nat} {x y : Scene} {db : Database} {cancelled : Bool}
  {f g : Feed} {r : Record} {es : List ChangeEntry}

theorem Life.course (h : Life q i x f r) :
    ∃ start, Course q i x.memory (.following start f r.got) (r.reads.map (·.batch)) := by
  induction h with
  | start hsubscribed hdb hstart => exact ⟨_, hsubscribed.resolve _ hdb hstart⟩
  | @step x db f _ r _ _ hdb hstep ih =>
    obtain ⟨start, hcourse⟩ := ih
    have hreads : (r.reads ++ f.sighting db x.cancelled x.now).map (·.batch) =
        r.reads.map (·.batch) ++ f.reading db x.cancelled := by
      simp [sighting, Function.comp_def]
    refine ⟨start, ?_⟩
    unfold Record.add
    rw [hreads]
    exact hcourse.step x.cancelled x.now hdb hstep
  | change _ hchange ih =>
    obtain ⟨start, hcourse⟩ := ih
    cases hchange with
    | event e => exact ⟨start, hcourse.event e⟩
    | pass _ => exact ⟨start, hcourse⟩
    | cancel => exact ⟨start, hcourse⟩

theorem Life.database (h : Life q i x f r) :
    ∃ db, x.memory.databases[i]? = some db ∧ db.Reachable ∧ Bounded q f r.got := by
  obtain ⟨start, hcourse⟩ := h.course
  obtain ⟨db, hdb, hrun⟩ := hcourse.run
  exact ⟨db, hdb, hrun.reachable, hrun.bounded⟩

/-! ## Calls of a client -/

theorem Life.openFeed {name : String} {o : Options} {feed : OpenFeed} {m : Memory}
    (hm : m.Reachable) (h : ((Memory.openFeed cancelled now name o).outcome m).1 = .ok feed) :
    ∃ q, ChangesQuery.ofOptions o = .ok q ∧
      Life q feed.source ⟨m, now, cancelled⟩ feed.feed ⟨now, [], []⟩ := by
  obtain ⟨q, db, hq, hfound, hfeed⟩ := openFeed_eq_ok h
  obtain ⟨start, hstart, hstarted⟩ := subscribe_eq_ok hfeed
  obtain ⟨-, hdb⟩ := Memory.lookup_eq_ok.1 hfound
  refine ⟨q, hq, ?_⟩
  rw [hstarted]
  exact .start (x := ⟨m, now, cancelled⟩) (.subscribe hm hfound) hdb hstart

theorem Life.steps (h : Life q i x f r) (hdb : x.memory.databases[i]? = some db)
    (hsteps : f.Steps db x.cancelled x.now es g) :
    ∃ reads, Life q i x g (r.add es reads) := by
  induction hsteps with
  | refl =>
    refine ⟨[], ?_⟩
    rw [Record.add_nil]
    exact h
  | @tail g _ _ _ _ hstep ih =>
    obtain ⟨reads, hlife⟩ := ih
    refine ⟨reads ++ g.sighting db x.cancelled x.now, ?_⟩
    rw [← Record.add_add]
    exact hlife.step hdb hstep

theorem Life.poll (h : Life q i x f r) (hdb : x.memory.databases[i]? = some db)
    (hmarked : f.phase ≠ .marked) :
    let p := f.poll db x.cancelled x.now
    ∃ reads, Life q i x p.2 (r.add p.1.entries reads) :=
  h.steps hdb (poll_steps db x.cancelled x.now hmarked).1

end

/-! ## The reasons to end -/

/-- Why a feed has ended. -/
inductive Ending (q : ChangesQuery) (i : Nat) (x : Scene) (f : Feed) (r : Record) : Prop where
  | limit (hlimit : q.limit = some r.got.length)
  /-- It reads the log once and has done so. -/
  | read {s : Sighting} (hkind : q.feed = .normal) (hreads : r.reads = [s])
  /-- It hands out what the first read that finds something has found, and has done so. -/
  | found {before : List Sighting} {s : Sighting} (hkind : q.feed = .longpoll)
      (hreads : r.reads = before ++ [s]) (hbefore : ∀ b ∈ before, b.batch = [])
      (hfound : s.batch ≠ []) (hgot : r.got = s.batch)
  | cancelled (hcancelled : x.cancelled = true)
  | destroyed {db : Database} (hdb : x.memory.databases[i]? = some db) (hclosed : db.closed = true)
  /-- Its last read has found nothing beyond its cursor, and its time has run out since it last
  found something. -/
  | expired {t : Nat} {before : List Sighting} {s : Sighting} (htimeout : q.timeout = some t)
      (hreads : r.reads = before ++ [s]) (hmiss : ∀ e ∈ s.log, e.seq ≤ f.cursor)
      (hidle : r.lastFound + t ≤ x.now)

/-- What holds of a feed however far it has come. -/
structure Kept (q : ChangesQuery) (i : Nat) (x : Scene) (f : Feed) (r : Record) : Prop where
  timeout : f.timeout = q.timeout
  /-- Its time runs from the last read that has found something. -/
  deadline : f.deadline = q.timeout.map (r.lastFound + ·)
  unread : q.feed = .normal → f.phase ≠ .done → r.reads = []
  dry : f.phase = .marked ∨ f.phase = .parked → f.buffer = [] ∧ f.remaining ≠ some 0
  parked : f.phase = .parked → q.feed ≠ .normal ∧
    ∃ before s, r.reads = before ++ [s] ∧ ∀ e ∈ s.log, e.seq ≤ f.cursor
  /-- It is done with a read, or there is nothing left to hand out. -/
  ended : f.phase = .done →
    (q.feed = .normal ∧ ∃ s, r.reads = [s]) ∨ (q.feed = .longpoll ∧ r.got ++ f.buffer ≠ []) ∨
      (f.buffer = [] ∧ Ending q i x f r)

section
variable {q : ChangesQuery} {i now : Nat} {x y : Scene} {db : Database} {cancelled : Bool}
  {f g : Feed} {r : Record} {es entries : List ChangeEntry}

/-- A reason to end stays one, whatever happens. -/
theorem Ending.change (h : Ending q i x f r) (hchange : x.Change y) : Ending q i y f r := by
  cases h with
  | limit hlimit => exact .limit hlimit
  | read hkind hreads => exact .read hkind hreads
  | found hkind hreads hbefore hfound hgot => exact .found hkind hreads hbefore hfound hgot
  | cancelled hcancelled =>
    cases hchange with
    | event | pass => exact .cancelled hcancelled
    | cancel => exact .cancelled rfl
  | destroyed hdb hclosed =>
    cases hchange with
    | event e =>
      obtain ⟨db', hdb', rfl | hevent⟩ := e.database_at hdb
      · exact .destroyed hdb' hclosed
      · exact .destroyed hdb' (hevent.closed hclosed)
    | pass | cancel => exact .destroyed hdb hclosed
  | expired htimeout hreads hmiss hidle =>
    cases hchange with
    | event | cancel => exact .expired htimeout hreads hmiss hidle
    | pass hle => exact .expired htimeout hreads hmiss (le_trans hidle hle)

theorem Kept.change (h : Kept q i x f r) (hchange : x.Change y) : Kept q i y f r where
  timeout := h.timeout
  deadline := h.deadline
  unread := h.unread
  dry := h.dry
  parked := h.parked
  ended hdone := (h.ended hdone).imp_right (Or.imp_right (And.imp_right (·.change hchange)))

theorem kept_start (q : ChangesQuery) (i : Nat) (x : Scene) (seen start : Nat) :
    Kept q i x (Feed.start q seen start x.now) ⟨x.now, [], []⟩ where
  timeout := rfl
  deadline := rfl
  unread _ _ := rfl
  dry h := by simp [Feed.start] at h
  parked h := by cases h
  ended h := by cases h

/-! ## The steps of the invariant -/

theorem sighting_of_ne (hphase : f.phase ≠ .marked) : f.sighting db cancelled now = [] := by
  rw [sighting, reading_of_ne hphase, List.map_nil]

/-- A step that neither hands out an entry nor reads leaves the record alone. -/
theorem add_sighting_of_ne (hphase : f.phase ≠ .marked) :
    r.add [] (f.sighting db cancelled now) = r := by
  rw [sighting_of_ne hphase, Record.add_nil]

theorem add_sighting_of_error {e : Error} (hread : db.read cancelled f.batch = .error e) :
    r.add [] (f.sighting db cancelled now) = r := by
  rw [sighting, reading_of_error hread, List.map_nil, Record.add_nil]

theorem sighting_of_ok (hphase : f.phase = .marked)
    (hread : db.read cancelled f.batch = .ok entries) :
    f.sighting db cancelled now = [⟨now, db.store.log, entries⟩] := by
  rw [sighting, reading_of_ok hphase hread, List.map_cons, List.map_nil]

theorem Kept.finish (h : Kept q i x f r) (hbuffer : f.buffer = [])
    (hending : Ending q i x f.finish r) : Kept q i x f.finish r where
  timeout := h.timeout
  deadline := h.deadline
  unread _ hphase := absurd rfl hphase
  dry hphase := by simp [Feed.finish] at hphase
  parked hphase := by cases hphase
  ended _ := .inr (.inr ⟨hbuffer, hending⟩)

/-- A feed that has not handed out all that it holds does not read or wait. -/
theorem Kept.hand (h : Kept q i x f r) {e : ChangeEntry} {rest : List ChangeEntry}
    (hbuffer : f.buffer = e :: rest) : Kept q i x { f with buffer := rest } (r.add [e] []) := by
  have hbusy : ¬ (f.phase = .marked ∨ f.phase = .parked) := by
    intro hphase
    have hnil := (h.dry hphase).1
    rw [hbuffer] at hnil
    cases hnil
  have hreads : (r.add [e] []).reads = r.reads := List.append_nil r.reads
  constructor
  · exact h.timeout
  · have hfound : (r.add [e] []).lastFound = r.lastFound := by
      unfold Record.lastFound
      rw [hreads]
      rfl
    rw [hfound]
    exact h.deadline
  · rw [hreads]
    exact h.unread
  · intro hphase
    exact absurd hphase hbusy
  · intro hphase
    exact absurd (.inr hphase) hbusy
  · intro hdone
    rw [hreads]
    obtain hnormal | ⟨hlongpoll, hne⟩ | ⟨hnil, -⟩ := h.ended hdone
    · exact .inl hnormal
    · refine .inr (.inl ⟨hlongpoll, ?_⟩)
      show r.got ++ [e] ++ rest ≠ []
      rw [handed_append hbuffer]
      exact hne
    · rw [hbuffer] at hnil
      cases hnil

theorem Kept.mark (h : Kept q i x f r) (hbuffer : f.buffer = []) (hidle : f.phase = .idle)
    (hspent : f.spent = false) (w : Watch) : Kept q i x (f.mark w) r where
  timeout := h.timeout
  deadline := h.deadline
  unread hnormal _ := h.unread hnormal (by simp [hidle])
  dry _ := ⟨hbuffer, remaining_of_not_spent (f := f) hspent⟩
  parked hphase := by cases hphase
  ended hphase := by cases hphase

theorem Kept.resume (h : Kept q i x f r) (hparked : f.phase = .parked) :
    Kept q i x f.resume r where
  timeout := h.timeout
  deadline := h.deadline
  unread hnormal _ := h.unread hnormal (by simp [hparked])
  dry hphase := by simp [Feed.resume] at hphase
  parked hphase := by cases hphase
  ended hphase := by cases hphase

/-- A read that finds nothing leaves the time of the feed alone. -/
theorem Kept.miss (h : Kept q i x f r) (hkind : f.kind = q.feed) (hphase : f.phase = .marked)
    {log : List ChangeEntry} (hmiss : ∀ e ∈ log, e.seq ≤ f.cursor) :
    Kept q i x (f.receive now []) (r.add [] [⟨now, log, []⟩]) := by
  have hdeadline : f.deadline = q.timeout.map ((r.add [] [⟨now, log, []⟩]).lastFound + ·) := by
    rw [r.lastFound_add_miss [] rfl]
    exact h.deadline
  by_cases hnormal : q.feed = .normal
  · have hreceive : f.receive now [] = f.finish := if_pos (hkind.trans hnormal)
    have hreads : r.reads = [] := h.unread hnormal (by simp [hphase])
    rw [hreceive]
    constructor
    · exact h.timeout
    · exact hdeadline
    · exact fun _ hdone => absurd rfl hdone
    · intro hphase
      simp [Feed.finish] at hphase
    · intro hphase
      cases hphase
    · refine fun _ => .inl ⟨hnormal, ⟨now, log, []⟩, ?_⟩
      rw [Record.add, hreads]
      rfl
  · have hreceive : f.receive now [] = f.park := receive_nil (by rw [hkind]; exact hnormal)
    rw [hreceive]
    constructor
    · exact h.timeout
    · exact hdeadline
    · exact fun hq => absurd hq hnormal
    · exact fun _ => h.dry (.inl hphase)
    · exact fun _ => ⟨hnormal, r.reads, ⟨now, log, []⟩, rfl, hmiss⟩
    · intro hdone
      cases hdone

/-- After a read that finds something the time of the feed begins anew. -/
theorem Kept.find (h : Kept q i x f r) (hkind : f.kind = q.feed) (hphase : f.phase = .marked)
    {log : List ChangeEntry} (hfind : entries ≠ []) :
    Kept q i x (f.receive now entries) (r.add [] [⟨now, log, entries⟩]) := by
  obtain ⟨last, hlast⟩ : ∃ last, entries.getLast? = some last :=
    ⟨_, List.getLast?_eq_some_getLast hfind⟩
  unfold receive
  rw [hlast]
  dsimp only
  constructor
  · exact h.timeout
  · rw [r.lastFound_add_find [] hfind, ← h.timeout]
  · intro hnormal hphase'
    rw [if_neg (by rw [hkind, hnormal]; decide)] at hphase'
    exact absurd rfl hphase'
  · intro hphase'
    split at hphase' <;> simp at hphase'
  · intro hphase'
    split at hphase' <;> cases hphase'
  · intro hdone
    cases hq : q.feed with
    | normal =>
      refine .inl ⟨rfl, ⟨now, log, entries⟩, ?_⟩
      rw [Record.add, h.unread hq (by simp [hphase])]
      rfl
    | longpoll =>
      refine .inr (.inl ⟨rfl, ?_⟩)
      simp [hfind]
    | continuous =>
      rw [if_pos (hkind.trans hq)] at hdone
      cases hdone

theorem Kept.step (h : Kept q i x f r) (hbounded : Bounded q f r.got) (hl : db.store.Logged)
    (hdb : x.memory.databases[i]? = some db) (hstep : f.Step db x.cancelled x.now es g) :
    Kept q i x g (r.add es (f.sighting db x.cancelled x.now)) := by
  cases hstep with
  | hand hbuffer =>
    have hphase : f.phase ≠ .marked := by
      intro hmarked
      have hnil := (h.dry (.inl hmarked)).1
      rw [hbuffer] at hnil
      cases hnil
    rw [sighting_of_ne hphase]
    exact h.hand hbuffer
  | stop hbuffer hidle hspent =>
    rw [add_sighting_of_ne (by simp [hidle])]
    have hzero : f.remaining = some 0 := by simpa [spent, hidle] using hspent
    refine h.finish hbuffer (.limit ?_)
    rw [hbounded.remaining, hbuffer, List.append_nil, Option.map_eq_some_iff] at hzero
    obtain ⟨n, hn, hleft⟩ := hzero
    have hwithin := hbounded.within n hn
    rw [hbuffer, List.append_nil] at hwithin
    rw [hn, Option.some.injEq]
    omega
  | mark hbuffer hidle hspent =>
    rw [add_sighting_of_ne (by simp [hidle])]
    exact h.mark hbuffer hidle hspent db.watch
  | read hmarked hread =>
    rw [sighting_of_ok hmarked hread]
    obtain ⟨-, -, hentries⟩ := Database.read_eq_ok.1 hread
    by_cases hfind : f.batch db.store = []
    · have hend : db.store.updateSeq ≤ f.cursor :=
        updateSeq_le_of_batch hfind (h.dry (.inl hmarked)).2
      rw [← hentries, hfind]
      exact h.miss hbounded.kind hmarked fun e he => le_trans (hl.seq_le he) hend
    · rw [hentries] at hfind
      exact h.find hbounded.kind hmarked hfind
  | fail hmarked hread =>
    rw [add_sighting_of_error hread]
    refine h.finish (h.dry (.inl hmarked)).1 ?_
    obtain ⟨-, hcancelled⟩ | ⟨-, hclosed⟩ := Database.read_eq_error hread
    · exact .cancelled hcancelled
    · exact .destroyed hdb hclosed
  | cancel hparked hcancelled =>
    rw [add_sighting_of_ne (by simp [hparked])]
    exact h.finish (h.dry (.inr hparked)).1 (.cancelled hcancelled)
  | expire hparked hexpired =>
    rw [add_sighting_of_ne (by simp [hparked])]
    obtain ⟨-, before, s, hreads, hmiss⟩ := h.parked hparked
    unfold expired at hexpired
    rw [h.deadline, Option.any_map, Option.any_eq_true] at hexpired
    obtain ⟨t, ht, hle⟩ := hexpired
    exact h.finish (h.dry (.inr hparked)).1 (.expired ht hreads hmiss (by simpa using hle))
  | lose hparked halerted hclosed =>
    rw [add_sighting_of_ne (by simp [hparked])]
    exact h.finish (h.dry (.inr hparked)).1 (.destroyed hdb hclosed)
  | wake hparked halerted hopen =>
    rw [add_sighting_of_ne (by simp [hparked])]
    exact h.resume hparked

/-- The invariant holds of any feed at any time. -/
theorem Life.kept (h : Life q i x f r) : Kept q i x f r := by
  induction h with
  | start _ _ _ => exact kept_start q i _ _ _
  | step h hdb hstep ih =>
    obtain ⟨db, hdb', hreachable, hbounded⟩ := h.database
    rw [hdb] at hdb'
    cases hdb'
    exact ih.step hbounded hreachable.logged hdb hstep
  | change _ hchange ih => exact ih.change hchange

theorem Life.ending (h : Life q i x f r) (hexhausted : f.Exhausted) : Ending q i x f r := by
  obtain ⟨hbuffer, hdone⟩ := hexhausted
  obtain ⟨hnormal, s, hreads⟩ | ⟨hlongpoll, hne⟩ | ⟨-, hending⟩ := h.kept.ended hdone
  · exact .read hnormal hreads
  · obtain ⟨start, hcourse⟩ := h.course
    obtain ⟨hnil, -⟩ | ⟨-, before, batch, hreads, hbefore, hgot⟩ :=
      hcourse.single (by rw [hlongpoll]; decide)
    · exact absurd hnil hne
    · rw [hbuffer, List.append_nil] at hgot hne
      obtain ⟨earlier, last, hsplit, hearlier, hlast⟩ := List.map_eq_append_iff.1 hreads
      obtain ⟨s, rfl, rfl⟩ := List.map_eq_singleton_iff.1 hlast
      refine .found hlongpoll hsplit (fun b hb => hbefore _ ?_) ?_ hgot
      · rw [← hearlier]
        exact List.mem_map_of_mem hb
      · rw [← hgot]
        exact hne
  · exact hending

/-! ## Waking up for nothing -/

/-- A feed that looks for an entry and has read all that there is. -/
structure Pausing (f : Feed) (s : Store) : Prop where
  phase : f.phase ≠ .done
  buffer : f.buffer = []
  remaining : f.remaining ≠ some 0
  kind : f.kind ≠ .normal
  cursor : s.updateSeq ≤ f.cursor

theorem Pausing.batch (h : f.Pausing db.store) : f.batch db.store = [] := by
  have hdrop : db.store.log.drop f.cursor = [] := List.drop_eq_nil_iff.2 h.cursor
  unfold Feed.batch Store.changesSince Store.atMost
  rw [hdrop]
  cases f.remaining with
  | none => rfl
  | some n => exact List.take_nil

/-- Neither reading nothing nor waking up moves a feed or its deadline. -/
theorem Pausing.step (h : f.Pausing db.store) (hopen : db.closed = false)
    (hwaits : f.expired now = false) (hstep : f.Step db false now es g) :
    g.Pausing db.store ∧ es = [] ∧ g.deadline = f.deadline := by
  cases hstep with
  | hand hbuffer =>
    rw [h.buffer] at hbuffer
    cases hbuffer
  | stop _ hidle hspent => exact absurd (by simpa [spent, hidle] using hspent) h.remaining
  | mark _ _ _ => exact ⟨⟨by simp [Feed.mark], h.buffer, h.remaining, h.kind, h.cursor⟩, rfl, rfl⟩
  | read hmarked hread =>
    obtain ⟨-, -, hentries⟩ := Database.read_eq_ok.1 hread
    rw [← hentries, h.batch, receive_nil h.kind]
    exact ⟨⟨by simp [park], h.buffer, h.remaining, h.kind, h.cursor⟩, rfl, rfl⟩
  | fail _ hread =>
    obtain ⟨-, hcancelled⟩ | ⟨-, hclosed⟩ := Database.read_eq_error hread
    · cases hcancelled
    · rw [hopen] at hclosed
      cases hclosed
  | cancel _ hcancelled => cases hcancelled
  | expire _ hexpired =>
    rw [hwaits] at hexpired
    cases hexpired
  | lose _ _ hclosed =>
    rw [hopen] at hclosed
    cases hclosed
  | wake _ _ _ =>
    exact ⟨⟨by simp [Feed.resume], h.buffer, h.remaining, h.kind, h.cursor⟩, rfl, rfl⟩

theorem Pausing.steps (h : f.Pausing db.store) (hopen : db.closed = false)
    (hwaits : f.expired now = false) (hsteps : f.Steps db false now es g) :
    g.Pausing db.store ∧ es = [] ∧ g.deadline = f.deadline := by
  induction hsteps with
  | refl => exact ⟨h, rfl, rfl⟩
  | @tail g _ _ _ _ hstep ih =>
    obtain ⟨hg, rfl, hdeadline⟩ := ih
    have hwaits' : g.expired now = false := by
      rw [expired, hdeadline]
      exact hwaits
    obtain ⟨hh, rfl, hdeadline'⟩ := hg.step hopen hwaits' hstep
    exact ⟨hh, rfl, hdeadline'.trans hdeadline⟩

theorem Pausing.poll (h : f.Pausing db.store) (hopen : db.closed = false)
    (hwaits : f.expired now = false) (hmarked : f.phase ≠ .marked) :
    (f.poll db false now).1 = .pending := by
  obtain ⟨hsteps, -, hended⟩ := poll_steps db false now hmarked
  obtain ⟨hg, hentries, -⟩ := h.steps hopen hwaits hsteps
  cases hanswer : (f.poll db false now).1 with
  | entry e =>
    rw [hanswer] at hentries
    cases hentries
  | ended => exact absurd (hended hanswer).2 hg.phase
  | pending => rfl

/-- A feed that waits while there is nothing beyond its cursor is such a feed. -/
theorem Life.pausing (h : Life q i x f r) (hdb : x.memory.databases[i]? = some db)
    (hparked : f.phase = .parked) (hnone : ∀ e ∈ db.store.log, e.seq ≤ f.cursor) :
    f.Pausing db.store := by
  obtain ⟨db', hdb', hreachable, hbounded⟩ := h.database
  rw [hdb] at hdb'
  cases hdb'
  obtain ⟨hbuffer, hremaining⟩ := h.kept.dry (.inr hparked)
  refine ⟨by simp [hparked], hbuffer, hremaining, ?_, ?_⟩
  · rw [hbounded.kind]
    exact (h.kept.parked hparked).1
  · cases hlast : db.store.log.getLast? with
    | none =>
      rw [Store.updateSeq, List.getLast?_eq_none_iff.1 hlast]
      exact Nat.zero_le _
    | some e =>
      have hpiece : db.store.log <+: db.store.log.drop 0 := List.prefix_refl _
      have hseq := hreachable.logged.seq_getLast hpiece hlast
      have hle := hnone e (List.mem_of_getLast? hlast)
      rw [hseq, Nat.zero_add] at hle
      exact hle

end

/-- Whatever happens around a feed, at any time: polling it never meets an error that it hands out;
if it has ended, or ends when it is polled, it does so for one of the six reasons; its deadline is
as long after the last read that has found something as the query says; and while it waits for an
entry that is not there, no wake-up ends it or moves its deadline before its time has run out. -/
theorem ends_only_for {q : ChangesQuery} {i : Nat} {x : Scene} {f : Feed} {r : Record}
    (h : Life q i x f r) :
    (f.Exhausted → Ending q i x f r) ∧ f.deadline = q.timeout.map (r.lastFound + ·) ∧
      ∀ db, x.memory.databases[i]? = some db →
        f.answer db x.cancelled x.now = .ok (f.poll db x.cancelled x.now).1 ∧
        (f.phase ≠ .marked → (f.poll db x.cancelled x.now).1 = .ended →
          ∃ reads, Life q i x (f.poll db x.cancelled x.now).2 (r.add [] reads) ∧
            Ending q i x (f.poll db x.cancelled x.now).2 (r.add [] reads)) ∧
        (f.phase = .parked → (∀ e ∈ db.store.log, e.seq ≤ f.cursor) → x.cancelled = false →
          db.closed = false → (∀ t, q.timeout = some t → x.now < r.lastFound + t) →
          (f.poll db x.cancelled x.now).1 = .pending ∧
            ∀ es g, f.Steps db x.cancelled x.now es g →
              g.phase ≠ .done ∧ g.deadline = f.deadline) := by
  refine ⟨h.ending, h.kept.deadline, fun db hdb => ⟨answer_eq, ?_, ?_⟩⟩
  · intro hmarked hended
    obtain ⟨reads, hlife⟩ := h.poll hdb hmarked
    obtain ⟨-, -, hexhausted⟩ := poll_steps db x.cancelled x.now hmarked
    rw [hended] at hlife
    exact ⟨reads, hlife, hlife.ending (hexhausted hended)⟩
  · intro hparked hnone hlive hopen hwaits
    rw [hlive]
    have hpausing := h.pausing hdb hparked hnone
    have hwaits : f.expired x.now = false := by
      unfold expired
      rw [h.kept.deadline]
      cases ht : q.timeout with
      | none => rfl
      | some t => simpa using hwaits t ht
    refine ⟨hpausing.poll hopen hwaits (by simp [hparked]), fun es g hsteps => ?_⟩
    obtain ⟨hg, -, hdeadline⟩ := hpausing.steps hopen hwaits hsteps
    exact ⟨hg.phase, hdeadline⟩

/-- A continuous feed of an empty log may wait for five milliseconds. It is woken once for nothing,
after three, and it still ends after five. -/
theorem ended_in_time :
    let q : ChangesQuery := ⟨.seq 0, .continuous, some 5, none⟩
    ∃ x f r, Life q 0 x f r ∧ x.now = 5 ∧ r.reads.length = 2 ∧ f.Exhausted ∧
      Ending q 0 x f r := by
  intro q
  let m : Memory := ⟨[.create "d"], SortedMap.empty.insert "d" 0, .initial⟩
  have hm : m.Reachable := (Memory.Reachable.empty .initial).event (@Memory.Event.create _ "d" rfl)
  have hsubscribed : Course q 0 m (.subscribed 0) [] :=
    .subscribe hm (show m.lookup "d" = .ok (0, _) from rfl)
  have hstarted := Life.start (x := ⟨m, 0, false⟩) hsubscribed rfl
    (show Feed.resolve _ false _ = .ok 0 from rfl)
  have hmarked := hstarted.step rfl (.mark rfl rfl rfl)
  have hparked := hmarked.step rfl (.read rfl rfl)
  have halerted := hparked.change (.event (.database (i := 0) rfl .announce))
  have hlater := halerted.change (@Scene.Change.pass _ 3 (by decide))
  have hwoken := hlater.step rfl (.wake rfl rfl rfl)
  have hmarked' := hwoken.step rfl (.mark rfl rfl rfl)
  have hparked' := hmarked'.step rfl (.read rfl rfl)
  have hlast := hparked'.change (@Scene.Change.pass _ 5 (by decide))
  have hended := hlast.step rfl (.expire rfl rfl)
  exact ⟨_, _, _, hended, rfl, rfl, ⟨rfl, rfl⟩, (ends_only_for hended).1 ⟨rfl, rfl⟩⟩

end DocumentDb.Feed
