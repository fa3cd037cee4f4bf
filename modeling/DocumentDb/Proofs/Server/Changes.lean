import DocumentDb.Proofs.Feed.Slice
import DocumentDb.Proofs.Server.Actions
import DocumentDb.Server.Timeline

/-! # Answers to a request for changes

A request for changes is answered with the entries of a feed that has ended and with a number from
which a client may go on. The number is that of the last entry; where there is no entry it comes
from a second look at the database, which may have changed since the feed looked at it, or which the
feed has never looked at because its limit is zero.

* `Store.Covers`: a client that goes on from the number misses no change.
* `Server.Reads`: what the second look needs.
* `Server.collect_covers_iff`: which answers cover the changes up to their number.
* `Server.late_changes_missed`, `Server.limit_zero_misses`: answers that do not.
-/

namespace DocumentDb

/-! ## Covering the log -/

/-- Some entries hold all those of the log whose numbers are above one number and up to another. -/
def Store.Covers (s : Store) (start last : Nat) (es : List ChangeEntry) : Prop :=
  ∀ e ∈ s.log, start < e.seq → e.seq ≤ last → e ∈ es

theorem Store.Logged.covers_piece {s : Store} (hl : s.Logged) {start : Nat} {es : List ChangeEntry}
    {last : ChangeEntry} (hpiece : es <+: s.log.drop start) (hlast : es.getLast? = some last) :
    s.Covers start last.seq es := by
  intro e he hlow hhigh
  rw [hl.seq_getLast hpiece hlast] at hhigh
  exact hl.mem_of_seq hpiece he hlow hhigh

theorem Store.Logged.covers_nil_iff {s : Store} (hl : s.Logged) {start : Nat} :
    s.Covers start s.updateSeq [] ↔ s.updateSeq ≤ start := by
  constructor
  · intro hcovers
    by_contra hlt
    have hi : start < s.log.length := Nat.lt_of_not_le hlt
    have hseq : s.log[start].seq = start + 1 := hl.seq_getElem hi
    have hmem := hcovers s.log[start] (List.getElem_mem hi) (by omega) (by rw [hseq]; exact hi)
    cases hmem
  · intro hle e he hlow hhigh
    exact absurd (Nat.lt_of_lt_of_le hlow hhigh) (Nat.not_lt.2 hle)

/-! ## The second look -/

namespace Server

/-- A server finds an open database under a handle, and it is not shutting down. -/
structure Reads (s : Server) (h : Handle) (db : Database) : Prop where
  live : s.stopping = false
  isOpen : db.closed = false
  found : ∃ m i, s.backend = .memory m ∧ m.lookup h.name = .ok (i, db)

section
variable {s : Server} {h : Handle} {db : Database}

theorem Reads.outcome_info (hreads : s.Reads h db) :
    (Action.ofCall (h.info s.stopping)).outcome s.backend =
      (.ok (db.store.info h.name), s.backend) := by
  obtain ⟨m, i, hm, hfound⟩ := hreads.found
  have hread : db.read s.stopping (fun s => s.info h.name) = .ok (db.store.info h.name) :=
    Database.read_eq_ok.2 ⟨hreads.live, hreads.isOpen, rfl⟩
  have hinfo : (Memory.info s.stopping h.name).outcome m = (.ok (db.store.info h.name), m) := by
    show (m.lookup h.name >>= fun x => x.2.read s.stopping fun s => s.info h.name, m) = _
    rw [hfound]
    exact congrArg (·, m) hread
  rw [Action.outcome_ofCall, hm, Handle.info, Backend.outcome_onMemory, hinfo]
  rfl

theorem collect_of_getLast? {got : List ChangeEntry} {last : ChangeEntry}
    (hlast : got.getLast? = some last) :
    s.collect h got = (.json 200 (Wire.changes got last.seq), s) := by
  unfold collect
  rw [hlast]

theorem Reads.collect_nil (hreads : s.Reads h db) :
    s.collect h [] = (.json 200 (Wire.changes [] db.store.updateSeq), s) := by
  unfold collect
  rw [hreads.outcome_info]
  rfl

/-- Whatever happens to a database while a feed of it goes on, and between its end and the second
look: the answer covers the changes up to its number exactly if it has an entry or if the log, at
the second look, has nothing above the start. -/
theorem collect_covers_iff {q : ChangesQuery} {start : Nat} {f : Feed} {got : List ChangeEntry}
    (hrun : Feed.Run q db (.following start f got)) (hended : f.Exhausted)
    (hreads : s.Reads h db) :
    ∃ last, s.collect h got = (.json 200 (Wire.changes got last), s) ∧
      (db.store.Covers start last got ↔ got ≠ [] ∨ db.store.updateSeq ≤ start) := by
  have hl : db.store.Logged := hrun.reachable.logged
  have hpiece : got <+: db.store.log.drop start := by
    have h := hrun.follows.piece
    rw [hended.1, List.append_nil] at h
    exact h
  cases hlast : got.getLast? with
  | none =>
    rw [List.getLast?_eq_none_iff] at hlast
    rw [hlast]
    refine ⟨db.store.updateSeq, hreads.collect_nil, ?_⟩
    rw [hl.covers_nil_iff]
    simp
  | some last =>
    have hne : got ≠ [] := List.ne_nil_of_mem (List.mem_of_getLast? hlast)
    refine ⟨last.seq, collect_of_getLast? hlast, ?_⟩
    simp [hl.covers_piece hpiece hlast, hne]

/-- A request under way that collects the entries of a feed goes on with its run, is given up, or
is answered with the entries of a run that has ended. -/
theorem settle_collecting {q : ChangesQuery} {start : Nat} {feed : OpenFeed}
    {got : List ChangeEntry} {u : Underway} {m : Memory}
    (hrun : Feed.Run q db (.following start feed.feed got)) (hmarked : feed.feed.phase ≠ .marked)
    (hu : u.running = .collecting h feed got) (hm : s.backend = .memory m)
    (hsource : m.databases[feed.source]? = some db) (now : Nat) :
    ∃ f es, Feed.Run q db (.following start f (got ++ es)) ∧ f.phase ≠ .marked ∧
      (u.settle s now =
          ({ u with running := .collecting h { feed with feed := f } (got ++ es) }, s) ∨
        u.settle s now = (u.answer none true, s) ∨
        f.Exhausted ∧ u.settle s now =
          (u.answer (some (s.collect h (got ++ es)).1) false, (s.collect h (got ++ es)).2)) := by
  have hdb : m.source feed = db := by
    unfold Memory.source
    rw [hsource]
    rfl
  obtain ⟨hdrained, hphase, hanswer⟩ := hrun.drain hmarked s.stopping now
  refine ⟨_, _, hdrained, hphase, ?_⟩
  unfold Underway.settle
  rw [hu, hm]
  dsimp only [Backend.drain, Memory.drain]
  rw [hdb]
  generalize feed.feed.drain db s.stopping now = r at hanswer
  obtain ⟨es, p, f⟩ := r
  obtain rfl | ⟨rfl, hended⟩ := hanswer
  · dsimp only
    split
    · exact .inr (.inl rfl)
    · exact .inl rfl
  · exact .inr (.inr ⟨hended, rfl⟩)

end

/-- Changes that come after a feed has found nothing and before the second look are missed. -/
theorem late_changes_missed {q : ChangesQuery} {db db' : Database} (hdb : db.Reachable)
    (hopen : db.closed = false) (hnow : q.since = .now) (hnormal : q.feed = .normal)
    (hevents : Relation.ReflTransGen Database.Event db db')
    (hlate : db.store.updateSeq < db'.store.updateSeq) :
    ∃ f, Feed.Run q db' (.following db.store.updateSeq f []) ∧ f.Exhausted ∧
      ¬ db'.store.Covers db.store.updateSeq db'.store.updateSeq [] := by
  have hstart : Feed.resolve db false q.since = .ok db.store.updateSeq := by
    rw [hnow]
    exact Database.read_eq_ok.2 ⟨rfl, hopen, rfl⟩
  have hrun := Feed.Run.resolve 0 (.subscribe hdb) hstart
  have hlogged : ∀ {st}, Feed.Run q db' st →
      ¬ db'.store.Covers db.store.updateSeq db'.store.updateSeq [] := by
    intro st h
    rw [h.reachable.logged.covers_nil_iff]
    omega
  cases hspent : (Feed.start q db.watch.version db.store.updateSeq 0).spent with
  | true =>
    have hended := (hrun.step false 0 (.stop rfl rfl hspent)).events hevents
    exact ⟨_, hended, ⟨rfl, rfl⟩, hlogged hended⟩
  | false =>
    have hbatch : ((Feed.start q db.watch.version db.store.updateSeq 0).mark db.watch).batch
        db.store = [] := by
      show Store.atMost q.limit (db.store.log.drop db.store.log.length) = []
      rw [List.drop_length]
      cases q.limit <;> simp [Store.atMost]
    have hread := Database.read_eq_ok.2 ⟨rfl, hopen, hbatch⟩
    have hmarked := hrun.step false 0 (.mark rfl rfl hspent)
    have hended := (hmarked.step false 0 (.read rfl hread)).events hevents
    refine ⟨_, hended, ?_, hlogged hended⟩
    show Feed.Exhausted (if q.feed = .normal then _ else _)
    rw [if_pos hnormal]
    exact ⟨rfl, rfl⟩

/-! ## A database with one change -/

/-- A server in front of a single database. -/
def hosting (db : Database) : Server where
  client := ⟨"memory", "", .empty⟩
  backend := .memory ⟨[db], SortedMap.empty.insert db.name 0, .initial⟩
  settings := .empty
  chain := []
  users := .empty
  authRequired := false
  stopping := false

theorem hosting_reads {db : Database} (hopen : db.closed = false) :
    (hosting db).Reads ⟨db.name, .empty⟩ db where
  live := rfl
  isOpen := hopen
  found := by
    refine ⟨_, 0, rfl, ?_⟩
    unfold Memory.lookup
    rw [SortedMap.get?_insert_self]
    rfl

/-- A database with one change. -/
def oneChange : Database :=
  ((Database.create "d").commit
    (Store.empty.after [.graft "a" [⟨1, "x"⟩] false .emptyObject])).announce

theorem oneChange_reachable : oneChange.Reachable :=
  .event (.event (.create "d") (.commit [.graft "a" [⟨1, "x"⟩] false .emptyObject])) .announce

/-- The query for the changes from the beginning on, so many of them at most. -/
def fromStart (limit : Option Nat) : ChangesQuery := ⟨.seq 0, .normal, none, limit⟩

/-- Without a limit the change is in the answer. -/
theorem collect_one_change :
    let change : ChangeEntry := ⟨1, "a", ⟨1, "x"⟩, false⟩
    ∃ last, (hosting oneChange).collect ⟨"d", .empty⟩ [change] =
        (.json 200 (Wire.changes [change] last), hosting oneChange) ∧
      (oneChange.store.Covers 0 last [change] ↔ [change] ≠ [] ∨ oneChange.store.updateSeq ≤ 0) := by
  intro change
  have hstart : Feed.resolve oneChange false (fromStart none).since = .ok 0 := rfl
  have hrun := Feed.Run.resolve 0 (.subscribe oneChange_reachable) hstart
  obtain ⟨hdrained, -, hanswer⟩ := hrun.drain (by decide) false 0
  exact collect_covers_iff hdrained (hanswer.resolve_left (by decide)).2 (hosting_reads rfl)

/-- With a limit of zero the answer is empty, and a client that goes on from its number misses the
change. -/
theorem limit_zero_misses :
    ∃ f, Feed.Run (fromStart (some 0)) oneChange (.following 0 f []) ∧ f.Exhausted ∧
      (hosting oneChange).Reads ⟨"d", .empty⟩ oneChange ∧
      (hosting oneChange).collect ⟨"d", .empty⟩ [] =
        (.json 200 (Wire.changes [] 1), hosting oneChange) ∧
      ¬ oneChange.store.Covers 0 1 [] := by
  have hstart : Feed.resolve oneChange false (fromStart (some 0)).since = .ok 0 := rfl
  have hrun := Feed.Run.resolve 0 (.subscribe oneChange_reachable) hstart
  obtain ⟨hdrained, -, hanswer⟩ := hrun.drain (by decide) false 0
  have hreads : (hosting oneChange).Reads ⟨"d", .empty⟩ oneChange := hosting_reads rfl
  refine ⟨_, hdrained, (hanswer.resolve_left (by decide)).2, hreads, hreads.collect_nil, ?_⟩
  intro hcovers
  have hmem := hcovers ⟨1, "a", ⟨1, "x"⟩, false⟩ (by decide) (by decide) (by decide)
  cases hmem

end Server

end DocumentDb
