import DocumentDb.Proofs.Backend.Kept

/-! # Calls under a cancelled token

Every call takes a token. Some calls look at it first, others when they touch a store, after they
have read their options and looked up their database. A feed of changes that begins after a sequence
number does neither, so it can be opened under a cancelled token; it ends as soon as it is asked.

* `StopsAt`: a call fails at a state if its token is cancelled.
* `Demand`: the calls of a client and of its handles as data.
* `Demand.kept`: what none of them does to the databases.
* `Demand.stopsAt`: all of them stop, but for `Demand.OpensUnread`.
* `Demand.cancelled_outcome`: what a cancelled call of a client gives, and what it leaves.
-/

namespace DocumentDb

section
variable {σ α β : Type} {s : σ}

/-- A call fails at a state if its token is cancelled: with the failure that says so, or with one
that it meets anyway. -/
def StopsAt (s : σ) (c : Bool → Call σ α) : Prop :=
  ∃ e, ((c true).outcome s).1 = .error e ∧
    (e = .cancelled ∨ ((c false).outcome s).1 = .error e)

theorem stopsAt_ensureLive : StopsAt s fun cancelled => (Call.ensureLive cancelled : Call σ Unit) :=
  ⟨.cancelled, rfl, .inl rfl⟩

theorem outcome_bind_of_error {c : Call σ α} {e : Error} (h : (c.outcome s).1 = .error e)
    (f : α → Call σ β) : (Call.outcome (c >>= f) s).1 = .error e := by
  rw [Call.outcome_bind]
  generalize c.outcome s = r at h
  obtain ⟨x, s'⟩ := r
  cases h
  rfl

/-- A call that stops lets nothing come after it. -/
theorem StopsAt.bind {c : Bool → Call σ α} (hc : StopsAt s c) (f : Bool → α → Call σ β) :
    StopsAt s fun cancelled => c cancelled >>= f cancelled := by
  obtain ⟨e, hstopped, hmet⟩ := hc
  exact ⟨e, outcome_bind_of_error hstopped _, hmet.imp_right fun h => outcome_bind_of_error h _⟩

/-- What comes before the call stops either fails or leads to a state at which it stops. -/
theorem StopsAt.after (first : Call σ α) {c : α → Bool → Call σ β}
    (hc : ∀ a, StopsAt (first.outcome s).2 (c a)) :
    StopsAt s fun cancelled => first >>= fun a => c a cancelled := by
  unfold StopsAt
  simp only [Call.outcome_bind]
  generalize first.outcome s = r at hc
  obtain ⟨x, s'⟩ := r
  cases x with
  | error e => exact ⟨e, rfl, .inr rfl⟩
  | ok a => exact hc a

end

/-! ## Databases in memory -/

namespace Memory

variable {α : Type} {m : Memory}

theorem access_cancelled (m : Memory) (name : String) :
    ∃ e, m.access true name = .error e ∧ (e = .cancelled ∨ m.access false name = .error e) := by
  unfold access
  cases m.lookup name with
  | error e => exact ⟨e, rfl, .inr rfl⟩
  | ok found => exact ⟨.cancelled, rfl, .inl rfl⟩

theorem stopsAt_read (name : String) (f : Store → α) :
    StopsAt m fun cancelled => read cancelled name f := by
  obtain ⟨e, hstopped, hmet⟩ := m.access_cancelled name
  refine ⟨e, ?_, hmet.imp_right fun h => ?_⟩
  · rw [outcome_read, hstopped]
    rfl
  · rw [outcome_read, h]
    rfl

theorem stopsAt_write (name : String) (f : Store → Except Error α × Store) :
    StopsAt m fun cancelled => write cancelled name f := by
  obtain ⟨e, hstopped, hmet⟩ := m.access_cancelled name
  refine ⟨e, ?_, hmet.imp_right fun h => ?_⟩
  · rw [outcome_write, hstopped]
  · rw [outcome_write, h]

theorem stopsAt_put (name id : String) (body : Json) (rev : Option Revision) :
    StopsAt m fun cancelled => put cancelled name id body rev := stopsAt_write name _

theorem stopsAt_createDoc (name : String) (body : Json) :
    StopsAt m fun cancelled => createDoc cancelled name body :=
  .after freshId fun id => (stopsAt_put name id body none).bind _

theorem stopsAt_delete (name id : String) (rev : Revision) :
    StopsAt m fun cancelled => delete cancelled name id rev := stopsAt_write name _

theorem stopsAt_bulk (name : String) (edits : List Edit) (o : Options) :
    StopsAt m fun cancelled => bulk cancelled name edits o :=
  .after _ fun newEdits => .after (assign (newEdits.getD true) edits) fun _ => stopsAt_write name _

theorem stopsAt_get (name id : String) (rev : Option Revision) (o : Options) :
    StopsAt m fun cancelled => get cancelled name id rev o :=
  .after _ fun _ => (stopsAt_read name _).bind _

theorem stopsAt_list (name : String) (o : Options) :
    StopsAt m fun cancelled => list cancelled name o :=
  .after _ fun _ => stopsAt_read name _

theorem stopsAt_info (name : String) : StopsAt m fun cancelled => info cancelled name :=
  stopsAt_read name _

/-! ## Feeds -/

/-- A feed that some options ask for begins after a sequence number, and its database exists. -/
def OpensUnread (m : Memory) (name : String) (o : Options) : Prop :=
  ∃ q n found, ChangesQuery.ofOptions o = .ok q ∧ q.since = .seq n ∧ m.lookup name = .ok found

theorem outcome_openFeed (cancelled : Bool) (now : Nat) (name : String) (o : Options) :
    (openFeed cancelled now name o).outcome m =
      match ChangesQuery.ofOptions o, m.lookup name with
      | .error e, _ => (.error e, m)
      | .ok _, .error e => (.error e, m)
      | .ok q, .ok (i, db) => ((Feed.subscribe db cancelled q now).map (OpenFeed.mk i), m) := by
  unfold openFeed
  rw [Call.outcome_bind, Call.outcome_ofExcept]
  cases ChangesQuery.ofOptions o with
  | error e => rfl
  | ok q =>
    dsimp only
    rw [Call.outcome_look]
    cases m.lookup name with
    | error e => rfl
    | ok found => cases Feed.subscribe found.2 cancelled q now <;> rfl

/-- A feed that begins now reads the update sequence first. -/
theorem stopsAt_openFeed {now : Nat} {name : String} {o : Options}
    (h : ¬ m.OpensUnread name o) : StopsAt m fun cancelled => openFeed cancelled now name o := by
  unfold StopsAt
  simp only [outcome_openFeed]
  cases hq : ChangesQuery.ofOptions o with
  | error e => exact ⟨e, rfl, .inr rfl⟩
  | ok q =>
    cases hfound : m.lookup name with
    | error e => exact ⟨e, rfl, .inr rfl⟩
    | ok found =>
      cases hsince : q.since with
      | seq n => exact absurd ⟨q, n, found, hq, hsince, hfound⟩ h
      | now =>
        refine ⟨.cancelled, ?_, .inl rfl⟩
        dsimp only
        rw [Feed.subscribe, hsince]
        rfl

theorem openFeed_of_opensUnread {name : String} {o : Options} (h : m.OpensUnread name o)
    (now : Nat) : ∃ f, (openFeed true now name o).outcome m = (.ok f, m) ∧ f.feed.buffer = [] := by
  obtain ⟨q, n, ⟨i, db⟩, hq, hsince, hfound⟩ := h
  refine ⟨⟨i, .start q db.watch.version n now⟩, ?_, rfl⟩
  rw [outcome_openFeed, hq, hfound]
  dsimp only
  rw [Feed.subscribe, hsince]
  rfl

end Memory

namespace Feed

variable {f : Feed} (db : Database) (now : Nat)

/-- Under a cancelled token a feed that waits is done, and one that reads is, since it may not. -/
theorem settle_cancelled (hempty : f.buffer = []) :
    (f.settle db true now).phase = .done ∧ (f.settle db true now).buffer = [] := by
  unfold settle
  by_cases hparked : f.phase = .parked
  · simp [hempty, hparked, wake, finish, spent]
  · have hfill : f.fill db true now = (f.mark db.watch).finish := rfl
    by_cases hspent : f.spent = true <;> simp [hempty, hparked, hspent, hfill, mark, finish]

theorem poll_cancelled (hempty : f.buffer = []) : ∃ g, f.poll db true now = (.ended, g) := by
  obtain ⟨hdone, hstill⟩ := settle_cancelled db now hempty
  exact ⟨f.settle db true now, by simp [poll, take, hdone, hstill]⟩

theorem drain_cancelled (hempty : f.buffer = []) : ∃ g, f.drain db true now = ([], .ended, g) := by
  obtain ⟨g, hg⟩ := poll_cancelled db now hempty
  exact ⟨g, by rw [drain, drainFor, hg]⟩

end Feed

namespace Backend

variable {α : Type} {m : Memory}

theorem stopsAt_run {c : Bool → Call Memory α} (hc : StopsAt m c)
    (answer : Bool → Answers → Except Error α) :
    StopsAt (.memory m) fun cancelled => run (c cancelled) (answer cancelled) := hc

end Backend

/-! ## Calls of a client -/

/-- A call that a client makes or one of its handles, by what it gives. -/
inductive Demand : Type → Type where
  | serverInfo (o : Options) : Demand ServerInfo
  | allDbs (o : Options) : Demand (List String)
  | dbExists (name : String) (o : Options) : Demand Bool
  | createDb (name : String) (o : Options) : Demand Unit
  | destroyDb (name : String) (o : Options) : Demand Unit
  | openDb (name : String) (o : Options) : Demand Handle
  | uuids (count : Nat) : Demand (List String)
  | membership : Demand Membership
  | info (h : Handle) : Demand DbInfo
  | put (h : Handle) (id : String) (body : Json) (rev : Option Revision) : Demand Revision
  | createDoc (h : Handle) (body : Json) : Demand (String × Revision)
  | get (h : Handle) (id : String) (rev : Option Revision) (o : Options) : Demand Document
  | delete (h : Handle) (id : String) (rev : Revision) : Demand Revision
  | bulk (h : Handle) (edits : List Edit) (o : Options) : Demand (List BulkResult)
  | list (h : Handle) (o : Options) : Demand Listing
  | changes (h : Handle) (o : Options) : Demand OpenFeed

namespace Demand

variable {α : Type}

/-- The call of a client at a time. -/
def call (c : Client) (now : Nat) (cancelled : Bool) : {α : Type} → Demand α → Call Backend α
  | _, serverInfo o => c.serverInfo cancelled o
  | _, allDbs o => c.allDbs cancelled o
  | _, dbExists name o => c.dbExists cancelled name o
  | _, createDb name o => c.createDb cancelled name o
  | _, destroyDb name o => c.destroyDb cancelled name o
  | _, openDb name o => c.openDb cancelled name o
  | _, uuids count => c.uuids cancelled count
  | _, membership => c.membership cancelled
  | _, info h => h.info cancelled
  | _, put h id body rev => h.put cancelled id body rev
  | _, createDoc h body => h.createDoc cancelled body
  | _, get h id rev o => h.get cancelled id rev o
  | _, delete h id rev => h.delete cancelled id rev
  | _, bulk h edits o => h.bulk cancelled edits o
  | _, list h o => h.list cancelled o
  | _, changes h o => h.openFeed cancelled now o

/-- The call opens a feed without a look at a store. -/
def OpensUnread (m : Memory) : {α : Type} → Demand α → Prop
  | _, changes h o => m.OpensUnread h.name (h.effective o)
  | _, _ => False

/-- A call that fails leaves the databases as they are. -/
theorem kept (c : Client) (now : Nat) (cancelled : Bool) (d : Demand α) :
    FailsWithin Backend.Kept (d.call c now cancelled) := by
  cases d with
  | serverInfo o => exact (c.kept_serverInfo cancelled o).failsWithin
  | allDbs o => exact (c.kept_allDbs cancelled o).failsWithin
  | dbExists name o =>
    exact (Backend.kept_run (Memory.kept_dbExists cancelled name) _).failsWithin
  | createDb name o => exact c.kept_createDb cancelled name o
  | destroyDb name o => exact c.kept_destroyDb cancelled name o
  | openDb name o => exact (c.kept_openDb cancelled name o).failsWithin
  | uuids count => exact (c.kept_uuids cancelled count).failsWithin
  | membership => exact (c.kept_membership cancelled).failsWithin
  | info h => exact (h.kept_info cancelled).failsWithin
  | put h id body rev => exact h.kept_put cancelled id body rev
  | createDoc h body => exact h.kept_createDoc cancelled body
  | get h id rev o => exact (h.kept_get cancelled id rev o).failsWithin
  | delete h id rev => exact h.kept_delete cancelled id rev
  | bulk h edits o => exact h.kept_bulk cancelled edits o
  | list h o => exact (h.kept_list cancelled o).failsWithin
  | changes h o => exact (h.kept_openFeed cancelled now o).failsWithin

theorem stopsAt (c : Client) (now : Nat) {m : Memory} (d : Demand α)
    (hread : ¬ d.OpensUnread m) :
    StopsAt (.memory m) fun cancelled => d.call c now cancelled := by
  cases d with
  | serverInfo o => exact Backend.stopsAt_run (stopsAt_ensureLive.bind _) _
  | allDbs o => exact Backend.stopsAt_run (stopsAt_ensureLive.bind _) _
  | dbExists name o => exact Backend.stopsAt_run (stopsAt_ensureLive.bind _) _
  | createDb name o =>
    exact .after _ fun _ => Backend.stopsAt_run (stopsAt_ensureLive.bind _) _
  | destroyDb name o => exact Backend.stopsAt_run (stopsAt_ensureLive.bind _) _
  | openDb name o =>
    exact (Backend.stopsAt_run (stopsAt_ensureLive.bind _) _).bind _
  | uuids count =>
    have hgiven : StopsAt (.memory m) fun cancelled => Backend.uuids cancelled count :=
      Backend.stopsAt_run (stopsAt_ensureLive.bind _) _
    -- The count is looked at before the token is.
    show StopsAt _ fun cancelled => Client.uuids c cancelled count
    unfold Client.uuids
    split
    · exact .after _ fun _ => hgiven
    · exact hgiven
  | membership => exact Backend.stopsAt_run (stopsAt_ensureLive.bind _) _
  | info h => exact Backend.stopsAt_run (Memory.stopsAt_info h.name) _
  | put h id body rev => exact Backend.stopsAt_run (Memory.stopsAt_put h.name id body rev) _
  | createDoc h body => exact Backend.stopsAt_run (Memory.stopsAt_createDoc h.name body) _
  | get h id rev o => exact Backend.stopsAt_run (Memory.stopsAt_get h.name id rev _) _
  | delete h id rev => exact Backend.stopsAt_run (Memory.stopsAt_delete h.name id rev) _
  | bulk h edits o => exact Backend.stopsAt_run (Memory.stopsAt_bulk h.name edits _) _
  | list h o => exact Backend.stopsAt_run (Memory.stopsAt_list h.name _) _
  | changes h o => exact Backend.stopsAt_run (Memory.stopsAt_openFeed hread) _

theorem kept_cancelled (c : Client) (now : Nat) (m : Memory) (d : Demand α) :
    Backend.Kept (.memory m) ((d.call c now true).outcome (.memory m)).2 := by
  by_cases hread : d.OpensUnread m
  · cases d with
    | changes h o => exact h.kept_openFeed true now o (.memory m)
    | _ => exact hread.elim
  · obtain ⟨e, hstopped, -⟩ := d.stopsAt c now hread
    exact d.kept c now true (.memory m) e hstopped

theorem opened_unread (c : Client) (now : Nat) {m : Memory} {h : Handle} {o : Options}
    (hread : m.OpensUnread h.name (h.effective o)) :
    ∃ f, ((changes h o).call c now true).outcome (.memory m) = (.ok f, .memory m) ∧
      f.feed.buffer = [] := by
  obtain ⟨f, hopened, hempty⟩ := Memory.openFeed_of_opensUnread hread now
  refine ⟨f, ?_, hempty⟩
  show (((Memory.openFeed true now h.name (h.effective o)).outcome m).1,
    Backend.memory ((Memory.openFeed true now h.name (h.effective o)).outcome m).2) = _
  rw [hopened]

/-- A client of databases in memory whose token is cancelled, whatever it asks for: the call fails,
and the databases with their documents and logs stay as they are. The only exception is the feed of
an existing database that begins after a sequence number. It is opened, and as long as the token
is the cancelled one it ends without an entry. -/
theorem cancelled_outcome (c : Client) (now : Nat) (m : Memory) :
    (∀ {α : Type} (d : Demand α),
      (∃ ids, ((d.call c now true).outcome (.memory m)).2 = .memory { m with ids }) ∧
      (¬ d.OpensUnread m → StopsAt (.memory m) fun cancelled => d.call c now cancelled)) ∧
    ∀ h o, (changes h o).OpensUnread m →
      ∃ f, ((changes h o).call c now true).outcome (.memory m) = (.ok f, .memory m) ∧
        ∀ m' now', ∃ f', Memory.drain m' true now' f = ([], .ended, f') := by
  refine ⟨fun d => ⟨d.kept_cancelled c now m, d.stopsAt c now⟩, fun h o hread => ?_⟩
  obtain ⟨f, hopened, hempty⟩ := opened_unread c now hread
  refine ⟨f, hopened, fun m' now' => ?_⟩
  obtain ⟨g, hended⟩ := Feed.drain_cancelled (m'.source f) now' hempty
  exact ⟨{ f with feed := g }, by rw [Memory.drain, hended]⟩

/-- A feed that is opened although its token is cancelled. -/
theorem cancelled_feed_opened :
    let m := ((Memory.createDb false "d").outcome (.empty .initial)).2
    ((changes ⟨"d", .empty⟩ .empty).call ⟨"memory", "", .empty⟩ 0 true).outcome (.memory m) =
      (.ok ⟨0, ⟨.normal, 0, none, none, none, [], 0, .idle⟩⟩, .memory m) := by
  rfl

end Demand

end DocumentDb
