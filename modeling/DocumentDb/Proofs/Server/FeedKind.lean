import DocumentDb.Proofs.Document.Wire
import DocumentDb.Proofs.Feed.Delivery
import DocumentDb.Proofs.Json.Alike
import DocumentDb.Proofs.Server.Changes
import DocumentDb.Proofs.Server.Protected

/-! # The kind of a feed, as the server and as the client see it

The options of a request for changes are read twice: by the server, which decides how to answer, and
by the client, which opens the feed and puts its default options under them. The server sends the
entries as they come if the request asks for a continuous feed by itself. A feed that is continuous
by default alone is collected, and if nothing else ends it the request is never answered.

* `ChangesQuery.continuous_iff`: the kind that a set of options asks for.
* `Server.changes_opened`: both readings of a request.
* `Feed.Endless`, `Feed.Endless.steps`: feeds that do not end by themselves.
* `Feed.Endless.unanswered`: a request that collects one gets no answer.
* `Server.feed_kinds_agree_iff`: when the two readings agree.
* `Server.default_kind_collected`: a request for which they do not.
-/

namespace DocumentDb

/-! ## The kind that options ask for -/

/-- The text of a kind is no number. -/
theorem Options.getString_continuous {o : Options} {key : String} :
    o.getString key = .ok (some "continuous") ↔ o.get? key = some (.string "continuous") := by
  unfold getString
  split
  · next h => simp [h]
  · next h => simp [h]
  · next text h => simp [h]
  · next n h =>
    have hne : String.ofList n.chars ≠ "continuous" := by
      intro htext
      have hchars : n.chars = "continuous".toList := by rw [← htext, String.toList_ofList]
      have hall := n.all_chars
      rw [hchars] at hall
      cases hall
    simp [h, hne]
  · next v _ hstring _ h =>
    rw [h]
    constructor
    · intro hcontra
      cases hcontra
    · intro hcontra
      cases hcontra
      exact absurd rfl (hstring "continuous")

theorem FeedKind.name_of_parse {name : String} {kind : FeedKind} (h : parse name = .ok kind) :
    kind.name = name := by
  unfold parse at h
  cases hfound : ofName? name with
  | none =>
    rw [hfound] at h
    cases h
  | some k =>
    rw [hfound] at h
    cases h
    have hmatch := List.find?_some hfound
    exact eq_of_beq hmatch

theorem ChangesQuery.readFeed_continuous {text : Option String} {kind : FeedKind}
    (h : readFeed text = .ok kind) : kind = .continuous ↔ text = some "continuous" := by
  cases text with
  | none =>
    cases h
    simp
  | some name =>
    rw [← FeedKind.name_of_parse h]
    cases kind <;> simp [FeedKind.name]

theorem ChangesQuery.continuous_iff {o : Options} {q : ChangesQuery} (h : ofOptions o = .ok q) :
    q.feed = .continuous ↔ o.get? "feed" = some (.string "continuous") := by
  obtain ⟨since, -, h⟩ := Except.bind_eq_ok.1 h
  obtain ⟨place, -, h⟩ := Except.bind_eq_ok.1 h
  obtain ⟨text, htext, h⟩ := Except.bind_eq_ok.1 h
  obtain ⟨kind, hkind, h⟩ := Except.bind_eq_ok.1 h
  obtain ⟨timeout, -, h⟩ := Except.bind_eq_ok.1 h
  obtain ⟨limit, -, h⟩ := Except.bind_eq_ok.1 h
  cases h
  rw [readFeed_continuous hkind, ← Options.getString_continuous, htext, Except.ok.injEq]

/-! ## Both readings of a request -/

/-- The feed that a reply goes on with, none if it is complete. -/
def Reply.feed? : Reply → Option OpenFeed
  | ready _ => none
  | collected _ feed => some feed
  | streamed feed => some feed

/-- Whether a reply sends the entries of a feed as they come. -/
def Reply.isStreamed : Reply → Bool
  | streamed _ => true
  | _ => false

namespace Server

variable {s : Server} {r : Request} {db : List Char} {now : Nat} {o : Options} {feed : OpenFeed}
  {b : Backend} {reply : Reply}

theorem openFeed_kind {h : Handle}
    (hfeed : ((h.openFeed s.stopping now o).outcome b).1 = .ok feed) :
    ∃ q start seen, ChangesQuery.ofOptions (h.defaults.layer o) = .ok q ∧
      feed.feed = Feed.start q seen start now := by
  cases b with
  | memory m =>
    obtain ⟨q, db, hq, -, hsubscribed⟩ := Feed.openFeed_eq_ok (m := m) hfeed
    obtain ⟨start, -, hstart⟩ := Feed.subscribe_eq_ok hsubscribed
    exact ⟨q, start, _, hq, hstart⟩
  | answering a => cases hfeed

theorem openDb_eq_ok {name : String} {h : Handle} {b' : Backend}
    (hopened : (s.openDb name).outcome b = (.ok h, b')) : h = ⟨name, s.client.defaults⟩ := by
  have hcall := Action.ofCall_eq_ok.1 hopened
  unfold Client.openDb at hcall
  rw [Call.outcome_bind] at hcall
  generalize Call.outcome _ b = answer at hcall
  obtain ⟨e | opened, b₁⟩ := answer
  · cases hcall
  · cases hcall
    rfl

theorem serveChanges_eq_ok {b' : Backend}
    (h : (s.serveChanges now db o).outcome b = (.ok reply, b')) :
    ∃ q hd feed b₁, ChangesQuery.ofOptions o = .ok q ∧ hd.defaults = s.client.defaults ∧
      ((hd.openFeed s.stopping now o).outcome b₁).1 = .ok feed ∧
      reply = if q.feed = .continuous then .streamed feed else .collected hd feed := by
  obtain ⟨name, b₁, -, h⟩ := Action.bind_eq_ok.1 h
  obtain ⟨q, b₂, hq, h⟩ := Action.bind_eq_ok.1 h
  obtain ⟨hd, b₃, hopened, h⟩ := Action.bind_eq_ok.1 h
  obtain ⟨feed, b₄, hfeed, h⟩ := Action.bind_eq_ok.1 h
  refine ⟨q, hd, feed, b₃, (Action.ofExcept_eq_ok.1 hq).1, ?_, ?_, ?_⟩
  · rw [openDb_eq_ok hopened]
  · rw [Action.ofCall_eq_ok.1 hfeed]
  · cases h
    rfl

/-- A feed comes from a handler that has read the options of the request, and from a client that has
read them with its default options underneath. -/
theorem changes_opened (hroute : r.route? = some (.changes db))
    (hfeed : (s.handle now r).1.feed? = some feed) :
    ∃ q q' start seen, ChangesQuery.ofOptions r.options = .ok q ∧
      ChangesQuery.ofOptions (s.client.defaults.layer r.options) = .ok q' ∧
      feed.feed = Feed.start q' seen start now ∧
      ((s.handle now r).1.isStreamed = true ↔ q.feed = .continuous) := by
  by_cases hmethod : r.method ∈ (Route.changes db).methods
  · rw [handle_of_mem hroute hmethod] at hfeed ⊢
    have hserve : s.serve now (servedMethod r.method) (.changes db) r r.options =
        s.serveChanges now db r.options := rfl
    rw [hserve] at hfeed ⊢
    cases hdone : (s.serveChanges now db r.options).outcome s.backend with
    | mk answer b' =>
      rw [hdone] at hfeed
      cases answer with
      | error e => cases hfeed
      | ok reply =>
        obtain ⟨q, hd, opened, b₁, hq, hdefaults, hopened, hreply⟩ := serveChanges_eq_ok hdone
        obtain ⟨q', start, seen, hq', hstart⟩ := openFeed_kind hopened
        rw [hdefaults] at hq'
        have hsame : reply.feed? = some opened := by
          rw [hreply]
          split <;> rfl
        have hkind : reply.isStreamed = true ↔ q.feed = .continuous := by
          rw [hreply]
          split
          · next h => simp [Reply.isStreamed, h]
          · next h => simp [Reply.isStreamed, h]
        have hsome : reply.feed? = some feed := hfeed
        rw [hsame, Option.some.injEq] at hsome
        subst hsome
        exact ⟨q, q', start, seen, hq, hq', hstart, hkind⟩
  · rw [handle_of_not_mem hroute hmethod] at hfeed
    cases hfeed

end Server

/-! ## Feeds that do not end by themselves -/

/-- A feed that goes on after every entry and waits for the next one as long as it takes. -/
structure Feed.Endless (f : Feed) : Prop where
  kind : f.kind = .continuous
  remaining : f.remaining = none
  timeout : f.timeout = none
  deadline : f.deadline = none
  phase : f.phase ≠ .done

namespace Feed

variable {f g : Feed} {db : Database} {now : Nat} {es : List ChangeEntry}

theorem endless_start_iff {q : ChangesQuery} {seen since : Nat} :
    (Feed.start q seen since now).Endless ↔
      q.feed = .continuous ∧ q.timeout = none ∧ q.limit = none := by
  constructor
  · exact fun h => ⟨h.kind, h.timeout, h.remaining⟩
  · rintro ⟨hkind, htimeout, hlimit⟩
    refine ⟨hkind, hlimit, htimeout, ?_, by simp [Feed.start]⟩
    show q.timeout.map (now + ·) = none
    rw [htimeout, Option.map_none]

theorem Endless.receive (h : f.Endless) (entries : List ChangeEntry) :
    (f.receive now entries).Endless := by
  unfold Feed.receive
  cases entries.getLast? with
  | none =>
    have hnormal : f.kind ≠ .normal := by simp [h.kind]
    dsimp only
    rw [if_neg hnormal]
    exact ⟨h.kind, h.remaining, h.timeout, h.deadline, by simp [park]⟩
  | some last =>
    exact ⟨h.kind, by simp [h.remaining], h.timeout, by simp [h.timeout], by simp [h.kind]⟩

/-- Nothing but a cancelled token or the end of its database ends such a feed. -/
theorem Endless.step (h : f.Endless) (hopen : db.closed = false)
    (hstep : f.Step db false now es g) : g.Endless := by
  have hwaits : f.expired now = false := by simp [expired, h.deadline]
  cases hstep with
  | hand _ => exact ⟨h.kind, h.remaining, h.timeout, h.deadline, h.phase⟩
  | stop _ _ hspent => simp [spent, h.phase, h.remaining] at hspent
  | mark _ _ _ => exact ⟨h.kind, h.remaining, h.timeout, h.deadline, by simp [Feed.mark]⟩
  | read _ _ => exact h.receive _
  | fail _ hread =>
    obtain ⟨-, hcancelled⟩ | ⟨-, hclosed⟩ := Database.read_eq_error hread
    · cases hcancelled
    · simp [hopen] at hclosed
  | cancel _ hcancelled => cases hcancelled
  | expire _ hexpired => simp [hwaits] at hexpired
  | lose _ _ hclosed => simp [hopen] at hclosed
  | wake _ _ _ => exact ⟨h.kind, h.remaining, h.timeout, h.deadline, by simp [Feed.resume]⟩

theorem Endless.steps (h : f.Endless) (hopen : db.closed = false)
    (hsteps : f.Steps db false now es g) : g.Endless := by
  induction hsteps with
  | refl => exact h
  | tail _ hstep ih => exact ih.step hopen hstep

/-- A request that collects the entries of such a feed is not answered while the server is up and
the database is open. It goes on with such a feed until it is given up. -/
theorem Endless.unanswered {u : Underway} {s : Server} {hd : Handle} {feed : OpenFeed}
    {got : List ChangeEntry} {m : Memory} (h : feed.feed.Endless)
    (hmarked : feed.feed.phase ≠ .marked) (hu : u.running = .collecting hd feed got)
    (hlive : s.stopping = false) (hm : s.backend = .memory m)
    (hsource : m.databases[feed.source]? = some db) (hopen : db.closed = false) (now : Nat) :
    u.settle s now = (u.answer none true, s) ∨
      ∃ f es, f.Endless ∧ f.phase ≠ .marked ∧ u.settle s now =
        ({ u with running := .collecting hd { feed with feed := f } (got ++ es) }, s) := by
  have hdb : m.source feed = db := source_eq hsource
  obtain ⟨hsteps, hphase, hanswer⟩ := drain_steps db false now hmarked
  have hstill := h.steps hopen hsteps
  have hpending : (feed.feed.drain db false now).2.1 = .pending :=
    hanswer.resolve_right fun hended => hstill.phase hended.2.2
  unfold Underway.settle
  rw [hu, hm, hlive]
  dsimp only [Backend.drain, Memory.drain]
  rw [hdb]
  generalize feed.feed.drain db false now = drained at hphase hstill hpending
  obtain ⟨es, p, f⟩ := drained
  obtain rfl : p = .pending := hpending
  dsimp only
  split
  · exact .inl rfl
  · exact .inr ⟨f, es, hstill, hphase, rfl⟩

end Feed

/-! ## When both readings agree -/

namespace Server

variable {s : Server} {r : Request} {db : List Char} {now : Nat} {feed : OpenFeed}

/-- The entries of a feed are sent as they come exactly if it is continuous, unless the request says
nothing of the kind and the default options of the client ask for a continuous feed. Then a
continuous feed is collected, which has no end of its own unless a time or a number of entries is
set. -/
theorem feed_kinds_agree_iff (hroute : r.route? = some (.changes db))
    (hfeed : (s.handle now r).1.feed? = some feed) :
    (((s.handle now r).1.isStreamed = true ↔ feed.feed.kind = .continuous) ↔
      r.options.contains "feed" = true ∨
        s.client.defaults.get? "feed" ≠ some (.string "continuous")) ∧
    ∃ q, ChangesQuery.ofOptions (s.client.defaults.layer r.options) = .ok q ∧
      feed.feed.kind = q.feed ∧
      ((s.handle now r).1.isStreamed = false →
        (feed.feed.Endless ↔ r.options.contains "feed" = false ∧
          s.client.defaults.get? "feed" = some (.string "continuous") ∧
          q.timeout = none ∧ q.limit = none)) := by
  obtain ⟨q, q', start, seen, hq, hq', hstart, hstreamed⟩ := changes_opened hroute hfeed
  have hserver := ChangesQuery.continuous_iff hq
  have hclient := ChangesQuery.continuous_iff hq'
  rw [Options.get?_layer] at hclient
  have hkind : feed.feed.kind = q'.feed := by
    rw [hstart]
    rfl
  have hendless : feed.feed.Endless ↔
      q'.feed = .continuous ∧ q'.timeout = none ∧ q'.limit = none := by
    rw [hstart]
    exact Feed.endless_start_iff
  have hset : r.options.contains "feed" = (r.options.get? "feed").isSome := rfl
  cases hoption : r.options.get? "feed" with
  | none =>
    rw [hoption, Option.none_or] at hclient
    rw [hoption] at hserver hset
    refine ⟨?_, q', hq', hkind, fun _ => ?_⟩
    · rw [hstreamed, hserver, hkind, hclient, hset]
      simp
    · rw [hendless, hclient, hset]
      simp
  | some v =>
    rw [hoption, Option.some_or] at hclient
    rw [hoption] at hserver hset
    refine ⟨?_, q', hq', hkind, fun hcollected => ?_⟩
    · rw [hstreamed, hserver, hkind, hclient, hset]
      simp
    · have hother : q'.feed ≠ .continuous := by
        rw [ne_eq, hclient, ← hserver, ← hstreamed, hcollected]
        decide
      rw [hendless, hset]
      simp [hother]

/-- A server in front of a database with one change, whose client asks for continuous feeds. -/
def following : Server :=
  (hosting oneChange).withDefaults (Options.empty.set "feed" (.string "continuous"))

/-- A request that asks for a feed of its own kind gets one. -/
theorem other_kind_honoured :
    let r : Request := ⟨"GET", "/d/_changes?feed=longpoll", [], []⟩
    ∃ feed, (following.handle 0 r).1.feed? = some feed ∧
      ((following.handle 0 r).1.isStreamed = true ↔ feed.feed.kind = .continuous) := by
  intro r
  have hroute : r.route? = some (.changes ['d']) := by decide +kernel
  have hset : r.options.contains "feed" = true := by decide +kernel
  have hopened : ((following.handle 0 r).1.feed?).isSome = true := by decide +kernel
  obtain ⟨feed, hfeed⟩ := Option.isSome_iff_exists.1 hopened
  exact ⟨feed, hfeed, (feed_kinds_agree_iff hroute hfeed).1.2 (.inl hset)⟩

/-- A request that leaves the kind to the client has to wait until it is given up. -/
theorem default_kind_collected :
    let r : Request := ⟨"GET", "/d/_changes", [], []⟩
    r.route? = some (.changes ['d']) ∧
      (∃ feed, (following.handle 0 r).1.feed? = some feed ∧
        (following.handle 0 r).1.isStreamed = false ∧ feed.feed.kind = .continuous) ∧
      ((Timeline.start following).run r).1 = ⟨none, true⟩ := by
  intro r
  refine ⟨by decide +kernel, ?_, by decide +kernel⟩
  have hopened : ((following.handle 0 r).1.feed?.map (·.feed.kind)) = some .continuous := by
    decide +kernel
  obtain ⟨feed, hfeed, hkind⟩ := Option.map_eq_some_iff.1 hopened
  exact ⟨feed, hfeed, by decide +kernel, hkind⟩

end Server

end DocumentDb
