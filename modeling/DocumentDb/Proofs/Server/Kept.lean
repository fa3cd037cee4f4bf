import DocumentDb.Proofs.Backend.Kept
import DocumentDb.Proofs.Server.Actions
import DocumentDb.Server.Timeline

/-! # Requests that leave the databases as they are

A request leaves every database as it is, with its documents and its log, and the set of databases
too, unless it asks for a change and is answered with success. Several steps of a request may come
before the one that fails; none of them touches a database, and the step that writes is the last one
that may fail.

* `Ventures`: an action that keeps the databases unless it is answered with success.
* `Server.ventures_serve`, `Server.kept_serve_get`: routes, for all methods and for `GET`.
* `Server.Kept`: the same but for the supply of ids.
* `Server.kept_settleAll`: requests in the background that go on.
* `Server.kept_or_answered`: the whole of a request.
-/

namespace DocumentDb

/-! ## Actions -/

section
variable {α : Type} {R : Backend → Backend → Prop} {c : Call Backend α}

theorem Within.ofCall (hc : Within R c) : Within R (Action.ofCall c) := hc

theorem FailsWithin.ofCall (hc : FailsWithin R c) : FailsWithin R (Action.ofCall c) := by
  intro b e h
  change ((c.run.run b).1.mapError Failure.call) = .error e at h
  cases hr : (c.run.run b).1 with
  | error e' => exact hc b e' hr
  | ok a =>
    rw [hr] at h
    cases h

end

/-- An action keeps the databases, or else it is answered with success. -/
def Ventures (a : Action Reply) : Prop :=
  ∀ b, b.Kept (a.outcome b).2 ∨ ∃ r, (a.outcome b).1 = .ok (.ready r) ∧ r.status < 400

section
variable {α : Type} {a : Action Reply} {c : Action α}

theorem Within.ventures (ha : Within Backend.Kept a) : Ventures a := fun b => .inl (ha b)

theorem Ventures.bind {f : α → Action Reply} (hc : Within Backend.Kept c)
    (hf : ∀ x, Ventures (f x)) : Ventures (c >>= f) := by
  intro b
  have hfirst := hc b
  rw [Action.outcome_bind]
  change b.Kept (c.outcome b).2 at hfirst
  generalize c.outcome b = r at hfirst
  obtain ⟨x, b'⟩ := r
  cases x with
  | error e => exact .inl hfirst
  | ok x =>
    obtain hkept | hsuccess := hf x b'
    · exact .inl (IsTrans.trans _ _ _ hfirst hkept)
    · exact .inr hsuccess

/-- A write may be followed by nothing but the answer that tells of its success. -/
theorem Ventures.write {f : α → Action Reply} (hc : FailsWithin Backend.Kept c)
    (hf : ∀ x, ∃ status v, f x = Server.respond status v ∧ status < 400) :
    Ventures (c >>= f) := by
  intro b
  have hfirst := hc b
  rw [Action.outcome_bind]
  change ∀ e, (c.outcome b).1 = .error e → b.Kept (c.outcome b).2 at hfirst
  generalize c.outcome b = r at hfirst
  obtain ⟨x, b'⟩ := r
  cases x with
  | error e => exact .inl (hfirst e rfl)
  | ok x =>
    obtain ⟨status, v, hanswer, hstatus⟩ := hf x
    right
    refine ⟨.json status v, ?_, hstatus⟩
    show ((f x).outcome b').1 = _
    rw [hanswer]
    rfl

end

/-! ## Routes -/

theorem Route.get_of_head {route : Route} (hallowed : "HEAD" ∈ route.methods) :
    "GET" ∈ route.methods := by
  cases route <;> simp [methods] at hallowed ⊢

namespace Server

variable (s : Server) (h : Handle)

theorem kept_ofExcept {α : Type} (r : Except Error α) :
    Within Backend.Kept (Action.ofExcept r) :=
  Within.ofCall (Backend.kept_ofExcept r)

theorem kept_ofRequest {α : Type} (r : Except Failure α) :
    Within Backend.Kept (Action.ofRequest r) :=
  within_of_unmoved fun _ => rfl

theorem kept_respond (status : Nat) (v : Json) : Within Backend.Kept (respond status v) :=
  within_pure _

theorem kept_identify (r : Request) : Within Backend.Kept (s.identify r) := kept_ofExcept _

theorem kept_openDb (name : String) : Within Backend.Kept (s.openDb name) :=
  (s.client.kept_openDb s.stopping name .empty).ofCall

theorem kept_dbParameter (written : List Char) : Within Backend.Kept (dbParameter written) :=
  kept_ofRequest _

theorem kept_putDocument (id : String) (body : Json) (rev : Option Revision) :
    FailsWithin Backend.Kept (s.putDocument h id body rev) := by
  refine .bind (kept_ofExcept _) fun e => .bind (kept_ofRequest _) fun _ =>
    .bind (kept_ofRequest _) fun rev => ?_
  split
  · cases rev with
    | none => exact (within_throw _).failsWithin
    | some rev => exact (h.kept_delete s.stopping id rev).ofCall.bind_pure _
  · exact (h.kept_put s.stopping id e.body rev).ofCall.bind_pure _

theorem kept_postDocument (body : Json) :
    FailsWithin Backend.Kept (s.postDocument h body) := by
  unfold postDocument
  split
  · exact s.kept_putDocument h _ body none
  · exact .bind (kept_ofExcept _) fun e => (h.kept_createDoc s.stopping e.body).ofCall

theorem kept_bulkDocuments (r : Wire.BulkRequest) (o : Options) :
    FailsWithin Backend.Kept (s.bulkDocuments h r o) :=
  .bind (kept_ofExcept _) fun edits => (h.kept_bulk s.stopping edits _).ofCall

theorem kept_serveServer (route : Route) (r : Request) (o : Options) :
    Within Backend.Kept (s.serveServer route r o) := by
  have hidentify := s.kept_identify r
  unfold serveServer
  split
  · exact (s.client.kept_serverInfo s.stopping _).ofCall.bind fun _ => kept_respond _ _
  · exact (s.client.kept_allDbs s.stopping _).ofCall.bind fun _ => kept_respond _ _
  · exact (kept_ofExcept _).bind fun count =>
      (s.client.kept_uuids s.stopping count).ofCall.bind fun _ => kept_respond _ _
  · exact hidentify.bind fun _ =>
      (s.client.kept_membership s.stopping).ofCall.bind fun _ => kept_respond _ _
  · exact hidentify.bind fun _ => (kept_ofExcept _).bind fun _ => (kept_ofExcept _).bind fun _ =>
      (s.client.kept_log s.stopping _ _).ofCall.bind fun _ => within_pure _
  · exact hidentify.bind fun _ => kept_respond _ _

theorem kept_serveSettings (method : String) (route : Route) (r : Request) :
    Within Backend.Kept (s.serveSettings method route r) := by
  refine (s.kept_identify r).bind fun _ => ?_
  split
  · exact (kept_ofRequest _).bind fun _ => (kept_ofExcept _).bind fun _ => kept_respond _ _
  · split
    · exact (kept_ofRequest _).bind fun _ => (kept_ofRequest _).bind fun _ =>
        (kept_ofExcept _).bind fun _ => kept_respond _ _
    · exact within_throw _
  · exact kept_respond _ _

theorem kept_serveListing (db : List Char) (o : Options) :
    Within Backend.Kept (s.serveListing db o) :=
  (kept_dbParameter db).bind fun name => (s.kept_openDb name).bind fun h =>
    (h.kept_list s.stopping o).ofCall.bind fun _ => kept_respond _ _

theorem kept_serveChanges (now : Nat) (db : List Char) (o : Options) :
    Within Backend.Kept (s.serveChanges now db o) :=
  (kept_dbParameter db).bind fun name => (kept_ofExcept _).bind fun _ =>
    (s.kept_openDb name).bind fun h =>
      (h.kept_openFeed s.stopping now o).ofCall.bind fun _ => within_pure _

theorem kept_serveDatabase_get (db : List Char) (r : Request) :
    Within Backend.Kept (s.serveDatabase "GET" db r) :=
  (kept_dbParameter db).bind fun name => (s.kept_openDb name).bind fun h =>
    (h.kept_info s.stopping).ofCall.bind fun _ => kept_respond _ _

theorem ventures_serveDatabase (method : String) (db : List Char) (r : Request) :
    Ventures (s.serveDatabase method db r) := by
  unfold serveDatabase
  split
  · exact .bind (s.kept_identify r) fun _ => .bind (kept_dbParameter db) fun name =>
      .write (s.client.kept_createDb s.stopping name .empty).ofCall
        fun _ => ⟨201, _, rfl, by decide⟩
  · exact .bind (s.kept_identify r) fun _ => .bind (kept_dbParameter db) fun name =>
      .write (s.client.kept_destroyDb s.stopping name .empty).ofCall
        fun _ => ⟨200, _, rfl, by decide⟩
  · exact .bind (kept_dbParameter db) fun name => .bind (kept_ofRequest _) fun _ =>
      .bind (s.kept_openDb name) fun h => .bind (kept_ofRequest _) fun body =>
        .write (s.kept_postDocument h body) fun _ => ⟨201, _, rfl, by decide⟩
  · exact (s.kept_serveDatabase_get db r).ventures

theorem kept_serveDocument_get (db id : List Char) (r : Request) (o : Options) :
    Within Backend.Kept (s.serveDocument "GET" db id r o) :=
  (kept_dbParameter db).bind fun name => (kept_ofRequest _).bind fun id =>
    (kept_ofExcept _).bind fun rev => (s.kept_openDb name).bind fun h =>
      (h.kept_get s.stopping id rev o).ofCall.bind fun _ => kept_respond _ _

theorem ventures_serveDocument (method : String) (db id : List Char) (r : Request) (o : Options) :
    Ventures (s.serveDocument method db id r o) := by
  refine .bind (kept_dbParameter db) fun name => .bind (kept_ofRequest _) fun id => ?_
  split
  · exact .bind (kept_ofRequest _) fun _ => .bind (kept_ofExcept _) fun rev =>
      .bind (kept_ofRequest _) fun body => .bind (s.kept_openDb name) fun h =>
        .write (s.kept_putDocument h id body rev) fun _ => ⟨201, _, rfl, by decide⟩
  · refine .bind (s.kept_openDb name) fun h => .bind (kept_ofExcept _) fun rev => ?_
    cases rev with
    | none => exact (within_throw _).ventures
    | some rev =>
      exact .write (h.kept_delete s.stopping id rev).ofCall fun _ => ⟨200, _, rfl, by decide⟩
  · refine Within.ventures ((kept_ofExcept _).bind fun rev => (s.kept_openDb name).bind fun h => ?_)
    exact (h.kept_get s.stopping id rev o).ofCall.bind fun _ => kept_respond _ _

theorem ventures_serveBulk (db : List Char) (r : Request) (o : Options) :
    Ventures (s.serveBulk db r o) :=
  .bind (kept_dbParameter db) fun name => .bind (kept_ofRequest _) fun _ =>
    .bind (kept_ofRequest _) fun request => .bind (s.kept_openDb name) fun h =>
      .write (s.kept_bulkDocuments h request o) fun _ => ⟨201, _, rfl, by decide⟩

theorem ventures_serve (now : Nat) (method : String) (route : Route) (r : Request) (o : Options) :
    Ventures (s.serve now method route r o) := by
  unfold serve
  split
  · exact (s.kept_serveSettings method _ r).ventures
  · exact (s.kept_serveSettings method _ r).ventures
  · exact (s.kept_serveSettings method _ r).ventures
  · exact s.ventures_serveDatabase method _ r
  · exact (s.kept_serveListing _ o).ventures
  · exact s.ventures_serveBulk _ r o
  · exact (s.kept_serveChanges now _ o).ventures
  · exact s.ventures_serveDocument method _ _ r o
  · exact (s.kept_serveServer _ r o).ventures

theorem kept_serve_get {route : Route} (hallowed : "GET" ∈ route.methods) (now : Nat) (r : Request)
    (o : Options) : Within Backend.Kept (s.serve now "GET" route r o) := by
  unfold serve
  split
  · exact s.kept_serveSettings "GET" _ r
  · exact s.kept_serveSettings "GET" _ r
  · exact s.kept_serveSettings "GET" _ r
  · exact s.kept_serveDatabase_get _ r
  · exact s.kept_serveListing _ o
  · simp [Route.methods] at hallowed
  · exact s.kept_serveChanges now _ o
  · exact s.kept_serveDocument_get _ _ r o
  · exact s.kept_serveServer _ r o

/-! ## Requests -/

/-- A request that is served by another method than reading is answered with success. -/
def Succeeds (r : Request) (response : Option Response) : Prop :=
  r.method ≠ "GET" ∧ r.method ≠ "HEAD" ∧ ∃ answer, response = some answer ∧ answer.status < 400

/-- The databases of two servers, each with its documents and its log, and the set of them are the
same, and so is the rest of the servers but for the supply of ids. -/
def Kept (s s' : Server) : Prop := ∃ ids, s' = { s with backend := s.backend.withIds ids }

protected theorem Kept.refl (s : Server) : s.Kept s := by
  obtain ⟨ids, hids⟩ : s.backend.Kept s.backend := Std.Refl.refl _
  refine ⟨ids, ?_⟩
  rw [← hids]

variable {s}

protected theorem Kept.trans {s' s'' : Server} (h : s.Kept s') (h' : s'.Kept s'') : s.Kept s'' := by
  obtain ⟨ids, rfl⟩ := h
  obtain ⟨ids', rfl⟩ := h'
  refine ⟨ids', ?_⟩
  cases s.backend <;> rfl

theorem Kept.of_backend {b : Backend} (hb : s.backend.Kept b) : s.Kept { s with backend := b } := by
  obtain ⟨ids, rfl⟩ := hb
  exact ⟨ids, rfl⟩

/-- The method by which a request is served. -/
def servedMethod (method : String) : String := if method = "HEAD" then "GET" else method

/-- A request is answered at once, or by the action of a route that allows its method. -/
theorem handle_cases (now : Nat) (r : Request) :
    (s.handle now r).2 = s ∨
      ∃ route o, r.method ∈ route.methods ∧
        ∀ a, a = s.serve now (servedMethod r.method) route r o →
          (s.handle now r).2 = { s with backend := (a.outcome s.backend).2 } ∧
          ∀ reply, (a.outcome s.backend).1 = .ok reply → (s.handle now r).1 = reply := by
  cases hroute : Route.ofPath? (Target.ofText r.target).parts with
  | none =>
    left
    simp only [handle, hroute]
  | some route =>
    by_cases hoptions : r.method = "OPTIONS"
    · left
      simp only [handle, hroute, hoptions, if_true]
    by_cases hallowed : r.method ∈ route.methods
    · right
      refine ⟨route, Options.ofQuery (Percent.pairs (Target.ofText r.target).query), hallowed, ?_⟩
      rintro a rfl
      have hrefused : ¬ (!route.methods.contains r.method) = true := by simpa using hallowed
      simp only [handle, hroute, if_neg hoptions, if_neg hrefused]
      unfold servedMethod
      generalize (Server.serve _ _ _ _ _ _).outcome s.backend = answer
      obtain ⟨answer | answer, b⟩ := answer
      · exact ⟨rfl, fun _ h => nomatch h⟩
      · exact ⟨rfl, fun reply h => by cases h; rfl⟩
    · left
      have hrefused : (!route.methods.contains r.method) = true := by simpa using hallowed
      simp only [handle, hroute, if_neg hoptions, if_pos hrefused]

theorem kept_handle_or_ready (now : Nat) (r : Request) :
    s.Kept (s.handle now r).2 ∨
      ∃ answer, (s.handle now r).1 = .ready answer ∧ Succeeds r (some answer) := by
  obtain hsame | ⟨route, o, hallowed, hserved⟩ := s.handle_cases now r
  · left
    rw [hsame]
    exact Kept.refl s
  obtain ⟨hafter, hreply⟩ := hserved _ rfl
  rw [hafter]
  by_cases hget : r.method = "GET" ∨ r.method = "HEAD"
  · left
    -- Every route that allows `HEAD` allows `GET`, as which it is served.
    have hmethod : servedMethod r.method = "GET" := by
      obtain h | h := hget <;> rw [h] <;> rfl
    have hroute : "GET" ∈ route.methods := by
      obtain h | h := hget
      · rwa [h] at hallowed
      · rw [h] at hallowed
        exact route.get_of_head hallowed
    rw [hmethod]
    exact .of_backend (s.kept_serve_get hroute now r o s.backend)
  · rw [not_or] at hget
    obtain hkept | ⟨response, hanswer, hstatus⟩ :=
      s.ventures_serve now (servedMethod r.method) route r o s.backend
    · exact .inl (.of_backend hkept)
    · exact .inr ⟨response, hreply _ hanswer, hget.1, hget.2, response, rfl, hstatus⟩

theorem kept_collect (h : Handle) (es : List ChangeEntry) : s.Kept (s.collect h es).2 := by
  unfold collect
  split
  · exact Kept.refl s
  · have hinfo := (h.kept_info s.stopping).ofCall s.backend
    change s.backend.Kept ((Action.ofCall (h.info s.stopping)).outcome s.backend).2 at hinfo
    generalize (Action.ofCall (h.info s.stopping)).outcome s.backend = answer at hinfo ⊢
    obtain ⟨answer | answer, b⟩ := answer
    · exact .of_backend hinfo
    · exact .of_backend hinfo

/-! ## Requests that take time -/

theorem kept_settle (u : Underway) (now : Nat) : s.Kept (u.settle s now).2 := by
  unfold Underway.settle
  split
  · exact Kept.refl s
  · next h f got _ =>
    split
    · split_ifs
      · exact Kept.refl s
      · exact Kept.refl s
    · exact kept_collect h _
  · split
    · split_ifs
      · exact Kept.refl s
      · exact Kept.refl s
    · exact Kept.refl s

theorem kept_settleBy (u : Underway) (now : Nat) : s.Kept (u.settleBy s now).2 := by
  unfold Underway.settleBy
  split
  · exact Kept.refl s
  · exact kept_settle u _

theorem kept_settleAll (now : Nat) (us : List (String × Underway)) (s : Server) :
    s.Kept (Timeline.settleAll now us s).2 := by
  induction us generalizing s with
  | nil => exact Kept.refl s
  | cons u us ih => exact (kept_settleBy u.2 now).trans (ih _)

theorem kept_advance (t : Timeline) (now : Nat) : t.server.Kept (t.advance now).server :=
  kept_settleAll now _ t.server

theorem kept_wait (t : Timeline) (u : Underway) : t.server.Kept (t.wait u).2.server := by
  have hsettled : t.server.Kept (u.settleBy t.server t.clock).2 := kept_settleBy u t.clock
  unfold Timeline.wait
  dsimp only
  split
  · exact hsettled
  · have hadvanced := kept_advance ⟨(u.settleBy t.server t.clock).2, t.clock, t.background⟩
    exact hsettled.trans ((hadvanced _).trans (kept_settle _ _))

/-- A request that the server takes on leaves the databases as they are, or else its answer is
complete from the beginning and tells of success. -/
theorem kept_take_or_answered (t : Timeline) (r : Request) :
    t.server.Kept (t.take r).2.server ∨
      ∃ answer, (t.take r).1.running = .answered ⟨some answer, false⟩ ∧
        Succeeds r (some answer) := by
  obtain hkept | ⟨answer, hready, hsuccess⟩ := kept_handle_or_ready (s := t.server) t.clock r
  · exact .inl hkept
  · right
    refine ⟨answer, ?_, hsuccess⟩
    have hbody : (r.method == "HEAD") = false := beq_false_of_ne hsuccess.2.1
    show (Underway.ofReply t.clock (r.method == "HEAD") (t.server.handle t.clock r).1).running = _
    rw [hready, hbody]
    rfl

theorem wait_answered (t : Timeline) {u : Underway} {a : Answered} (hu : u.running = .answered a) :
    (t.wait u).1 = a := by
  have hend : u.endTime? = none := by simp [Underway.endTime?, Underway.feed?, hu]
  simp [Timeline.wait, Underway.settleBy, hend, Underway.answer?, hu]

/-- A request that is waited for, one that goes on in the background and the wait for one that is
under way leave the databases as they are, unless the request is not one for reading and is answered
with success: whatever fails, and wherever, nothing has been changed before. -/
theorem kept_or_answered (t : Timeline) (r : Request) :
    (t.server.Kept (t.run r).2.server ∨ Succeeds r (t.run r).1.response) ∧
      (∀ name, t.server.Kept (t.begin name r).server ∨
        Succeeds r ((((t.begin name r).background.get? name).bind (·.answer?)).bind (·.response))) ∧
      ∀ u, t.server.Kept (t.wait u).2.server := by
  refine ⟨?_, fun name => ?_, kept_wait t⟩
  · obtain hkept | ⟨answer, hready, hsuccess⟩ := kept_take_or_answered t r
    -- Nothing has been written, so what the wait makes of the answer does not matter.
    · have hwaited := kept_wait (t.take r).2 (t.take r).1
      exact .inl (hkept.trans hwaited)
    · right
      have hanswer : (t.run r).1 = ⟨some answer, false⟩ := wait_answered _ hready
      rwa [hanswer]
  · obtain hkept | ⟨answer, hready, hsuccess⟩ := kept_take_or_answered (t.advance t.clock) r
    · exact .inl ((kept_advance t t.clock).trans hkept)
    · right
      have hheld : (t.begin name r).background.get? name = some ((t.advance t.clock).take r).1 :=
        SortedMap.get?_insert_self _ _ _
      rw [hheld]
      simpa [Underway.answer?, hready] using hsuccess

end Server

end DocumentDb
