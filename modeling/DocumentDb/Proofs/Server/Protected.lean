import DocumentDb.Proofs.Auth.Chain
import DocumentDb.Proofs.Server.Kept

/-! # Routes that ask who a request comes from

Some routes demand credentials before they do anything else. Whoever is not let in learns nothing
but why, and changes nothing.

* `Route.isProtected`: these routes.
* `Server.handler`, `Server.serve_protected`: what they do for a user who has been found.
* `Server.Guarded`: a request gets to its handler through the chain of authenticators only.
* `Server.protected_guarded`: all requests to protected routes do.
-/

namespace DocumentDb

/-- The routes with the methods that demand credentials. -/
def Route.isProtected (method : String) : Route → Bool
  | membership => true
  | log => true
  | session => true
  | settings => true
  | settingsSection _ => true
  | setting _ _ => true
  | database _ => method = "PUT" || method = "DELETE"
  | _ => false

/-- The answer to a request by a method that the route does not serve. -/
def Route.refusal (route : Route) (method : String) : Response :=
  { Response.empty (if method = "OPTIONS" then 200 else 405) with allow := some route.allow }

namespace Request

def route? (r : Request) : Option Route := Route.ofPath? (Target.ofText r.target).parts

def options (r : Request) : Options := .ofQuery (Percent.pairs (Target.ofText r.target).query)

end Request

namespace Server

variable {s : Server} {r : Request} {route : Route} {e : Error}

/-! ## Behind the authentication -/

/-- What a protected route does for a user who has been found, none for the other routes. -/
def handler (s : Server) (method : String) (o : Options) : Route → Option (Identity → Action Reply)
  | .membership => some fun _ => do
    respond 200 (← Action.ofCall (s.client.membership s.stopping)).encode
  | .log => some fun _ => do
    let length ← Action.ofExcept (o.getNat "bytes")
    let offset ← Action.ofExcept (o.getNat "offset")
    let text ← Action.ofCall (s.client.log s.stopping (length.getD 1000) (offset.getD 0))
    return .ready (.text 200 Response.plainText text)
  | .session => some fun who => respond 200 (s.sessionJson who)
  | .settings => some fun _ => respond 200 (.ofMap (s.settings.sections.map sectionJson))
  | .settingsSection name => some fun _ => do
    let name ← Action.ofRequest (parameter "section" name)
    respond 200 (sectionJson (← Action.ofExcept (s.settings.getSection name)))
  | .setting name key => some fun _ => do
    if method = "GET" then
      let name ← Action.ofRequest (parameter "section" name)
      let key ← Action.ofRequest (parameter "key" key)
      respond 200 (.string (← Action.ofExcept (s.settings.get name key)))
    else throw (.call (.notImplemented "configuration is read-only"))
  | .database db =>
    if method = "PUT" then
      some fun _ => do
        let name ← dbParameter db
        Action.ofCall (s.client.createDb s.stopping name .empty)
        respond 201 Wire.ok
    else if method = "DELETE" then
      some fun _ => do
        let name ← dbParameter db
        Action.ofCall (s.client.destroyDb s.stopping name .empty)
        respond 200 Wire.ok
    else none
  | _ => none

theorem isSome_handler (method : String) (o : Options) (route : Route) :
    (s.handler method o route).isSome = route.isProtected method := by
  cases route with
  | database db =>
    unfold handler Route.isProtected
    by_cases hput : method = "PUT"
    · simp [hput]
    · by_cases hdelete : method = "DELETE" <;> simp [hput, hdelete]
  | _ => rfl

/-- A protected route finds out the user first. -/
theorem serve_protected {method : String} {o : Options} {f : Identity → Action Reply}
    (hf : s.handler method o route = some f) (now : Nat) (r : Request) :
    s.serve now method route r o = s.identify r >>= f := by
  cases route with
  | database db =>
    unfold handler at hf
    by_cases hput : method = "PUT"
    · subst hput
      cases hf
      rfl
    · by_cases hdelete : method = "DELETE"
      · subst hdelete
        cases hf
        rfl
      · simp [hput, hdelete] at hf
  | _ =>
    cases hf <;> rfl

/-! ## The whole of a request -/

/-- The reply of an action and the server after it. -/
def conclude (s : Server) (done : Except Failure Reply × Backend) : Reply × Server :=
  match done with
  | (.ok reply, b) => (reply, { s with backend := b })
  | (.error e, b) => (.ready e.response, { s with backend := b })

theorem handle_of_mem (hroute : r.route? = some route) (hmethod : r.method ∈ route.methods)
    (now : Nat) :
    s.handle now r =
      s.conclude ((s.serve now (servedMethod r.method) route r r.options).outcome s.backend) := by
  -- No route lists OPTIONS, which every route answers.
  have hoptions : r.method ≠ "OPTIONS" := by
    intro h
    rw [h] at hmethod
    cases route <;> simp [Route.methods] at hmethod
  have hrefused : ¬ (!route.methods.contains r.method) = true := by simpa using hmethod
  unfold Request.route? at hroute
  simp only [handle, hroute, if_neg hoptions, if_neg hrefused]
  rfl

theorem handle_of_not_mem (hroute : r.route? = some route) (hmethod : r.method ∉ route.methods)
    (now : Nat) : s.handle now r = (.ready (route.refusal r.method), s) := by
  unfold Request.route? at hroute
  unfold Route.refusal
  by_cases hoptions : r.method = "OPTIONS"
  · simp only [handle, hroute, if_pos hoptions]
  · have hrefused : (!route.methods.contains r.method) = true := by simpa using hmethod
    simp only [handle, hroute, if_neg hoptions, if_pos hrefused]

/-- What a server has to know to find out who a request comes from. -/
def SameGate (s s' : Server) : Prop :=
  s'.chain = s.chain ∧ s'.users = s.users ∧ s'.authRequired = s.authRequired ∧
    s'.stopping = s.stopping

theorem SameGate.authorize {s' : Server} (h : s.SameGate s') (r : Request) :
    s'.authorize r = s.authorize r := by
  obtain ⟨hchain, husers, hrequired, hstopping⟩ := h
  unfold Server.authorize
  rw [hchain, husers, hrequired, hstopping]

theorem authorize_eq (hrequired : s.authRequired = true) (hlive : s.stopping = false) :
    s.authorize r = (s.chain.authenticate r s.users false).map fun a => ⟨a.user, some a.method⟩ := by
  simp [authorize, hrequired, hlive]

theorem authorize_eq_ok_iff (hrequired : s.authRequired = true) (hlive : s.stopping = false)
    {who : Identity} : s.authorize r = .ok who ↔
      ∃ a, s.chain.Admits r s.users a ∧ who = ⟨a.user, some a.method⟩ := by
  rw [authorize_eq hrequired hlive]
  simp only [← AuthChain.authenticate_eq_ok_iff]
  cases s.chain.authenticate r s.users false with
  | error e => simp [Except.map]
  | ok a => simp [Except.map, eq_comm]

theorem authorize_eq_error_iff (hrequired : s.authRequired = true) (hlive : s.stopping = false) :
    s.authorize r = .error e ↔ s.chain.Rejects r s.users e := by
  rw [authorize_eq hrequired hlive, ← AuthChain.authenticate_eq_error_iff]
  cases s.chain.authenticate r s.users false <;> simp [Except.map]

theorem outcome_identify (b : Backend) :
    (s.identify r).outcome b = ((s.authorize r).mapError .call, b) := rfl

theorem outcome_identify_bind_of_ok {α : Type} {who : Identity} (h : s.authorize r = .ok who)
    (f : Identity → Action α) (b : Backend) :
    Action.outcome (s.identify r >>= f) b = (f who).outcome b := by
  rw [Action.outcome_bind, outcome_identify, h]
  rfl

theorem outcome_identify_bind_of_error {α : Type} (h : s.authorize r = .error e)
    (f : Identity → Action α) (b : Backend) :
    Action.outcome (s.identify r >>= f) b = (.error (.call e), b) := by
  rw [Action.outcome_bind, outcome_identify, h]
  rfl

/-- A request that is answered at once and leaves the server as it is leaves the whole timeline so. -/
theorem run_of_ready {t : Timeline} {answer : Response}
    (h : t.server.handle t.clock r = (.ready answer, t.server)) :
    t.run r = (⟨some (if r.method == "HEAD" then answer.withoutBody else answer), false⟩, t) := by
  have htake : t.take r = (Underway.ofReply t.clock (r.method == "HEAD") (.ready answer), t) := by
    unfold Timeline.take
    rw [h]
  unfold Timeline.run
  rw [htake]
  rfl

/-- A request gets to a handler through the chain of authenticators only. -/
structure Guarded (s : Server) (r : Request) (f : Identity → Action Reply) : Prop where
  admits : ∀ who, s.authorize r = .ok who ↔
    ∃ a, s.chain.Admits r s.users a ∧ who = ⟨a.user, some a.method⟩
  rejects : ∀ e, s.authorize r = .error e ↔ s.chain.Rejects r s.users e
  /-- What stands behind the authenticator that accepts is not asked. -/
  first : ∀ before a after user, s.chain = before ++ a :: after →
    (∀ b ∈ before, b.Declines r s.users) → a.accept r s.users false = .ok user →
      ∀ after', (s.withChain (before ++ a :: after')).authorize r = .ok ⟨user, some a.name⟩
  /-- The handler runs for a user who has been found. -/
  runs : ∀ who, s.authorize r = .ok who → ∀ now,
    s.handle now r = s.conclude ((f who).outcome s.backend)
  /-- Otherwise all servers with this chain and these users give the same answer and stay as they
  are. -/
  stops : ∀ e, s.authorize r = .error e → ∀ t : Timeline, s.SameGate t.server →
    (∀ now, t.server.handle now r = (.ready (Failure.call e).response, t.server)) ∧
      t.run r = (⟨some (if r.method == "HEAD" then (Failure.call e).response.withoutBody
        else (Failure.call e).response), false⟩, t)
  /-- The answer to whom nobody has accepted challenges to present credentials. -/
  challenged : ∀ reason, s.authorize r = .error (.unauthorized reason) → ∀ now,
    s.handle now r = (.ready ⟨401, some "application/json", none, some "Basic realm=\"settee\"",
      (Json.object [("error", .string "unauthorized"), ("reason", .string reason)]).text⟩, s)

theorem handle_of_authorize_error (hroute : r.route? = some route)
    (hmethod : r.method ∈ route.methods)
    (hprotected : route.isProtected (servedMethod r.method) = true)
    (hrefused : s.authorize r = .error e) (now : Nat) :
    s.handle now r = (.ready (Failure.call e).response, s) := by
  obtain ⟨f, hf⟩ := Option.isSome_iff_exists.1
    ((isSome_handler (servedMethod r.method) r.options route).trans hprotected)
  rw [handle_of_mem hroute hmethod, serve_protected hf, outcome_identify_bind_of_error hrefused]
  rfl

/-- A server that demands credentials and is not shutting down, and a request to a protected route:
its handler runs exactly if the chain admits the request, and for the user that the chain finds. All
others are answered with the failure of the chain, and nothing changes. So are those who use a
method that the route does not serve, whoever they are. -/
theorem protected_guarded (hrequired : s.authRequired = true) (hlive : s.stopping = false)
    (hroute : r.route? = some route)
    (hprotected : route.isProtected (servedMethod r.method) = true) :
    (r.method ∈ route.methods →
      ∃ f, s.handler (servedMethod r.method) r.options route = some f ∧ s.Guarded r f) ∧
    (r.method ∉ route.methods → ∀ now, s.handle now r = (.ready (route.refusal r.method), s)) := by
  refine ⟨fun hmethod => ?_, handle_of_not_mem hroute⟩
  obtain ⟨f, hf⟩ := Option.isSome_iff_exists.1
    ((isSome_handler (servedMethod r.method) r.options route).trans hprotected)
  refine ⟨f, hf, fun _ => authorize_eq_ok_iff hrequired hlive,
    fun _ => authorize_eq_error_iff hrequired hlive, ?first, ?runs, ?stops, ?challenged⟩
  case first =>
    intro before a after user hchain hbefore haccept after'
    have hrequired' : (s.withChain (before ++ a :: after')).authRequired = true := hrequired
    rw [authorize_eq hrequired' hlive]
    show (AuthChain.authenticate (before ++ a :: after') r s.users false).map _ = _
    rw [AuthChain.authenticate_of_accepted hbefore haccept after']
    rfl
  case runs =>
    intro who hfound now
    rw [handle_of_mem hroute hmethod, serve_protected hf, outcome_identify_bind_of_ok hfound]
  case stops =>
    intro e hrefused t hgate
    have hstopped : ∀ now, t.server.handle now r = (.ready (Failure.call e).response, t.server) :=
      handle_of_authorize_error hroute hmethod hprotected ((hgate.authorize r).trans hrefused)
    exact ⟨hstopped, run_of_ready (hstopped t.clock)⟩
  case challenged =>
    intro reason hrefused now
    exact handle_of_authorize_error hroute hmethod hprotected hrefused now

/-- Databases in memory behind two authenticators, of which the first declines every request and the
second accepts it. -/
def hostel : Server where
  client := ⟨"memory", "", .empty⟩
  backend := .memory (.empty .initial)
  settings := .empty
  chain := [⟨"deny", fun _ _ _ => .error (.unauthorized "denied")⟩,
    ⟨"guest", fun _ _ _ => .ok (.named "guest" ["reader"])⟩]
  users := .empty
  authRequired := true
  stopping := false

/-- Whoever creates a database there does so as a guest. -/
theorem hostel_guarded :
    let r : Request := ⟨"PUT", "/d", [], []⟩
    r.route? = some (.database ['d']) ∧ (Route.database ['d']).isProtected "PUT" = true ∧
      (∃ f, hostel.handler "PUT" r.options (.database ['d']) = some f ∧ hostel.Guarded r f) ∧
      hostel.authorize r = .ok ⟨.named "guest" ["reader"], some "guest"⟩ := by
  intro r
  have hroute : r.route? = some (.database ['d']) := by decide +kernel
  have hprotected : (Route.database ['d']).isProtected (servedMethod r.method) = true := by decide
  have hmethod : r.method ∈ (Route.database ['d']).methods := by decide
  exact ⟨hroute, hprotected, (protected_guarded rfl rfl hroute hprotected).1 hmethod, rfl⟩

end Server

end DocumentDb
