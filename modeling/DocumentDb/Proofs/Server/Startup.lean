import DocumentDb.Proofs.Auth.Credentials
import DocumentDb.Proofs.Revision.Preimage
import DocumentDb.Proofs.Server.Protected
import DocumentDb.Server.Startup

/-! # Servers that have been started

The section with the administrators is taken out of the settings, so it is never shown. Its entries
become users, whose passwords are kept as salted digests. Whom the server lets in then depends on
this section alone, whatever the salts are, as long as no password that is presented has the digest
of another one.

* `UserStore.Holds`: users that come from a section.
* `UserStore.validate_eq_ok_iff`: the passwords that are right.
* `Server.StartedWith`: what a server is like that has been started with some settings.
* `Server.launch_exact`: all servers are so, and those whose settings differ in the administrators
  alone show the same settings.
-/

namespace DocumentDb

namespace UserStore

variable {users : UserStore} {admins : Section} {c : Credentials} {user : UserContext}

/-! ## Administrators -/

/-- The users are the entries of a section, as administrators, each with a salt. -/
def Holds (users : UserStore) (admins : Section) : Prop :=
  ∀ name, ∃ salt, users.users.get? name =
    (admins.get? name).map fun password => ⟨salt, digest salt password, [adminRole]⟩

theorem get?_foldl_addAdmin {es : List (String × String)} (hes : Entries.Ordered es)
    (users : UserStore) (name : String) :
    ∃ salt, (es.foldl (fun users e => users.addAdmin e.1 e.2) users).users.get? name =
      ((Entries.get? name es).map fun password =>
        ⟨salt, digest salt password, [adminRole]⟩).or (users.users.get? name) := by
  induction es generalizing users with
  | nil => exact ⟨"", rfl⟩
  | cons e es ih =>
    obtain ⟨k, password⟩ := e
    rw [List.foldl_cons, Entries.get?_cons]
    obtain ⟨salt, hlookup⟩ := ih (List.Pairwise.of_cons hes) (users.addAdmin k password)
    by_cases hk : name = k
    · -- The keys ascend, so nothing later replaces the entry.
      subst hk
      refine ⟨users.salts.next.1, ?_⟩
      rw [hlookup, hes.get?_tail, if_pos rfl]
      exact SortedMap.get?_insert_self _ _ _
    · refine ⟨salt, ?_⟩
      rw [hlookup, if_neg hk]
      congr 1
      exact SortedMap.get?_insert_of_ne _ hk _

theorem holds_adminsOf (admins : Section) : (Server.adminsOf admins).Holds admins := by
  intro name
  obtain ⟨salt, hlookup⟩ := get?_foldl_addAdmin admins.ordered empty name
  refine ⟨salt, hlookup.trans ?_⟩
  rw [show (empty.users.get? name : Option UserRecord) = none from rfl, Option.or_none]
  rfl

theorem Holds.isEmpty_iff (h : users.Holds admins) :
    users.isEmpty = false ↔ ∃ name password, admins.get? name = some password := by
  have hlookup : users.isEmpty = false ↔ ∃ name, users.users.get? name ≠ none := by
    unfold isEmpty SortedMap.isEmpty
    cases hes : users.users.toList with
    | nil => simp [SortedMap.get?, hes]
    | cons e es =>
      have he : users.users.get? e.1 = some e.2 :=
        users.users.get?_eq_some_iff.2 (by rw [hes]; exact List.mem_cons_self)
      simp only [List.isEmpty_cons, true_iff]
      exact ⟨e.1, by simp [he]⟩
  rw [hlookup]
  refine exists_congr fun name => ?_
  obtain ⟨salt, hname⟩ := h name
  rw [hname, Option.ne_none_iff_exists']
  simp

/-! ## Passwords -/

/-- The bytes of which the digest is taken. -/
def salted (salt password : String) : List UInt8 := Utf8.encode salt ++ Utf8.encode password

theorem salted_injective (salt : String) : Function.Injective (salted salt) := fun _ _ h =>
  Utf8.encode_injective (List.append_cancel_left h)

/-- The hash tells the password that is presented from the one that the section has for the user,
each behind the salt of the user. -/
def Separates (users : UserStore) (admins : Section) (c : Credentials) : Prop :=
  ∀ u password, users.users.get? c.username = some u → admins.get? c.username = some password →
    Sha256.digest (salted u.salt c.password) = Sha256.digest (salted u.salt password) →
      salted u.salt c.password = salted u.salt password

theorem validate_eq_ok_iff (hholds : users.Holds admins) (hseparates : users.Separates admins c) :
    users.validate false c.username c.password = .ok user ↔
      admins.get? c.username = some c.password ∧ user = .named c.username [adminRole] := by
  obtain ⟨salt, hlookup⟩ := hholds c.username
  unfold validate
  rw [if_neg Bool.false_ne_true]
  cases hadmin : admins.get? c.username with
  | none => simp [hlookup, hadmin]
  | some password =>
    rw [hadmin] at hlookup
    have hsame : digest salt c.password = digest salt password ↔ c.password = password := by
      refine ⟨fun h => ?_, fun h => by rw [h]⟩
      exact salted_injective salt (hseparates _ password hlookup hadmin h)
    simp only [hlookup, Option.map_some, sameBytes_iff, hsame]
    by_cases hright : c.password = password
    · simp [hright, eq_comm]
    · simp [hright, Ne.symm hright]

end UserStore

theorem Credentials.ofRequest?_eq_some_iff {r : Request} {c : Credentials} :
    ofRequest? r = some c ↔ ∃ value, r.header? "authorization" = some value ∧ c.InHeader value := by
  unfold ofRequest?
  simp only [Option.bind_eq_some_iff, ofHeader?_eq_some_iff]

theorem Authenticator.basic_accept_eq_ok_iff {r : Request} {users : UserStore}
    {user : UserContext} : basic.accept r users false = .ok user ↔
      ∃ c, Credentials.ofRequest? r = some c ∧
        users.validate false c.username c.password = .ok user := by
  cases hcredentials : Credentials.ofRequest? r with
  | none => simp [basic, hcredentials]
  | some c => simp [basic, hcredentials]

/-- The administrators in some settings. -/
def Settings.admins (parsed : Settings) : Section :=
  (parsed.sections.get? adminsName).getD .empty

/-- Two settings differ in the administrators at most. -/
def Settings.AgreeButAdmins (parsed parsed' : Settings) : Prop :=
  ∀ name, name ≠ adminsName → parsed'.sections.get? name = parsed.sections.get? name

/-- The routes that show the settings. -/
def Route.showsSettings : Route → Bool
  | settings => true
  | settingsSection _ => true
  | setting _ _ => true
  | _ => false

namespace Server

variable {s s' : Server} {r : Request} {c : Configuration} {parsed parsed' : Settings}

/-! ## Whom the server lets in -/

theorem authorize_basic_iff {admins : Section} {who : Identity} (hchain : s.chain = [.basic])
    (hrequired : s.authRequired = true) (hlive : s.stopping = false)
    (hholds : s.users.Holds admins)
    (hseparates : ∀ c, Credentials.ofRequest? r = some c → s.users.Separates admins c) :
    s.authorize r = .ok who ↔ ∃ c, Credentials.ofRequest? r = some c ∧
      admins.get? c.username = some c.password ∧
      who = ⟨.named c.username [adminRole], some "default"⟩ := by
  have hfound : ∀ a, s.chain.Admits r s.users a ↔
      ∃ user, Authenticator.basic.accept r s.users false = .ok user ∧ a = ⟨user, "default"⟩ := by
    intro a
    rw [hchain, AuthChain.admits_cons]
    simp only [AuthChain.not_admits_nil, and_false, or_false]
    rfl
  rw [authorize_eq_ok_iff hrequired hlive]
  simp only [hfound, Authenticator.basic_accept_eq_ok_iff]
  constructor
  · rintro ⟨a, ⟨user, ⟨c, hc, hvalid⟩, rfl⟩, rfl⟩
    obtain ⟨hright, rfl⟩ := (UserStore.validate_eq_ok_iff hholds (hseparates c hc)).1 hvalid
    exact ⟨c, hc, hright, rfl⟩
  · rintro ⟨c, hc, hright, rfl⟩
    have hvalid := (UserStore.validate_eq_ok_iff hholds (hseparates c hc)).2 ⟨hright, rfl⟩
    exact ⟨_, ⟨_, ⟨c, hc, hvalid⟩, rfl⟩, rfl⟩

/-! ## The settings that it shows -/

/-- An action that does not look at the backend. -/
def Fixed (a : Action Reply) : Prop := ∃ x, ∀ b, a.outcome b = (x, b)

theorem fixed_respond (status : Nat) (v : Json) : Fixed (respond status v) := ⟨_, fun _ => rfl⟩

theorem fixed_throw (e : Failure) : Fixed (throw e) := ⟨_, fun _ => rfl⟩

theorem fixed_bind {α : Type} {a : Action α} {x : Except Failure α} {f : α → Action Reply}
    (ha : ∀ b, a.outcome b = (x, b)) (hf : ∀ v, Fixed (f v)) : Fixed (a >>= f) := by
  cases x with
  | error e =>
    refine ⟨.error e, fun b => ?_⟩
    rw [Action.outcome_bind, ha]
  | ok v =>
    obtain ⟨y, hy⟩ := hf v
    refine ⟨y, fun b => ?_⟩
    rw [Action.outcome_bind, ha]
    exact hy b

theorem handler_congr {route : Route} (hroute : route.showsSettings = true)
    (h : s'.settings = s.settings) (method : String) (o : Options) :
    s'.handler method o route = s.handler method o route := by
  cases route with
  | settings => simp only [handler, h]
  | settingsSection name => simp only [handler, h]
  | setting name key => simp only [handler, h]
  | _ => cases hroute

theorem fixed_handler {route : Route} (hroute : route.showsSettings = true) {method : String}
    {o : Options} {f : Identity → Action Reply} (hf : s.handler method o route = some f) :
    ∃ a, Fixed a ∧ f = fun _ => a := by
  cases route with
  | settings =>
    cases hf
    exact ⟨_, fixed_respond _ _, rfl⟩
  | settingsSection name =>
    cases hf
    exact ⟨_, fixed_bind (fun b => Action.outcome_ofRequest b _) fun _ =>
      fixed_bind (fun b => Action.outcome_ofExcept b _) fun _ => fixed_respond _ _, rfl⟩
  | setting name key =>
    cases hf
    refine ⟨_, ?_, rfl⟩
    split
    · exact fixed_bind (fun b => Action.outcome_ofRequest b _) fun _ =>
        fixed_bind (fun b => Action.outcome_ofRequest b _) fun _ =>
          fixed_bind (fun b => Action.outcome_ofExcept b _) fun _ => fixed_respond _ _
    · exact fixed_throw _
  | _ => cases hroute

theorem fst_conclude (x : Except Failure Reply) (b b' : Backend) :
    (s'.conclude (x, b')).1 = (s.conclude (x, b)).1 := by
  cases x <;> rfl

/-- Two servers with the same settings show the same of them to all who may see them. -/
theorem settings_shown_alike {route : Route} {r' : Request} (hsettings : s'.settings = s.settings)
    (hroute : r.route? = some route) (hshows : route.showsSettings = true)
    (hmethod : r.method ∈ route.methods) (htarget : r'.target = r.target)
    (hsame : r'.method = r.method) {who who' : Identity} (hwho : s.authorize r = .ok who)
    (hwho' : s'.authorize r' = .ok who') (now now' : Nat) :
    (s'.handle now' r').1 = (s.handle now r).1 := by
  have hprotected : route.isProtected (servedMethod r.method) = true := by
    cases route <;> first | rfl | cases hshows
  obtain ⟨f, hf⟩ := Option.isSome_iff_exists.1
    ((isSome_handler (s := s) (servedMethod r.method) r.options route).trans hprotected)
  obtain ⟨a, ⟨x, hx⟩, rfl⟩ := fixed_handler hshows hf
  have hroute' : r'.route? = some route := by
    rw [Request.route?, htarget]
    exact hroute
  have hf' : s'.handler (servedMethod r'.method) r'.options route = some fun _ => a := by
    rw [hsame, Request.options, htarget]
    exact (handler_congr hshows hsettings _ _).trans hf
  rw [handle_of_mem hroute hmethod, serve_protected hf, outcome_identify_bind_of_ok hwho, hx,
    handle_of_mem hroute' (hsame ▸ hmethod), serve_protected hf',
    outcome_identify_bind_of_ok hwho', hx]
  exact fst_conclude x _ _

/-! ## Starting -/

/-- What a server is like that has been started with some settings. -/
structure StartedWith (s : Server) (c : Configuration) (parsed : Settings) : Prop where
  required : ∀ b, c.requireAuth = some b → s.authRequired = b
  /-- If the configuration does not say so, credentials are demanded when there are
  administrators. -/
  unset : c.requireAuth = none →
    (s.authRequired = true ↔ ∃ name password, parsed.admins.get? name = some password)
  /-- The settings are the sections but for the one with the administrators. -/
  served : ∀ name, s.settings.sections.get? name =
    if name = "admins" then none else parsed.sections.get? name
  holds : s.users.Holds parsed.admins
  /-- Whatever the salts are, those are let in whose first header field for it names an
  administrator with the password of the section. -/
  accepts : s.authRequired = true → ∀ users : UserStore, users.Holds parsed.admins → ∀ r,
    (∀ (given : Credentials) value, r.header? "authorization" = some value →
      given.InHeader value → users.Separates parsed.admins given) →
    ∀ who, { s with users }.authorize r = .ok who ↔ ∃ value, ∃ given : Credentials,
      r.header? "authorization" = some value ∧ given.InHeader value ∧
      parsed.admins.get? given.username = some given.password ∧
      who = ⟨.named given.username ["_admin"], some "default"⟩

theorem startedWith_assemble (c : Configuration) (parsed : Settings) (client : Client)
    (backend : Backend) : (assemble c parsed client backend).StartedWith c parsed where
  required b hb := by
    show c.requireAuth.getD _ = b
    rw [hb]
    rfl
  unset hunset := by
    show c.requireAuth.getD (!(adminsOf parsed.admins).isEmpty) = true ↔ _
    rw [hunset, Option.getD_none, Bool.not_eq_true', (UserStore.holds_adminsOf _).isEmpty_iff]
  served name := by
    show (parsed.sections.erase "admins").get? name = _
    split
    · next hname =>
      rw [hname]
      exact SortedMap.get?_erase_self _ _
    · next hname => exact SortedMap.get?_erase_of_ne _ hname
  holds := UserStore.holds_adminsOf parsed.admins
  accepts hrequired users hholds r hseparates who := by
    have hgiven : ∀ given, Credentials.ofRequest? r = some given →
        users.Separates parsed.admins given := by
      intro given hgiven
      obtain ⟨value, hvalue, hheader⟩ := Credentials.ofRequest?_eq_some_iff.1 hgiven
      exact hseparates given value hvalue hheader
    rw [authorize_basic_iff (s := { assemble c parsed client backend with users }) rfl hrequired
      rfl hholds hgiven]
    simp only [Credentials.ofRequest?_eq_some_iff]
    constructor
    · rintro ⟨given, ⟨value, hvalue, hheader⟩, hright, rfl⟩
      exact ⟨value, given, hvalue, hheader, hright, rfl⟩
    · rintro ⟨value, given, hvalue, hheader, hright, rfl⟩
      exact ⟨given, ⟨value, hvalue, hheader⟩, hright, rfl⟩

theorem launch_eq {contentsOf : String → Option String} {registry : Registry} {path text : String}
    {client : Client} {backend : Backend} (hfile : c.configFile = some path)
    (hcontents : contentsOf path = some text) (hparsed : Settings.parse text = .ok parsed)
    (hconnected : registry.newClient false c.driver c.dsn = .ok (client, backend)) :
    launch c contentsOf registry = .ok (assemble c parsed client backend) := by
  have hloaded : loadSettings contentsOf c.configFile = .ok parsed := by
    simp only [loadSettings, hfile, hcontents, hparsed]
    rfl
  unfold launch
  rw [hloaded, hconnected]
  rfl

/-- Two servers show the same settings to all who may see them. -/
def ShowAlike (s s' : Server) : Prop :=
  ∀ r r' route who who', r.route? = some route → route.showsSettings = true →
    r.method ∈ route.methods → r'.target = r.target → r'.method = r.method →
    s.authorize r = .ok who → s'.authorize r' = .ok who' →
    ∀ now now', (s'.handle now' r').1 = (s.handle now r).1

theorem settings_assemble (c : Configuration) (client : Client) (backend : Backend)
    (hagree : parsed.AgreeButAdmins parsed') :
    (assemble c parsed' client backend).settings = (assemble c parsed client backend).settings := by
  show (⟨parsed'.sections.erase "admins"⟩ : Settings) = ⟨parsed.sections.erase "admins"⟩
  congr 1
  refine SortedMap.ext_get? fun name => ?_
  by_cases hname : name = "admins"
  · rw [hname, SortedMap.get?_erase_self, SortedMap.get?_erase_self]
  · rw [SortedMap.get?_erase_of_ne _ hname, SortedMap.get?_erase_of_ne _ hname]
    exact hagree name hname

/-- A file that holds settings makes a server if the connection succeeds. It lets in whom the section
with the administrators names, and shows all other sections. Another file in its place that differs
in the administrators at most makes a server that shows the same. -/
theorem launch_exact {contentsOf : String → Option String} {registry : Registry}
    {path text : String} {client : Client} {backend : Backend} (hfile : c.configFile = some path)
    (hcontents : contentsOf path = some text) (hparsed : Settings.parse text = .ok parsed)
    (hconnected : registry.newClient false c.driver c.dsn = .ok (client, backend)) :
    ∃ s, launch c contentsOf registry = .ok s ∧ s.StartedWith c parsed ∧
      ∀ contentsOf' text' parsed', contentsOf' path = some text' →
        Settings.parse text' = .ok parsed' → parsed.AgreeButAdmins parsed' →
        ∃ s', launch c contentsOf' registry = .ok s' ∧ s'.settings = s.settings ∧
          s.ShowAlike s' := by
  refine ⟨_, launch_eq hfile hcontents hparsed hconnected,
    startedWith_assemble c parsed client backend, ?_⟩
  intro contentsOf' text' parsed' hcontents' hparsed' hagree
  have hsettings := settings_assemble c client backend hagree
  refine ⟨_, launch_eq hfile hcontents' hparsed' hconnected, hsettings, ?_⟩
  intro r r' route who who' hroute hshows hmethod htarget hsame hwho hwho'
  exact settings_shown_alike hsettings hroute hshows hmethod htarget hsame hwho hwho'

/-- With one administrator in the settings and nothing said about credentials, they are demanded, and
the password of the administrator is accepted. -/
theorem launch_with_root :
    let c : Configuration := ⟨"localhost", 5984, "memory", "", some "settings.toml", none⟩
    let text := "[admins]\nroot = \"secret\"\n\n[log]\nlevel = \"info\"\n"
    let contentsOf : String → Option String := fun _ => some text
    let parsed : Settings :=
      ⟨.ofList [("admins", .ofList [("root", "secret")]), ("log", .ofList [("level", "info")])]⟩
    let registry : Registry := ⟨SortedMap.empty.insert "memory" (.memory .initial)⟩
    let r : Request := ⟨"GET", "/_session", [⟨"Authorization", "basic  cm9vdDpzZWNyZXQ="⟩], []⟩
    Settings.parse text = .ok parsed ∧
      registry.newClient false c.driver c.dsn =
        .ok (⟨"memory", "", .empty⟩, .memory (.empty .initial)) ∧
      ∃ s, launch c contentsOf registry = .ok s ∧ s.StartedWith c parsed ∧
        s.authRequired = true ∧
        s.authorize r = .ok ⟨.named "root" ["_admin"], some "default"⟩ := by
  intro c text contentsOf parsed registry r
  have hfile : c.configFile = some "settings.toml" := rfl
  have hcontents : contentsOf "settings.toml" = some text := rfl
  have hparsed : Settings.parse text = .ok parsed := by decide +kernel
  have hconnected : registry.newClient false c.driver c.dsn =
      .ok (⟨"memory", "", .empty⟩, .memory (.empty .initial)) := by
    have hdriver : registry.drivers.get? "memory" = some (.memory .initial) :=
      SortedMap.get?_insert_self _ _ _
    unfold Registry.newClient Registry.connect
    rw [hdriver]
    rfl
  obtain ⟨s, hlaunched, hstarted, -⟩ := launch_exact hfile hcontents hparsed hconnected
  have hroot : parsed.admins.get? "root" = some "secret" := by decide +kernel
  have hrequired : s.authRequired = true := (hstarted.unset rfl).2 ⟨"root", "secret", hroot⟩
  have hheader : r.header? "authorization" = some "basic  cm9vdDpzZWNyZXQ=" := by decide +kernel
  have hread : Credentials.ofHeader? "basic  cm9vdDpzZWNyZXQ=" = some ⟨"root", "secret"⟩ := by
    decide +kernel
  refine ⟨hparsed, hconnected, s, hlaunched, hstarted, hrequired, ?_⟩
  refine (hstarted.accepts hrequired s.users hstarted.holds r ?_ _).2
    ⟨_, _, hheader, Credentials.ofHeader?_eq_some_iff.1 hread, hroot, rfl⟩
  intro given value hvalue hgiven u password _ hpassword _
  obtain rfl := Option.some.inj (hheader.symm.trans hvalue)
  obtain rfl := Option.some.inj (hread.symm.trans (Credentials.ofHeader?_eq_some_iff.2 hgiven))
  obtain rfl := Option.some.inj (hroot.symm.trans hpassword)
  rfl

end Server

end DocumentDb
