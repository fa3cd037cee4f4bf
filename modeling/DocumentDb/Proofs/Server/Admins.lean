import DocumentDb.Proofs.Server.Startup

/-! # Logging in as an administrator

A server knows every administrator of its settings with the password that they have there, so that
name and password, in the header field for them, are let in. The one exception is a name with a
colon: the pair is split at its first colon, and what stands before it is another name.

* `Credentials.headerValue`, `Credentials.inHeader_headerValue_iff`: the header field of a name and
  a password, and when they are read from it.
* `UserStore.Holds.validate`: the password of an administrator is right, whatever its salt is.
* `Server.launch_eq_ok`: how a server has come about.
* `Server.admin_logs_in`: who is let in.
* `Server.colon_keeps_out`: an administrator who is not.
-/

namespace DocumentDb

namespace Credentials

variable {c : Credentials} {r : Request}

/-- The value of a header field that presents a name and a password. -/
def headerValue (c : Credentials) : String := "Basic " ++ String.ofList c.payload

theorem inHeader_headerValue_iff : c.InHeader c.headerValue ↔ ':' ∉ c.username.toList := by
  constructor
  · rintro ⟨-, -, -, -, -, -, -, hcolon⟩
    exact hcolon
  · intro hcolon
    have hvalue : c.headerValue.toList = "Basic".toList ++ ' ' :: ([] ++ c.payload ++ []) := by
      simp [headerValue]
    have hnone : ∀ x ∈ ([] : List Char), x = ' ' ∨ x = '\t' := fun _ h => nomatch h
    exact ⟨_, [], [], hvalue, by decide, hnone, hnone, hcolon⟩

theorem ofRequest?_of_colon_free (hheader : r.header? "authorization" = some c.headerValue)
    (hcolon : ':' ∉ c.username.toList) : ofRequest? r = some c :=
  ofRequest?_eq_some_iff.2 ⟨_, hheader, inHeader_headerValue_iff.2 hcolon⟩

/-- Whoever is named in a header field has no colon in the name. -/
theorem colon_free_of_ofRequest? (h : ofRequest? r = some c) : ':' ∉ c.username.toList := by
  obtain ⟨value, -, -, -, -, -, -, -, -, hcolon⟩ := ofRequest?_eq_some_iff.1 h
  exact hcolon

end Credentials

namespace UserStore

variable {users : UserStore} {admins : Section} {name password : String} {user : UserContext}

/-- No property of the hash is needed: the same digest is made twice. -/
theorem Holds.validate (hholds : users.Holds admins) (hadmin : admins.get? name = some password) :
    users.validate false name password = .ok (.named name [adminRole]) := by
  obtain ⟨salt, hlookup⟩ := hholds name
  rw [hadmin, Option.map_some] at hlookup
  have hsame : sameBytes (digest salt password) (digest salt password) = true :=
    sameBytes_iff.2 rfl
  unfold UserStore.validate
  rw [if_neg Bool.false_ne_true, hlookup]
  exact if_pos hsame

theorem name_of_validate (h : users.validate false name password = .ok user) :
    user.name = some name := by
  unfold UserStore.validate at h
  rw [if_neg Bool.false_ne_true] at h
  split at h
  · cases h
  · split at h
    · cases h
      rfl
    · cases h

end UserStore

namespace Server

variable {s : Server} {c : Configuration} {contentsOf : String → Option String}
  {registry : Registry} {parsed : Settings} {r : Request} {users : UserStore}
  {given : Credentials}

theorem launch_eq_ok (h : launch c contentsOf registry = .ok s)
    (hparsed : loadSettings contentsOf c.configFile = .ok parsed) :
    ∃ client backend, s = assemble c parsed client backend := by
  unfold launch at h
  rw [hparsed] at h
  cases hconnected : registry.newClient false c.driver c.dsn with
  | error e =>
    rw [hconnected] at h
    cases h
  | ok connected =>
    rw [hconnected] at h
    cases h
    exact ⟨_, _, rfl⟩

theorem authenticate_basic_of_admin (hholds : users.Holds parsed.admins)
    (hadmin : parsed.admins.get? given.username = some given.password)
    (hheader : r.header? "authorization" = some given.headerValue)
    (hcolon : ':' ∉ given.username.toList) :
    AuthChain.authenticate [.basic] r users false =
      .ok ⟨.named given.username [adminRole], "default"⟩ := by
  have hgiven : Credentials.ofRequest? r = some given :=
    Credentials.ofRequest?_of_colon_free hheader hcolon
  have haccept : Authenticator.basic.accept r users false =
      .ok (.named given.username [adminRole]) :=
    Authenticator.basic_accept_eq_ok_iff.2 ⟨given, hgiven, hholds.validate hadmin⟩
  have hnone : ∀ b ∈ ([] : AuthChain), b.Declines r users := fun _ h => nomatch h
  exact AuthChain.authenticate_of_accepted hnone haccept []

/-- Nobody is let in under a name with a colon. -/
theorem colon_free_of_authenticate_basic {who : Authenticated} {name : String}
    (h : AuthChain.authenticate [.basic] r users false = .ok who) (hname : who.user.name = some name) :
    ':' ∉ name.toList := by
  rw [AuthChain.authenticate_eq_ok_iff, AuthChain.admits_cons] at h
  obtain ⟨user, haccept, rfl⟩ | ⟨-, hrest⟩ := h
  · obtain ⟨given, hgiven, hvalid⟩ := Authenticator.basic_accept_eq_ok_iff.1 haccept
    have hsame : given.username = name :=
      Option.some.inj ((UserStore.name_of_validate hvalid).symm.trans hname)
    rw [← hsame]
    exact Credentials.colon_free_of_ofRequest? hgiven
  · exact absurd hrest AuthChain.not_admits_nil

/-- A server that has started with some settings lets in every administrator in them whose name has
no colon, under this name and as an administrator, whatever the salts of its users are. An
administrator whose name has one is not let in under it. The server asks for credentials unless it
is told not to. -/
theorem admin_logs_in (hlaunched : launch c contentsOf registry = .ok s)
    (hparsed : loadSettings contentsOf c.configFile = .ok parsed)
    (hadmin : parsed.admins.get? given.username = some given.password)
    (hheader : r.header? "authorization" = some given.headerValue) :
    s.users.Holds parsed.admins ∧ (c.requireAuth ≠ some false → s.authRequired = true) ∧
      ∀ users : UserStore, users.Holds parsed.admins →
        (':' ∉ given.username.toList →
          s.chain.authenticate r users s.stopping =
            .ok ⟨.named given.username ["_admin"], "default"⟩ ∧
          (s.authRequired = true → { s with users }.authorize r =
            .ok ⟨.named given.username ["_admin"], some "default"⟩)) ∧
        (':' ∈ given.username.toList → ∀ who,
          s.chain.authenticate r users s.stopping = .ok who →
            who.user.name ≠ some given.username) := by
  obtain ⟨client, backend, rfl⟩ := launch_eq_ok hlaunched hparsed
  have hstarted := startedWith_assemble c parsed client backend
  refine ⟨hstarted.holds, ?_, fun users hholds => ⟨fun hcolon => ?_, fun hcolon who hwho hname => ?_⟩⟩
  · intro hnot
    cases hrequire : c.requireAuth with
    | none => exact (hstarted.unset hrequire).2 ⟨_, _, hadmin⟩
    | some b =>
      rw [hstarted.required b hrequire]
      rw [hrequire] at hnot
      simpa using hnot
  · have hfound := authenticate_basic_of_admin hholds hadmin hheader hcolon
    refine ⟨hfound, fun hrequired => ?_⟩
    have hnot : ¬ (!(assemble c parsed client backend).authRequired) = true := by
      simp [hrequired]
    unfold authorize
    rw [if_neg hnot]
    exact congrArg (Except.map fun a : Authenticated => (⟨a.user, some a.method⟩ : Identity)) hfound
  · exact colon_free_of_authenticate_basic hwho hname hcolon

/-! ## Two administrators -/

/-- A configuration with a file for the settings and databases in memory. -/
def filed : Configuration := ⟨"localhost", 5984, "memory", "", some "settings.toml", none⟩

def memoryAlone : Registry := ⟨SortedMap.empty.insert "memory" (.memory .initial)⟩

theorem launch_filed {text : String} (htext : Settings.parse text = .ok parsed) :
    loadSettings (fun _ => some text) filed.configFile = .ok parsed ∧
      ∃ s, launch filed (fun _ => some text) memoryAlone = .ok s := by
  have hfile : filed.configFile = some "settings.toml" := rfl
  have hconnected : memoryAlone.newClient false filed.driver filed.dsn =
      .ok (⟨"memory", "", .empty⟩, .memory (.empty .initial)) := by
    have hdriver : memoryAlone.drivers.get? "memory" = some (.memory .initial) :=
      SortedMap.get?_insert_self _ _ _
    unfold Registry.newClient Registry.connect
    rw [show filed.driver = "memory" from rfl, hdriver]
    rfl
  refine ⟨?_, _, launch_eq hfile rfl htext hconnected⟩
  simp only [loadSettings, hfile, htext]
  rfl

/-- An empty password will do. -/
theorem root_logs_in :
    let text := "[admins]\nroot = \"\"\n"
    let parsed : Settings := ⟨.ofList [("admins", .ofList [("root", "")])]⟩
    let given : Credentials := ⟨"root", ""⟩
    let r : Request := ⟨"GET", "/_session", [⟨"Authorization", "Basic cm9vdDo="⟩], []⟩
    ∃ s, launch filed (fun _ => some text) memoryAlone = .ok s ∧
      loadSettings (fun _ => some text) filed.configFile = .ok parsed ∧
      parsed.admins.get? given.username = some given.password ∧
      r.header? "authorization" = some given.headerValue ∧
      s.authorize r = .ok ⟨.named "root" ["_admin"], some "default"⟩ := by
  intro text parsed given r
  have htext : Settings.parse text = .ok parsed := by decide +kernel
  have hadmin : parsed.admins.get? given.username = some given.password := by decide +kernel
  have hheader : r.header? "authorization" = some given.headerValue := by decide +kernel
  obtain ⟨hparsed, s, hlaunched⟩ := launch_filed htext
  obtain ⟨hholds, hrequired, hall⟩ := admin_logs_in hlaunched hparsed hadmin hheader
  obtain ⟨hfree, -⟩ := hall _ hholds
  have hin := (hfree (by decide)).2 (hrequired (by decide))
  exact ⟨s, hlaunched, hparsed, hadmin, hheader, hin⟩

/-- With a colon in the name the right password is refused, and the server asks for it. -/
theorem colon_keeps_out :
    let text := "[admins]\n\"a:b\" = \"pw\"\n"
    let parsed : Settings := ⟨.ofList [("admins", .ofList [("a:b", "pw")])]⟩
    let given : Credentials := ⟨"a:b", "pw"⟩
    let r : Request := ⟨"GET", "/_session", [⟨"Authorization", "Basic YTpiOnB3"⟩], []⟩
    ∃ s, launch filed (fun _ => some text) memoryAlone = .ok s ∧
      loadSettings (fun _ => some text) filed.configFile = .ok parsed ∧
      parsed.admins.get? given.username = some given.password ∧
      r.header? "authorization" = some given.headerValue ∧ s.authRequired = true ∧
      s.authorize r = .error (.unauthorized "name or password is incorrect") := by
  intro text parsed given r
  have htext : Settings.parse text = .ok parsed := by decide +kernel
  have hadmin : parsed.admins.get? given.username = some given.password := by decide +kernel
  have hheader : r.header? "authorization" = some given.headerValue := by decide +kernel
  have hread : Credentials.ofRequest? r = some ⟨"a", "b:pw"⟩ := by decide +kernel
  have hunknown : parsed.admins.get? "a" = none := by decide +kernel
  obtain ⟨hparsed, s, hlaunched⟩ := launch_filed htext
  obtain ⟨client, backend, hs⟩ := launch_eq_ok hlaunched hparsed
  have hchain : s.chain = [.basic] := by rw [hs]; rfl
  have hlive : s.stopping = false := by rw [hs]; rfl
  have hstarted : s.StartedWith filed parsed := by
    rw [hs]
    exact startedWith_assemble filed parsed client backend
  have hrequired : s.authRequired = true := (hstarted.unset rfl).2 ⟨_, _, hadmin⟩
  have haccept : Authenticator.basic.accept r s.users false = .error UserStore.rejected := by
    obtain ⟨salt, hlookup⟩ := hstarted.holds "a"
    rw [hunknown, Option.map_none] at hlookup
    simp [Authenticator.basic, hread, UserStore.validate, hlookup]
  have hrefused : s.chain.authenticate r s.users s.stopping = .error UserStore.rejected := by
    rw [hchain, hlive, AuthChain.authenticate, AuthChain.search, haccept]
    rfl
  refine ⟨s, hlaunched, hparsed, hadmin, hheader, hrequired, ?_⟩
  rw [authorize, hrequired, hrefused]
  rfl

end Server

end DocumentDb
