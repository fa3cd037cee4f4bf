import DocumentDb.Server.Basic
import DocumentDb.Settings.Environment

/-! # Starting a server

`Server.launch` makes a server from a configuration: it reads the settings, takes the administrators
out of them, and connects to the backend.
-/

namespace DocumentDb

/-- Why a server does not start. -/
inductive StartupError where
  /-- The file with the settings cannot be read. -/
  | unreadable (path : String)
  | settings (e : SettingsError)
  | connection (e : Error)
deriving DecidableEq

namespace Server

/-- The settings in a file. -/
def loadSettings (contentsOf : String → Option String) :
    Option String → Except StartupError Settings
  | none => .ok .empty
  | some path =>
    match contentsOf path with
    | none => .error (.unreadable path)
    | some text => (Settings.parse text).mapError .settings

/-- The administrators in a section of names and passwords. -/
def adminsOf (entries : Section) : UserStore :=
  entries.toList.foldl (fun users e => users.addAdmin e.1 e.2) .empty

/-- The server of some settings and a client. Credentials are demanded as the configuration says, or
else when there are administrators. -/
def assemble (c : Configuration) (settings : Settings) (client : Client) (backend : Backend) :
    Server :=
  let (admins, settings) := settings.takeSection Settings.adminsName
  let users := adminsOf (admins.getD .empty)
  { client := client
    backend := backend
    settings := settings
    chain := [.basic]
    users := users
    authRequired := c.requireAuth.getD !users.isEmpty
    stopping := false }

/-- The server that a configuration describes. -/
def launch (c : Configuration) (contentsOf : String → Option String) (registry : Registry) :
    Except StartupError Server := do
  let settings ← loadSettings contentsOf c.configFile
  let (client, backend) ← (registry.newClient false c.driver c.dsn).mapError .connection
  return assemble c settings client backend

end Server

end DocumentDb
