import DocumentDb.Text.Blank
import DocumentDb.Text.Numeral

/-! # The environment of a server

The variables that a server is started with, read into a configuration.
-/

namespace DocumentDb

/-- The variables that are looked at. -/
structure Environment where
  host : Option String
  port : Option String
  driver : Option String
  dsn : Option String
  configFile : Option String
  requireAuth : Option String

/-- How a server is started. -/
structure Configuration where
  host : String
  port : Nat
  /-- The name of the driver. -/
  driver : String
  /-- The data source name that the driver gets. -/
  dsn : String
  /-- The file that holds the settings. -/
  configFile : Option String
  /-- Whether credentials are demanded; if it is not said, they are when there are
  administrators. -/
  requireAuth : Option Bool
deriving DecidableEq

/-- Why an environment describes no configuration. -/
inductive EnvironmentError where
  | invalidPort (value : String)
  | invalidRequireAuth (value : String)
deriving DecidableEq

/-- The text of a failure. -/
def EnvironmentError.message : EnvironmentError → String
  | invalidPort value => "Invalid PORT value: " ++ value
  | invalidRequireAuth value => "Invalid REQUIRE_AUTH value: " ++ value

namespace Environment

/-- The greatest port. -/
def maxPort : Nat := 65535

/-- The port that a variable names. -/
def readPort : Option String → Except EnvironmentError Nat
  | none => .ok 5984
  | some value =>
    match Numeral.read? maxPort value with
    | some port => .ok port
    | none => .error (.invalidPort value)

/-- The letters of a text in lower case, without blanks around it. -/
def normalize (value : String) : String :=
  String.ofList ((Text.trimBlank value.toList).map Char.toLower)

/-- The truth value that a word names. -/
def readFlag? (value : String) : Option Bool :=
  let word := normalize value
  if ["1", "true", "yes", "on"].contains word then some true
  else if ["0", "false", "no", "off"].contains word then some false
  else none

/-- Whether a variable demands credentials. -/
def readRequireAuth : Option String → Except EnvironmentError (Option Bool)
  | none => .ok none
  | some value =>
    match readFlag? value with
    | some b => .ok (some b)
    | none => .error (.invalidRequireAuth value)

/-- The configuration that an environment describes. -/
def configuration (e : Environment) : Except EnvironmentError Configuration := do
  let port ← readPort e.port
  let requireAuth ← readRequireAuth e.requireAuth
  return {
    host := e.host.getD "0.0.0.0"
    port := port
    driver := e.driver.getD "memory"
    dsn := e.dsn.getD ""
    configFile := e.configFile
    requireAuth := requireAuth }

end Environment

/-- The address to listen on. -/
def Configuration.address (c : Configuration) : String := c.host ++ ":" ++ Numeral.text c.port

end DocumentDb
