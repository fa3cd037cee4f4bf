import DocumentDb.Backend.Basic

/-! # Drivers by name

A driver connects to a backend. Drivers are registered under names, no name twice.
-/

namespace DocumentDb

/-- A way to connect to a backend. -/
structure Driver where
  /-- The backend that a data source name describes, unless the connection fails. The first argument
  tells whether the token of the call has been cancelled. -/
  connect : Bool → String → Except Error Backend

/-- The driver of databases in memory. Every connection starts without databases and with the same
supply of ids. -/
def Driver.memory (ids : IdSupply) : Driver where
  connect cancelled _ := if cancelled then .error .cancelled else .ok (.memory (.empty ids))

/-- The failure to register a name a second time. -/
structure DuplicateDriver where
  name : String
deriving DecidableEq

/-- The text of a failed registration. -/
def DuplicateDriver.message (e : DuplicateDriver) : String :=
  "driver " ++ Text.quoted e.name ++ " is already registered"

/-- Drivers by name. -/
structure Registry where
  drivers : SortedMap String Driver

namespace Registry

/-- The registry without drivers. -/
def empty : Registry := ⟨.empty⟩

/-- Registers a driver. -/
def register (r : Registry) (name : String) (d : Driver) : Except DuplicateDriver Registry :=
  if r.drivers.contains name then .error ⟨name⟩ else .ok ⟨r.drivers.insert name d⟩

/-- The names of the drivers, in order. -/
def names (r : Registry) : List String := r.drivers.keys

/-- The backend that a driver connects to. -/
def connect (r : Registry) (cancelled : Bool) (driver dsn : String) : Except Error Backend :=
  match r.drivers.get? driver with
  | none => .error (.unknownDriver driver)
  | some d => d.connect cancelled dsn

/-- The registry as messages show it. -/
def describe (r : Registry) : String :=
  "Registry \x7b drivers: [" ++ ", ".intercalate (r.names.map Text.quoted) ++ "] \x7d"

end Registry

end DocumentDb
