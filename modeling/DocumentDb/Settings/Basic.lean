import DocumentDb.Error
import DocumentDb.SortedMap.Basic
import DocumentDb.Toml.Parser

/-! # Settings

The settings of a server are texts by section and key. They are read from a TOML document whose
entries are all tables of scalars.

* `Settings.parse`: reads a document. `Settings.ofEntries` says what its entries have to be; of
  several that are wrong, the one with the least key is reported.
* `Settings.getSection`, `Settings.get`, `Settings.takeSection`: look-ups.
-/

namespace DocumentDb

/-- The texts of a section by key. -/
abbrev Section := SortedMap String String

/-- The sections of the settings by name. -/
structure Settings where
  sections : SortedMap String Section
deriving DecidableEq

/-- Why a document holds no settings. -/
inductive SettingsError where
  /-- It is no TOML. -/
  | malformed
  /-- An entry is no table of scalars. -/
  | invalidEntry (name : String)
deriving DecidableEq

/-- The text of the failure to read settings. -/
def SettingsError.message : SettingsError → String
  | malformed => "Invalid config file"
  | invalidEntry name => "Config entry " ++ name ++ " must be a table of scalar values"

namespace Settings

/-- Settings without sections. -/
def empty : Settings := ⟨.empty⟩

/-- The name of the section whose entries are the administrators and their passwords. -/
def adminsName : String := "admins"

/-- The section of some entries of a table. The first that is no scalar is the one to blame. -/
def readSection (name : String) : List (String × Toml) → Except SettingsError Section
  | [] => .ok .empty
  | (key, value) :: rest => do
    let some text := value.scalarText? | throw (.invalidEntry (name ++ "." ++ key))
    let others ← readSection name rest
    return others.insert key text

/-- The settings of some entries of a document. -/
def ofEntries : List (String × Toml) → Except SettingsError Settings
  | [] => .ok empty
  | (name, .table _ entries) :: rest => do
    let first ← readSection name (Entries.ofList entries)
    let others ← ofEntries rest
    return ⟨others.sections.insert name first⟩
  | (name, _) :: _ => .error (.invalidEntry name)

/-- The settings in a document. -/
def parse (text : String) : Except SettingsError Settings :=
  match Toml.parse? text with
  | none => .error .malformed
  | some entries => ofEntries (Entries.ofList entries)

/-- The settings with a text put under a section and a key. -/
def set (s : Settings) (name key text : String) : Settings :=
  let old := (s.sections.get? name).getD .empty
  ⟨s.sections.insert name (old.insert key text)⟩

/-- A section, if there is one, and the settings without it. -/
def takeSection (s : Settings) (name : String) : Option Section × Settings :=
  (s.sections.get? name, ⟨s.sections.erase name⟩)

/-- The failure to find a section or a key. -/
def unknown : Error := .notFound "unknown_config_value"

/-- A section. -/
def getSection (s : Settings) (name : String) : Except Error Section :=
  match s.sections.get? name with
  | some entries => .ok entries
  | none => .error unknown

/-- The text under a section and a key. -/
def get (s : Settings) (name key : String) : Except Error String := do
  let entries ← s.getSection name
  match entries.get? key with
  | some text => return text
  | none => throw unknown

end Settings

end DocumentDb
