import DocumentDb.Toml.Basic

/-! # What may be added to a table

* `Toml.assign`: puts a value under a key. A new key comes last, so the entries of a table keep the
  order in which their keys came up.
* `Toml.enter`: goes down a path of names, making tables on the way.
* `Toml.putEntry`: adds an entry under a dotted key.
* `Toml.openTable`, `Toml.addTable`, `Toml.addElement`: what the headers of a document do.

Every name is defined once. A table between braces is closed. A dotted key may only go through
tables that have no header of their own.
-/

namespace DocumentDb.Toml

/-- The entries of a table. -/
abbrev TableEntries := List (String × Toml)

/-- The entries with a value under a key, in the place of an older one or else at the end. -/
def assign (key : String) (value : Toml) : TableEntries → TableEntries
  | [] => [(key, value)]
  | (key', value') :: es =>
    if key = key' then (key, value) :: es else (key', value') :: assign key value es

theorem get?_assign (key key' : String) (value : Toml) (es : TableEntries) :
    Entries.get? key' (assign key value es) =
      if key' = key then some value else Entries.get? key' es := by
  induction es with
  | nil => simp [assign, Entries.get?_cons]
  | cons e es ih =>
    obtain ⟨k, v⟩ := e
    by_cases h : key = k
    · subst h
      simp only [assign, if_true, Entries.get?_cons]
      split <;> rfl
    · simp only [assign, if_neg h, Entries.get?_cons, ih]
      by_cases hk : key' = k
      · have hne : key' ≠ key := fun e => h (e.symm.trans hk)
        rw [if_pos hk, if_neg hne, if_pos hk]
      · rw [if_neg hk, if_neg hk]

/-- What a function makes of the table at the end of a path, and the entries afterwards. Tables
that are missing on the way are made; the way goes through the last of several tables under one
header. -/
def enter {α : Type} (dotted : Bool) (f : TableForm → TableEntries → Option (α × TableEntries)) :
    List String → TableForm → TableEntries → Option (α × TableEntries)
  | [], form, es => f form es
  | key :: path, _, es =>
    match Entries.get? key es with
    | none => do
      let form := if dotted then TableForm.dotted else .implied
      let (a, sub) ← enter dotted f path form []
      return (a, assign key (.table form sub) es)
    | some (.table form sub) =>
      if form = .inline ∨ (dotted ∧ form = .explicit) then none
      else do
        let (a, sub) ← enter dotted f path form sub
        return (a, assign key (.table form sub) es)
    | some (.tables elements) => do
      let last ← elements.getLast?
      let (a, last) ← enter dotted f path .explicit last
      return (a, assign key (.tables (elements.dropLast ++ [last])) es)
    | some _ => none

/-- The entries with one added under a dotted key. -/
def putEntry (path : List String) (key : String) (value : Toml) (es : TableEntries) :
    Option TableEntries :=
  let add (form : TableForm) (es : TableEntries) : Option (Unit × TableEntries) :=
    if path ≠ [] ∧ form ≠ .dotted then none
    else if (Entries.get? key es).isSome then none
    else some ((), assign key value es)
  (enter true add path .explicit es).map (·.2)

/-- Takes out what a header has defined so far under a key: the entries of a table that only headers
of tables inside it have made, or nothing. -/
def openTable (path : List String) (key : String) (root : TableEntries) :
    Option (TableEntries × TableEntries) :=
  let take (_ : TableForm) (es : TableEntries) : Option (TableEntries × TableEntries) :=
    match Entries.get? key es with
    | none => some ([], es)
    | some (.table .implied sub) => some (sub, Entries.erase key es)
    | some _ => none
  enter false take path .explicit root

/-- The entries with a table under a header. -/
def addTable (path : List String) (key : String) (table root : TableEntries) :
    Option TableEntries :=
  let put (_ : TableForm) (es : TableEntries) : Option (Unit × TableEntries) :=
    some ((), assign key (.table .explicit table) es)
  (enter false put path .explicit root).map (·.2)

/-- The entries with place for more tables under one header. -/
def openElements (path : List String) (key : String) (root : TableEntries) : Option TableEntries :=
  let make (_ : TableForm) (es : TableEntries) : Option (Unit × TableEntries) :=
    match Entries.get? key es with
    | none => some ((), assign key (.tables []) es)
    | some (.tables _) => some ((), es)
    | some _ => none
  (enter false make path .explicit root).map (·.2)

/-- The entries with one more table under a header. -/
def addElement (path : List String) (key : String) (table root : TableEntries) :
    Option TableEntries :=
  let push (_ : TableForm) (es : TableEntries) : Option (Unit × TableEntries) :=
    match Entries.get? key es with
    | some (.tables elements) => some ((), assign key (.tables (elements ++ [table])) es)
    | _ => none
  (enter false push path .explicit root).map (·.2)

end DocumentDb.Toml
