import DocumentDb.Toml.Spelled
import DocumentDb.Toml.Table

/-! # Reading TOML

`Toml.parse?` reads a document: lines that hold an entry, the header of a table, the header of one
of several tables, or nothing. Tables that spell a moment are replaced by it when the document is
complete.
-/

namespace DocumentDb.Toml

/-! ## Values -/

mutual

/-- A value; `fuel` bounds the length of the derivation, `depth` how deep values may nest. -/
def scanValue : Nat → Nat → List Char → Option (Toml × List Char)
  | 0, _, _ => none
  | _ + 1, _, [] => none
  | fuel + 1, depth, c :: cs =>
    if c = '"' ∨ c = '\x27' then
      (scanString (c :: cs)).map fun (s, rest) => (string (String.ofList s), rest)
    else if c = '[' then
      match depth with
      | 0 => none
      | depth + 1 => (scanItems fuel depth cs).map fun (vs, rest) => (array vs, rest)
    else if c = '{' then
      match depth with
      | 0 => none
      | depth + 1 =>
        (scanInline fuel depth true [] cs).map fun (es, rest) => (table .inline es, rest)
    else if c = 't' then
      match cs with
      | 'r' :: 'u' :: 'e' :: rest => some (boolean true, rest)
      | _ => none
    else if c = 'f' then
      match cs with
      | 'a' :: 'l' :: 's' :: 'e' :: rest => some (boolean false, rest)
      | _ => none
    else scanQuantity (c :: cs)

/-- The items of an array up to its closing bracket. -/
def scanItems : Nat → Nat → List Char → Option (List Toml × List Char)
  | 0, _, _ => none
  | fuel + 1, depth, cs => do
    match ← skipLines cs with
    | ']' :: rest => return ([], rest)
    | cs =>
      let (v, rest) ← scanValue fuel depth cs
      match ← skipLines rest with
      | ',' :: rest =>
        let (vs, rest) ← scanItems fuel depth rest
        return (v :: vs, rest)
      | ']' :: rest => return ([v], rest)
      | _ => none

/-- The entries of a table between braces up to the closing one. -/
def scanInline : Nat → Nat → Bool → TableEntries → List Char → Option (TableEntries × List Char)
  | 0, _, _, _, _ => none
  | fuel + 1, depth, first, es, cs =>
    match first, skipBlank cs with
    | true, '}' :: rest => some (es, rest)
    | _, cs => do
      let (path, key, rest) ← scanKey cs
      let rest ← scanChar '=' rest
      let (v, rest) ← scanValue fuel depth (skipBlank rest)
      let es ← putEntry path key v es
      match skipBlank rest with
      | ',' :: rest => scanInline fuel depth false es rest
      | '}' :: rest => return (es, rest)
      | _ => none

end

/-! ## Documents -/

/-- Where the entries of the current lines go. -/
inductive Header where
  /-- Into the document. -/
  | root
  | table (path : List String) (key : String)
  | element (path : List String) (key : String)

/-- A document that has been read so far. -/
structure Draft where
  /-- The tables that are complete. -/
  root : TableEntries
  /-- The header of the table that is being read. -/
  header : Header
  /-- The entries of that table. -/
  current : TableEntries

namespace Draft

/-- The empty document. -/
def empty : Draft := ⟨[], .root, []⟩

/-- The entries of the document with the current table put into it. -/
def close (d : Draft) : Option TableEntries :=
  match d.header with
  | .root => some d.current
  | .table path key => addTable path key d.current d.root
  | .element path key => addElement path key d.current d.root

/-- The document with an entry added to the current table. -/
def put (d : Draft) (path : List String) (key : String) (value : Toml) : Option Draft :=
  (putEntry path key value d.current).map fun es => { d with current := es }

/-- The document with a table begun. -/
def beginTable (d : Draft) (path : List String) (key : String) : Option Draft := do
  let root ← d.close
  let (current, root) ← openTable path key root
  return ⟨root, .table path key, current⟩

/-- The document with one of several tables begun. -/
def beginElement (d : Draft) (path : List String) (key : String) : Option Draft := do
  let root ← d.close
  let root ← openElements path key root
  return ⟨root, .element path key, []⟩

end Draft

/-- One line that holds an entry. -/
def scanEntry (d : Draft) (cs : List Char) : Option (Draft × List Char) := do
  let (path, key, rest) ← scanKey cs
  let rest ← scanChar '=' rest
  let rest := skipBlank rest
  let (v, rest) ← scanValue (2 * rest.length + 2) maxDepth rest
  let rest ← skipLine rest
  return (← d.put path key v, rest)

/-- One line that holds a header, behind its first bracket. -/
def scanHeader (d : Draft) : List Char → Option (Draft × List Char)
  | '[' :: cs => do
    let (path, key, rest) ← scanKey cs
    let rest ← scanChar ']' (← scanChar ']' rest)
    let rest ← skipLine rest
    return (← d.beginElement path key, rest)
  | cs => do
    let (path, key, rest) ← scanKey cs
    let rest ← skipLine (← scanChar ']' rest)
    return (← d.beginTable path key, rest)

/-- The document at the end of the lines; `fuel` bounds their number. -/
def scanLines : Nat → Draft → List Char → Option Draft
  | 0, _, _ => none
  | fuel + 1, d, cs =>
    match skipBlank cs with
    | [] => some d
    | '[' :: cs => (scanHeader d cs).bind fun (d, rest) => scanLines fuel d rest
    | c :: cs =>
      if c = '#' ∨ c = '\n' ∨ c = '\r' then
        (skipLine (c :: cs)).bind fun rest => scanLines fuel d rest
      else (scanEntry d (c :: cs)).bind fun (d, rest) => scanLines fuel d rest

/-- The characters behind a byte order mark. -/
def dropMark : List Char → List Char
  | '\uFEFF' :: cs => cs
  | cs => cs

/-- The entries of a document, in the order in which their keys came up. -/
def parse? (text : String) : Option TableEntries := do
  let cs := dropMark text.toList
  let d ← scanLines (cs.length + 1) .empty cs
  readEntries (← d.close)

end DocumentDb.Toml
