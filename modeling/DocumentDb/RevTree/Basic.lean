import DocumentDb.Revision.Hash

/-! # Trees of revisions

All revisions of a document form a forest. Edits never overwrite: they add a child under a revision
or a new root. A conflict shows as several leaves, and the greatest leaf is the winner.

* `RevTree.leaves`, `RevTree.winner`, `RevTree.conflicts`: what a tree says about its document.
* `RevTree.mem_leaves`, `RevTree.mem_parents`: what they mean in terms of `RevTree.get?`.
* `RevTree.insertEdit`: adds an edit, whose revision follows from its content.
* `RevTree.graft`: adds a path of given revisions; a path only ever adds information.
* `RevTree.get?_set`, `RevTree.get?_absorb`: what each change does to look-ups.

A change gives its result and the tree afterwards, also when it fails.
-/

namespace DocumentDb

/-- What a tree knows about one of its revisions. -/
structure RevTree.Node where
  /-- The revision that was edited; none for a root. -/
  parent : Option Revision
  deleted : Bool
  /-- The body; none where only the revision is known. -/
  body : Option Json

/-- The revisions of one document. -/
structure RevTree where
  nodes : SortedMap Revision RevTree.Node

namespace RevTree

instance : Inhabited RevTree := ⟨⟨.empty⟩⟩

/-- The tree without revisions. -/
def empty : RevTree := ⟨.empty⟩

/-! ## Observers -/

/-- What the tree knows about a revision. -/
def get? (t : RevTree) (rev : Revision) : Option Node := t.nodes.get? rev

/-- Whether the tree holds the revision. -/
def contains (t : RevTree) (rev : Revision) : Bool := t.nodes.contains rev

/-- The revisions that are the parent of another. -/
def parents (t : RevTree) : List Revision := t.nodes.values.filterMap (·.parent)

/-- The revisions without a child, in descending order. -/
def leaves (t : RevTree) : List Revision :=
  let parents := t.parents
  (t.nodes.keys.filter fun r => !parents.contains r).reverse

/-- The greatest leaf. -/
def winner (t : RevTree) : Option Revision := t.leaves.head?

/-- The winner with what is known about it. -/
def winning (t : RevTree) : Option (Revision × Node) :=
  t.winner.bind fun rev => (t.get? rev).map (rev, ·)

/-- Whether the winner is a deletion. -/
def isDeleted (t : RevTree) : Bool := t.winning.any (·.2.deleted)

/-- Whether a revision is known not to be a deletion. -/
def isLive (t : RevTree) (rev : Revision) : Bool := (t.get? rev).any (!·.deleted)

/-- The leaves that are neither the winner nor deletions, in descending order. -/
def conflicts (t : RevTree) : List Revision :=
  t.leaves.filter fun r => some r != t.winner && t.isLive r

@[simp] theorem get?_empty (rev : Revision) : empty.get? rev = none := rfl

theorem contains_iff {t : RevTree} {rev : Revision} :
    t.contains rev = true ↔ ∃ node, t.get? rev = some node := Option.isSome_iff_exists

/-- Trees that know the same about every revision are equal. -/
theorem ext_get? {t u : RevTree} (h : ∀ rev, t.get? rev = u.get? rev) : t = u :=
  congrArg RevTree.mk (SortedMap.ext_get? h)

theorem mem_parents {t : RevTree} {rev : Revision} :
    rev ∈ t.parents ↔ ∃ child node, t.get? child = some node ∧ node.parent = some rev := by
  simp only [parents, List.mem_filterMap, SortedMap.mem_values]
  exact ⟨fun ⟨node, ⟨child, hc⟩, hp⟩ => ⟨child, node, hc, hp⟩,
    fun ⟨child, node, hc, hp⟩ => ⟨node, ⟨child, hc⟩, hp⟩⟩

/-- The leaves are the revisions that are nobody's parent. -/
theorem mem_leaves {t : RevTree} {rev : Revision} :
    rev ∈ t.leaves ↔ t.contains rev = true ∧ rev ∉ t.parents := by
  simp [leaves, contains_iff, SortedMap.mem_keys, get?]

/-! ## Changes -/

/-- The tree with a node put under a revision. -/
def set (t : RevTree) (rev : Revision) (node : Node) : RevTree := ⟨t.nodes.insert rev node⟩

@[simp] theorem get?_set_self (t : RevTree) (rev : Revision) (node : Node) :
    (t.set rev node).get? rev = some node :=
  t.nodes.get?_insert_self rev node

theorem get?_set_of_ne (t : RevTree) {rev other : Revision} (h : other ≠ rev) (node : Node) :
    (t.set rev node).get? other = t.get? other :=
  t.nodes.get?_insert_of_ne h node

theorem get?_set (t : RevTree) (rev other : Revision) (node : Node) :
    (t.set rev node).get? other = if other = rev then some node else t.get? other :=
  t.nodes.get?_insert rev other node

/-- Adds an edit under a parent or as a root. An edit that is present already changes nothing. -/
def insertEdit (t : RevTree) (parent : Option Revision) (deleted : Bool) (body : Json) :
    Except Error Revision × RevTree :=
  match Revision.compute parent deleted body with
  | .error e => (.error e, t)
  | .ok rev =>
    if t.contains rev then (.ok rev, t) else (.ok rev, t.set rev ⟨parent, deleted, some body⟩)

/-- What is known after two accounts of one revision: the first counts, the second fills its
gaps. -/
def Node.merge (known offered : Node) : Node where
  parent := known.parent.or offered.parent
  deleted := if known.body.isNone && offered.body.isSome then offered.deleted else known.deleted
  body := known.body.or offered.body

/-- The tree with an account of a revision merged in. -/
def absorb (t : RevTree) (rev : Revision) (offered : Node) : RevTree :=
  match t.get? rev with
  | some known => t.set rev (known.merge offered)
  | none => t.set rev offered

/-- An account concerns its own revision alone, and is merged into what is known about it. -/
theorem get?_absorb (t : RevTree) (rev other : Revision) (offered : Node) :
    (t.absorb rev offered).get? other =
      if other = rev then some ((t.get? rev).elim offered (·.merge offered))
      else t.get? other := by
  unfold absorb
  split <;> rename_i h <;> simp [get?_set, h]

/-- The tree with the ancestors on a path merged in, of which nothing but the parents is known. -/
def absorbAncestors (t : RevTree) : List Revision → RevTree
  | [] => t
  | rev :: older => (t.absorb rev ⟨older.head?, false, none⟩).absorbAncestors older

/-- The tree with a path merged in, newest revision first. -/
def absorbPath (t : RevTree) (deleted : Bool) (body : Json) : List Revision → RevTree
  | [] => t
  | rev :: older => (t.absorb rev ⟨older.head?, deleted, some body⟩).absorbAncestors older

/-- Whether every revision of a history is one generation above the next. -/
def checkContiguous : List Revision → Except Error Unit
  | rev :: parent :: older => do
    if rev.generation ≠ (← parent.nextGeneration) then
      throw (.badRequest ("revision history is not contiguous at " ++ rev.text))
    checkContiguous (parent :: older)
  | _ => .ok ()

/-- Whether a history can be grafted. -/
def checkHistory (history : List Revision) : Except Error Unit :=
  if history.isEmpty then .error (.badRequest "revision history is empty")
  else checkContiguous history

/-- Grafts a history, newest revision first, whose head carries the body. -/
def graft (t : RevTree) (history : List Revision) (deleted : Bool) (body : Json) :
    Except Error Unit × RevTree :=
  match checkHistory history with
  | .error e => (.error e, t)
  | .ok () => (.ok (), t.absorbPath deleted body history)

end RevTree

end DocumentDb
