import DocumentDb.Proofs.RevTree.Growth

/-! # What a path tells of its revisions

A path of revisions gives one account of each of them: its parent is the next one on the path, and
the flag and the body belong to the head. A graft merges the accounts in one by one, so what a tree
holds after many grafts is found by looking at accounts alone.

* `RevTree.accounts`: the accounts of a path. `RevTree.mem_accounts`: where on the path each of them
  comes from.
* `RevTree.absorbAll`, `RevTree.absorbPath_eq`: grafting is merging in the accounts.
* `RevTree.Says`, `RevTree.says_absorb`: what a tree says of a revision, before and after an account
  of it.
-/

namespace DocumentDb.RevTree

/-! ## Accounts of a path -/

/-- The accounts of the ancestors on a path. -/
def ancestorAccounts : List Revision → List (Revision × Node)
  | [] => []
  | rev :: older => (rev, ⟨older.head?, false, none⟩) :: ancestorAccounts older

/-- The accounts that a path gives of its revisions, newest first. -/
def accounts (deleted : Bool) (body : Json) : List Revision → List (Revision × Node)
  | [] => []
  | rev :: older => (rev, ⟨older.head?, deleted, some body⟩) :: ancestorAccounts older

/-- The tree with some accounts merged in, one after the other. -/
def absorbAll (t : RevTree) (accs : List (Revision × Node)) : RevTree :=
  accs.foldl (fun t a => t.absorb a.1 a.2) t

theorem absorbAncestors_eq (t : RevTree) (history : List Revision) :
    t.absorbAncestors history = t.absorbAll (ancestorAccounts history) := by
  induction history generalizing t with
  | nil => rfl
  | cons rev older ih => exact ih (t.absorb rev ⟨older.head?, false, none⟩)

theorem absorbPath_eq (t : RevTree) (deleted : Bool) (body : Json) (history : List Revision) :
    t.absorbPath deleted body history = t.absorbAll (accounts deleted body history) := by
  cases history with
  | nil => rfl
  | cons rev older => exact absorbAncestors_eq _ older

theorem mem_ancestorAccounts {history : List Revision} {rev : Revision} {node : Node} :
    (rev, node) ∈ ancestorAccounts history ↔
      ∃ newer older, history = newer ++ rev :: older ∧ node = ⟨older.head?, false, none⟩ := by
  induction history with
  | nil => simp [ancestorAccounts]
  | cons first rest ih =>
    rw [ancestorAccounts, List.mem_cons, ih]
    constructor
    · rintro (h | ⟨newer, older, rfl, rfl⟩)
      · cases h
        exact ⟨[], rest, rfl, rfl⟩
      · exact ⟨first :: newer, older, rfl, rfl⟩
    · rintro ⟨newer, older, h, rfl⟩
      cases newer with
      | nil =>
        cases h
        exact .inl rfl
      | cons _ newer =>
        cases h
        exact .inr ⟨newer, older, rfl, rfl⟩

/-- Only the head of a path comes with a flag and a body. -/
theorem mem_accounts {deleted : Bool} {body : Json} {history : List Revision} {rev : Revision}
    {node : Node} :
    (rev, node) ∈ accounts deleted body history ↔
      (∃ older, history = rev :: older ∧ node = ⟨older.head?, deleted, some body⟩) ∨
      ∃ first newer older, history = first :: newer ++ rev :: older ∧
        node = ⟨older.head?, false, none⟩ := by
  cases history with
  | nil => simp [accounts]
  | cons first rest =>
    rw [accounts, List.mem_cons, mem_ancestorAccounts]
    constructor
    · rintro (h | ⟨newer, older, rfl, rfl⟩)
      · cases h
        exact .inl ⟨rest, rfl, rfl⟩
      · exact .inr ⟨first, newer, older, rfl, rfl⟩
    · rintro (⟨older, h, rfl⟩ | ⟨first', newer, older, h, rfl⟩)
      · cases h
        exact .inl rfl
      · cases h
        exact .inr ⟨newer, older, rfl, rfl⟩

section
variable {deleted : Bool} {body : Json} {history : List Revision} {rev : Revision}

theorem exists_account : (∃ node, (rev, node) ∈ accounts deleted body history) ↔ rev ∈ history := by
  constructor
  · rintro ⟨node, h⟩
    obtain ⟨older, rfl, -⟩ | ⟨first, newer, older, rfl, -⟩ := mem_accounts.1 h
    · exact List.mem_cons_self
    · simp
  · intro h
    obtain ⟨newer, older, rfl⟩ := List.append_of_mem h
    cases newer with
    | nil => exact ⟨_, mem_accounts.2 (.inl ⟨older, rfl, rfl⟩)⟩
    | cons first newer => exact ⟨_, mem_accounts.2 (.inr ⟨first, newer, older, rfl, rfl⟩)⟩

/-- The accounts name the parent that comes next on the path. -/
theorem exists_account_parent {parent : Revision} :
    (∃ node, (rev, node) ∈ accounts deleted body history ∧ node.parent = some parent) ↔
      [rev, parent] <:+: history := by
  have hnext : ∀ older : List Revision, older.head? = some parent ↔
      ∃ more, older = parent :: more := by
    intro older
    cases older with
    | nil => simp
    | cons next more => simp [eq_comm]
  constructor
  · rintro ⟨node, h, hp⟩
    obtain ⟨older, rfl, rfl⟩ | ⟨first, newer, older, rfl, rfl⟩ := mem_accounts.1 h
    · obtain ⟨more, rfl⟩ := (hnext older).1 hp
      exact ⟨[], more, rfl⟩
    · obtain ⟨more, rfl⟩ := (hnext older).1 hp
      exact ⟨first :: newer, more, by simp⟩
  · rintro ⟨newer, more, rfl⟩
    cases newer with
    | nil => exact ⟨_, mem_accounts.2 (.inl ⟨parent :: more, rfl, rfl⟩), rfl⟩
    | cons first newer =>
      refine ⟨_, mem_accounts.2 (.inr ⟨first, newer, parent :: more, ?_, rfl⟩), rfl⟩
      simp

theorem exists_account_body {v : Json} :
    (∃ node, (rev, node) ∈ accounts deleted body history ∧ node.body = some v) ↔
      history.head? = some rev ∧ body = v := by
  constructor
  · rintro ⟨node, h, hv⟩
    obtain ⟨older, rfl, rfl⟩ | ⟨first, newer, older, rfl, rfl⟩ := mem_accounts.1 h
    · exact ⟨rfl, Option.some.inj hv⟩
    · cases hv
  · rintro ⟨hhead, rfl⟩
    obtain ⟨older, rfl⟩ := List.head?_eq_some_iff.1 hhead
    exact ⟨_, mem_accounts.2 (.inl ⟨older, rfl, rfl⟩), rfl⟩

theorem exists_account_deleted :
    (∃ node, (rev, node) ∈ accounts deleted body history ∧ node.deleted = true) ↔
      history.head? = some rev ∧ deleted = true := by
  constructor
  · rintro ⟨node, h, hd⟩
    obtain ⟨older, rfl, rfl⟩ | ⟨first, newer, older, rfl, rfl⟩ := mem_accounts.1 h
    · exact ⟨rfl, hd⟩
    · cases hd
  · rintro ⟨hhead, hd⟩
    obtain ⟨older, rfl⟩ := List.head?_eq_some_iff.1 hhead
    exact ⟨_, mem_accounts.2 (.inl ⟨older, rfl, rfl⟩), hd⟩

end

/-! ## What a tree says of a revision -/

/-- The tree holds a revision, and what it knows of it has a property. -/
def Says (t : RevTree) (rev : Revision) (φ : Node → Prop) : Prop :=
  ∃ node, t.get? rev = some node ∧ φ node

theorem not_says_empty {rev : Revision} {φ : Node → Prop} : ¬ empty.Says rev φ := by
  rintro ⟨node, h, -⟩
  cases h

theorem says_of_get? {t : RevTree} {rev : Revision} {node : Node} (h : t.get? rev = some node)
    {φ : Node → Prop} : t.Says rev φ ↔ φ node := by
  constructor
  · rintro ⟨node', h', hφ⟩
    rw [h] at h'
    cases h'
    exact hφ
  · exact fun hφ => ⟨node, h, hφ⟩

theorem exists_mem_cons {rev other : Revision} {offered : Node} {accs : List (Revision × Node)}
    {φ : Node → Prop} :
    (∃ node, (rev, node) ∈ (other, offered) :: accs ∧ φ node) ↔
      rev = other ∧ φ offered ∨ ∃ node, (rev, node) ∈ accs ∧ φ node := by
  simp only [List.mem_cons, Prod.mk.injEq]
  constructor
  · rintro ⟨node, ⟨rfl, rfl⟩ | hmem, hφ⟩
    · exact .inl ⟨rfl, hφ⟩
    · exact .inr ⟨node, hmem, hφ⟩
  · rintro (⟨rfl, hφ⟩ | ⟨node, hmem, hφ⟩)
    · exact ⟨offered, .inl ⟨rfl, rfl⟩, hφ⟩
    · exact ⟨node, .inr hmem, hφ⟩

/-- A tree says after an account what it said before or what the account says, if merging the two
neither loses nor adds anything. -/
theorem says_absorb {t : RevTree} {rev other : Revision} {offered : Node} {φ : Node → Prop}
    (hmerge : other = rev → ∀ known, t.get? rev = some known →
      (φ (known.merge offered) ↔ φ known ∨ φ offered)) :
    (t.absorb rev offered).Says other φ ↔ t.Says other φ ∨ other = rev ∧ φ offered := by
  unfold Says
  rw [get?_absorb]
  by_cases heq : other = rev
  · subst heq
    cases hk : t.get? other with
    | none => simp
    | some known => simp [hmerge rfl known hk]
  · simp [heq]

end DocumentDb.RevTree
