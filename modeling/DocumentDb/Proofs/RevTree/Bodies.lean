import DocumentDb.Proofs.RevTree.Accounts

/-! # Bodies and parents that a tree knows

Merging one account of a revision into another keeps a parent and a body wherever one of the two has
it. So a graft adds the body of its head and no other, and every revision that has one below it on
the path has a parent afterwards, though not always that one: a parent that was known before stays.

* `RevTree.KnowsBody`, `RevTree.KnowsParent`: a tree knows a body or a parent of a revision.
* `RevTree.HasBody`: a tree knows that some body is that of a revision.
* `RevTree.knowsBody_absorbPath`, `RevTree.knowsParent_absorbPath`: what a graft adds to these.
* `RevTree.knowsBody_insertEdit`: what an edit adds.
* `RevTree.exists_child_of_bodiless`: a revision that a graft adds without a body comes right after
  another one on its path.
-/

namespace DocumentDb.RevTree

/-- The tree holds a revision with its body. -/
def KnowsBody (t : RevTree) (rev : Revision) : Prop := t.Says rev (·.body ≠ none)

/-- The tree holds a revision with some body. -/
def HasBody (t : RevTree) (rev : Revision) (body : Json) : Prop := t.Says rev (·.body = some body)

/-- The tree holds a revision with its parent. -/
def KnowsParent (t : RevTree) (rev : Revision) : Prop := t.Says rev (·.parent ≠ none)

section
variable {t u : RevTree} {rev : Revision}

theorem knowsBody_iff_hasBody : t.KnowsBody rev ↔ ∃ body, t.HasBody rev body := by
  constructor
  · rintro ⟨node, hnode, hbody⟩
    obtain ⟨body, hbody⟩ := Option.ne_none_iff_exists'.1 hbody
    exact ⟨body, node, hnode, hbody⟩
  · rintro ⟨body, node, hnode, hbody⟩
    exact ⟨node, hnode, by simp [hbody]⟩

theorem HasBody.unique {body body' : Json} (h : t.HasBody rev body) (h' : t.HasBody rev body') :
    body = body' := by
  obtain ⟨node, hnode, hbody⟩ := h
  obtain ⟨node', hnode', hbody'⟩ := h'
  cases hnode.symm.trans hnode'
  exact Option.some.inj (hbody.symm.trans hbody')

theorem Grows.hasBody {body : Json} (hg : t.Grows u) (h : t.HasBody rev body) :
    u.HasBody rev body := by
  obtain ⟨node, hnode, hbody⟩ := h
  obtain ⟨node', hnode', hwithin⟩ := hg rev node hnode
  exact ⟨node', hnode', hwithin.body hbody⟩

theorem Grows.knowsParent (hg : t.Grows u) (h : t.KnowsParent rev) : u.KnowsParent rev := by
  obtain ⟨node, hnode, hparent⟩ := h
  obtain ⟨parent, hparent⟩ := Option.ne_none_iff_exists'.1 hparent
  obtain ⟨node', hnode', hwithin⟩ := hg rev node hnode
  exact ⟨node', hnode', by simp [hwithin.parent hparent]⟩

/-! ## Grafts -/

theorem or_ne_none {α : Type} {a b : Option α} : a.or b ≠ none ↔ a ≠ none ∨ b ≠ none := by
  rw [← not_and_or]
  exact not_congr Option.or_eq_none_iff

theorem says_absorbAll {φ : Node → Prop}
    (hmerge : ∀ known offered : Node, φ (known.merge offered) ↔ φ known ∨ φ offered)
    (accs : List (Revision × Node)) :
    (t.absorbAll accs).Says rev φ ↔ t.Says rev φ ∨ ∃ node, (rev, node) ∈ accs ∧ φ node := by
  induction accs generalizing t with
  | nil => simp [absorbAll]
  | cons a accs ih =>
    obtain ⟨first, offered⟩ := a
    show ((t.absorb first offered).absorbAll accs).Says rev φ ↔ _
    rw [ih, says_absorb fun _ known _ => hmerge known offered, or_assoc, exists_mem_cons]

variable {deleted : Bool} {body : Json} {history : List Revision}

/-- A graft brings the body of its head. -/
theorem knowsBody_absorbPath :
    (t.absorbPath deleted body history).KnowsBody rev ↔
      t.KnowsBody rev ∨ history.head? = some rev := by
  unfold KnowsBody
  rw [absorbPath_eq, says_absorbAll fun _ _ => or_ne_none]
  apply or_congr_right
  constructor
  · rintro ⟨node, hmem, hbody⟩
    obtain ⟨v, hv⟩ := Option.ne_none_iff_exists'.1 hbody
    exact (exists_account_body.1 ⟨node, hmem, hv⟩).1
  · intro hhead
    obtain ⟨node, hmem, hv⟩ := exists_account_body.2 ⟨hhead, rfl⟩
    exact ⟨node, hmem, by rw [hv]; simp⟩

/-- The head of a graft has the body of the graft, unless it had one before. -/
theorem hasBody_absorbPath (h : ¬ t.KnowsBody rev) (hhead : history.head? = some rev) :
    (t.absorbPath deleted body history).HasBody rev body := by
  cases history with
  | nil => cases hhead
  | cons newest older =>
    cases hhead
    have hfirst : (t.absorb rev ⟨older.head?, deleted, some body⟩).HasBody rev body := by
      unfold HasBody Says
      rw [get?_absorb, if_pos rfl]
      cases hknown : t.get? rev with
      | none => exact ⟨_, rfl, rfl⟩
      | some known =>
        have hnone : known.body = none := not_not.1 fun hbody => h ⟨known, hknown, hbody⟩
        exact ⟨_, rfl, by simp [Node.merge, hnone]⟩
    exact (grows_absorbAncestors _ older).hasBody hfirst

theorem knowsParent_absorbPath :
    (t.absorbPath deleted body history).KnowsParent rev ↔
      t.KnowsParent rev ∨ ∃ parent, [rev, parent] <:+: history := by
  unfold KnowsParent
  rw [absorbPath_eq, says_absorbAll fun _ _ => or_ne_none]
  apply or_congr_right
  constructor
  · rintro ⟨node, hmem, hparent⟩
    obtain ⟨p, hp⟩ := Option.ne_none_iff_exists'.1 hparent
    exact ⟨p, exists_account_parent.1 ⟨node, hmem, hp⟩⟩
  · rintro ⟨p, hp⟩
    obtain ⟨node, hmem, hparent⟩ := exists_account_parent.2 hp
    exact ⟨node, hmem, by rw [hparent]; simp⟩

theorem exists_child_of_bodiless
    (hmem : rev ∈ history) (h : ¬ (t.absorbPath deleted body history).KnowsBody rev) :
    ∃ child, [child, rev] <:+: history := by
  obtain ⟨newer, older, rfl⟩ := List.append_of_mem hmem
  rcases List.eq_nil_or_concat newer with rfl | ⟨init, child, rfl⟩
  · exact absurd (knowsBody_absorbPath.2 (.inr rfl)) h
  · exact ⟨child, init, older, by simp⟩

/-! ## Edits -/

theorem insertEdit_of_new {parent : Option Revision} {new : Revision}
    (h : (t.insertEdit parent deleted body) = (.ok new, u)) (hnew : t.contains new = false) :
    t.get? new = none ∧ u = t.absorb new ⟨parent, deleted, some body⟩ := by
  obtain ⟨e, -, he⟩ | ⟨r, -, hknown, he⟩ | ⟨r, -, -, he⟩ := t.insertEdit_cases parent deleted body
  · rw [he] at h
    cases h
  · rw [he] at h
    cases h
    rw [hnew] at hknown
    cases hknown
  · rw [he] at h
    cases h
    exact ⟨contains_eq_false.1 hnew, rfl⟩

/-- An edit of a new revision brings the body of this revision. -/
theorem knowsBody_insertEdit {parent : Option Revision} {new : Revision}
    (h : (t.insertEdit parent deleted body) = (.ok new, u)) (hnew : t.contains new = false) :
    u.KnowsBody rev ↔ t.KnowsBody rev ∨ rev = new := by
  obtain ⟨hnone, rfl⟩ := insertEdit_of_new h hnew
  unfold KnowsBody
  rw [says_absorb fun _ known hk => by rw [hnone] at hk; cases hk]
  simp

theorem hasBody_insertEdit {parent : Option Revision} {new : Revision}
    (h : (t.insertEdit parent deleted body) = (.ok new, u)) (hnew : t.contains new = false) :
    u.HasBody new body := by
  obtain ⟨hnone, rfl⟩ := insertEdit_of_new h hnew
  refine ⟨⟨parent, deleted, some body⟩, ?_, rfl⟩
  rw [get?_absorb, if_pos rfl, hnone]
  rfl

theorem contains_insertEdit {parent : Option Revision} {new : Revision}
    (h : (t.insertEdit parent deleted body) = (.ok new, u)) :
    u.contains rev = true ↔ t.contains rev = true ∨ rev = new := by
  obtain ⟨e, -, he⟩ | ⟨r, -, hknown, he⟩ | ⟨r, -, -, he⟩ := t.insertEdit_cases parent deleted body
  · rw [he] at h
    cases h
  · rw [he] at h
    cases h
    constructor
    · exact .inl
    · rintro (h | rfl)
      · exact h
      · exact hknown
  · rw [he] at h
    cases h
    rw [contains_absorb, or_comm]

end

end DocumentDb.RevTree
