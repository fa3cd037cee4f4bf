import DocumentDb.Proofs.Revision.Order
import DocumentDb.RevTree.Basic
import Mathlib.Data.List.Chain

/-! # How a tree of revisions grows

An accepted change adds accounts of revisions to a tree, and what a tree knows stays known: a parent
is never replaced, and neither is a body or the flag that came with it.

* `RevTree.Step`: the accepted changes of a tree.
* `RevTree.insertEdit_cases`, `RevTree.graft_cases`: an edit and a graft either fail without a trace
  or are such a change.
* `RevTree.Grows`: what a tree knows stays known. `RevTree.Step.grows`: so it is with every change.
-/

namespace DocumentDb.RevTree

/-! ## Histories -/

/-- Every revision of a history is one generation above the next. -/
def Contiguous (history : List Revision) : Prop :=
  history.IsChain fun rev parent => parent.nextGeneration = .ok rev.generation

theorem checkContiguous_eq_ok {history : List Revision} :
    checkContiguous history = .ok () ↔ Contiguous history := by
  unfold Contiguous
  induction history with
  | nil => simp [checkContiguous]
  | cons rev older ih =>
    cases older with
    | nil => simp [checkContiguous]
    | cons parent older =>
      rw [List.isChain_cons_cons, ← ih, checkContiguous]
      cases hn : parent.nextGeneration with
      | error e => simp [bind, Except.bind]
      | ok n =>
        by_cases heq : rev.generation = n
        · simp [bind, Except.bind, heq]
        · simp [bind, Except.bind, heq, Ne.symm heq, throw, throwThe, MonadExceptOf.throw]

theorem checkHistory_eq_ok {history : List Revision} :
    checkHistory history = .ok () ↔ history ≠ [] ∧ Contiguous history := by
  unfold checkHistory
  cases history with
  | nil => simp
  | cons rev older => simp [checkContiguous_eq_ok]

theorem Contiguous.tail {rev : Revision} {older : List Revision} (h : Contiguous (rev :: older)) :
    Contiguous older := List.IsChain.of_cons h

theorem Contiguous.generation {rev parent : Revision} {older : List Revision}
    (h : Contiguous (rev :: older)) (hp : older.head? = some parent) :
    rev.generation = parent.generation + 1 := by
  cases older with
  | nil => cases hp
  | cons first older =>
    cases hp
    exact (Revision.nextGeneration_eq_ok.1 h.rel).2

/-! ## Which revisions a tree holds -/

theorem contains_eq_false {t : RevTree} {rev : Revision} :
    t.contains rev = false ↔ t.get? rev = none := by
  rw [← Bool.not_eq_true, contains_iff]
  cases t.get? rev <;> simp

/-- Where an account in a tree comes from after another was merged in. -/
theorem get?_absorb_cases {t : RevTree} {rev other : Revision} {offered node : Node}
    (h : (t.absorb rev offered).get? other = some node) :
    (other = rev ∧ (node = offered ∨
      ∃ known, t.get? other = some known ∧ node = known.merge offered)) ∨
    t.get? other = some node := by
  rw [get?_absorb] at h
  split at h
  · next heq =>
    refine .inl ⟨heq, ?_⟩
    rw [heq]
    cases hk : t.get? rev with
    | none =>
      rw [hk] at h
      cases h
      exact .inl rfl
    | some known =>
      rw [hk] at h
      cases h
      exact .inr ⟨known, rfl, rfl⟩
  · exact .inr h

theorem contains_absorb {t : RevTree} {rev other : Revision} {offered : Node} :
    (t.absorb rev offered).contains other = true ↔ other = rev ∨ t.contains other = true := by
  rw [contains_iff, get?_absorb]
  split
  · next h => simp [h]
  · next h => simp [h, contains_iff]

theorem contains_absorbAncestors {t : RevTree} {history : List Revision} {other : Revision} :
    (t.absorbAncestors history).contains other = true ↔
      other ∈ history ∨ t.contains other = true := by
  induction history generalizing t with
  | nil => simp [absorbAncestors]
  | cons rev older ih =>
    rw [absorbAncestors, ih, contains_absorb, List.mem_cons]
    tauto

theorem contains_absorbPath {t : RevTree} {deleted : Bool} {body : Json} {history : List Revision}
    {other : Revision} :
    (t.absorbPath deleted body history).contains other = true ↔
      other ∈ history ∨ t.contains other = true := by
  cases history with
  | nil => simp [absorbPath]
  | cons rev older =>
    rw [absorbPath, contains_absorbAncestors, contains_absorb, List.mem_cons]
    tauto

/-! ## Changes -/

/-- An accepted change of a tree. -/
inductive Step (t : RevTree) : RevTree → Prop where
  /-- The tree knows the edit already. -/
  | known : Step t t
  | edit {parent : Option Revision} {deleted : Bool} {body : Json} {rev : Revision}
      (hrev : Revision.compute parent deleted body = .ok rev) (hnew : t.contains rev = false) :
      Step t (t.absorb rev ⟨parent, deleted, some body⟩)
  | graft {history : List Revision} (deleted : Bool) (body : Json)
      (hhistory : history ≠ []) (hcontiguous : Contiguous history) :
      Step t (t.absorbPath deleted body history)

/-- An edit fails without a trace, is known already, or is added as a new revision. -/
theorem insertEdit_cases (t : RevTree) (parent : Option Revision) (deleted : Bool) (body : Json) :
    (∃ e, Revision.compute parent deleted body = .error e ∧
      t.insertEdit parent deleted body = (.error e, t)) ∨
    (∃ rev, Revision.compute parent deleted body = .ok rev ∧ t.contains rev = true ∧
      t.insertEdit parent deleted body = (.ok rev, t)) ∨
    (∃ rev, Revision.compute parent deleted body = .ok rev ∧ t.contains rev = false ∧
      t.insertEdit parent deleted body =
        (.ok rev, t.absorb rev ⟨parent, deleted, some body⟩)) := by
  unfold insertEdit
  cases hc : Revision.compute parent deleted body with
  | error e => exact .inl ⟨e, rfl, rfl⟩
  | ok rev =>
    cases hk : t.contains rev with
    | true => exact .inr (.inl ⟨rev, rfl, hk, by simp [hk]⟩)
    | false =>
      refine .inr (.inr ⟨rev, rfl, hk, ?_⟩)
      rw [absorb, contains_eq_false.1 hk]
      simp [hk]

/-- A graft fails without a trace or adds a contiguous history. -/
theorem graft_cases (t : RevTree) (history : List Revision) (deleted : Bool) (body : Json) :
    (∃ e, t.graft history deleted body = (.error e, t)) ∨
    (history ≠ [] ∧ Contiguous history ∧
      t.graft history deleted body = (.ok (), t.absorbPath deleted body history)) := by
  unfold graft
  cases hc : checkHistory history with
  | error e => exact .inl ⟨e, rfl⟩
  | ok u =>
    obtain ⟨hne, hcont⟩ := checkHistory_eq_ok.1 hc
    exact .inr ⟨hne, hcont, rfl⟩

theorem step_insertEdit (t : RevTree) (parent : Option Revision) (deleted : Bool) (body : Json) :
    t.Step (t.insertEdit parent deleted body).2 := by
  obtain ⟨e, -, h⟩ | ⟨rev, -, -, h⟩ | ⟨rev, hrev, hnew, h⟩ := t.insertEdit_cases parent deleted body
  · rw [h]
    exact .known
  · rw [h]
    exact .known
  · rw [h]
    exact .edit hrev hnew

theorem step_graft (t : RevTree) (history : List Revision) (deleted : Bool) (body : Json) :
    t.Step (t.graft history deleted body).2 := by
  obtain ⟨e, h⟩ | ⟨hne, hcont, h⟩ := t.graft_cases history deleted body
  · rw [h]
    exact .known
  · rw [h]
    exact .graft deleted body hne hcont

/-! ## Growth -/

/-- What one account of a revision says, another says too. -/
structure Node.Within (a b : Node) : Prop where
  parent : ∀ {rev : Revision}, a.parent = some rev → b.parent = some rev
  body : ∀ {v : Json}, a.body = some v → b.body = some v
  deleted : a.body ≠ none → b.deleted = a.deleted

theorem Node.Within.refl (a : Node) : a.Within a := ⟨id, id, fun _ => rfl⟩

theorem Node.Within.trans {a b c : Node} (hab : a.Within b) (hbc : b.Within c) : a.Within c where
  parent h := hbc.parent (hab.parent h)
  body h := hbc.body (hab.body h)
  deleted h := by
    obtain ⟨v, hv⟩ := Option.ne_none_iff_exists'.1 h
    have hb : b.body ≠ none := by rw [hab.body hv]; simp
    rw [hbc.deleted hb, hab.deleted h]

theorem Node.within_merge (known offered : Node) : known.Within (known.merge offered) where
  parent h := by simp [merge, h]
  body h := by simp [merge, h]
  deleted h := by
    obtain ⟨v, hv⟩ := Option.ne_none_iff_exists'.1 h
    simp [merge, hv]

theorem Node.parent_merge {known offered : Node} {rev : Revision}
    (h : (known.merge offered).parent = some rev) :
    known.parent = some rev ∨ offered.parent = some rev := by
  cases hk : known.parent with
  | none =>
    right
    simpa [merge, hk] using h
  | some parent =>
    left
    simpa [merge, hk] using h

theorem Node.body_merge_eq_none {known offered : Node} (h : (known.merge offered).body = none) :
    known.body = none ∧ offered.body = none := Option.or_eq_none_iff.1 h

/-- What one tree knows, another knows too. -/
def Grows (t u : RevTree) : Prop :=
  ∀ rev node, t.get? rev = some node → ∃ node', u.get? rev = some node' ∧ node.Within node'

theorem Grows.refl (t : RevTree) : t.Grows t := fun _ node h => ⟨node, h, Node.Within.refl node⟩

theorem Grows.trans {t u v : RevTree} (htu : t.Grows u) (huv : u.Grows v) : t.Grows v := by
  intro rev node h
  obtain ⟨node', hu, hw⟩ := htu rev node h
  obtain ⟨node'', hv, hw'⟩ := huv rev node' hu
  exact ⟨node'', hv, hw.trans hw'⟩

theorem Grows.contains {t u : RevTree} (h : t.Grows u) {rev : Revision}
    (hrev : t.contains rev = true) : u.contains rev = true := by
  obtain ⟨node, hn⟩ := contains_iff.1 hrev
  obtain ⟨node', hn', -⟩ := h rev node hn
  exact contains_iff.2 ⟨node', hn'⟩

theorem grows_absorb (t : RevTree) (rev : Revision) (offered : Node) :
    t.Grows (t.absorb rev offered) := by
  intro other node h
  rw [get?_absorb]
  split
  · next heq =>
    rw [← heq, h]
    exact ⟨_, rfl, node.within_merge offered⟩
  · exact ⟨node, h, Node.Within.refl node⟩

theorem grows_absorbAncestors (t : RevTree) (history : List Revision) :
    t.Grows (t.absorbAncestors history) := by
  induction history generalizing t with
  | nil => exact Grows.refl t
  | cons rev older ih => exact (grows_absorb t rev _).trans (ih _)

theorem grows_absorbPath (t : RevTree) (deleted : Bool) (body : Json) (history : List Revision) :
    t.Grows (t.absorbPath deleted body history) := by
  cases history with
  | nil => exact Grows.refl t
  | cons rev older => exact (grows_absorb t rev _).trans (grows_absorbAncestors _ older)

theorem Step.grows {t u : RevTree} (h : t.Step u) : t.Grows u := by
  cases h with
  | known => exact Grows.refl t
  | edit _ _ => exact grows_absorb t _ _
  | graft deleted body _ _ => exact grows_absorbPath t deleted body _

end DocumentDb.RevTree
