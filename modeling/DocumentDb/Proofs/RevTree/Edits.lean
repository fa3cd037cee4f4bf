import DocumentDb.Proofs.RevTree.Bodies
import DocumentDb.Proofs.RevTree.Winner

/-! # Edits that are acknowledged

An edit is acknowledged with its revision, also when the tree holds this revision already. A graft
brings the ancestors of its head into the tree without their bodies, so the tree may hold the
revision of an edit and not its content; such an edit is acknowledged and forgotten.

* `RevTree.Change.Names`: the revisions that a change brings into every tree.
* `RevTree.contains_change`, `RevTree.contains_after`: the revisions of a tree are those that its
  changes have named.
* `RevTree.knowsBody_or_grafted`: a revision without a body comes from a graft.
* `RevTree.Sound.new_of_winner`: an edit on top of the winner is always new.
* `RevTree.acknowledged_iff`: which acknowledged edits are in the tree afterwards.
* `RevTree.grafted_edit_forgotten`: one that is not.
-/

namespace DocumentDb.RevTree

section
variable {t u : RevTree} {rev : Revision} {c : Change} {changes : List Change}

/-! ## The revisions that changes bring -/

/-- Whatever the tree, a change that is accepted brings a revision: its own, or one of a history
that can be grafted. -/
def Change.Names (rev : Revision) : Change → Prop
  | .edit parent deleted body => Revision.compute parent deleted body = .ok rev
  | .graft history _ _ => checkHistory history = .ok () ∧ rev ∈ history

theorem names_of_compute {parent : Option Revision} {deleted : Bool} {body : Json} {r : Revision}
    (hr : Revision.compute parent deleted body = .ok r) :
    (Change.edit parent deleted body).Names rev ↔ rev = r := by
  show Revision.compute parent deleted body = .ok rev ↔ rev = r
  rw [hr, Except.ok.injEq, eq_comm]

theorem contains_change :
    (t.change c).contains rev = true ↔ t.contains rev = true ∨ c.Names rev := by
  cases c with
  | edit parent deleted body =>
    show (t.insertEdit parent deleted body).2.contains rev = true ↔ _
    obtain ⟨e, he, h⟩ | ⟨r, hr, -, h⟩ | ⟨r, hr, -, h⟩ := t.insertEdit_cases parent deleted body
    · simp [h, Change.Names, he]
    · rw [names_of_compute hr, ← contains_insertEdit h, h]
    · rw [names_of_compute hr, ← contains_insertEdit h, h]
  | graft history deleted body =>
    show (t.graft history deleted body).2.contains rev = true ↔
      t.contains rev = true ∨ checkHistory history = .ok () ∧ rev ∈ history
    unfold graft
    cases hcheck : checkHistory history with
    | error e => simp
    | ok =>
      dsimp only
      rw [contains_absorbPath, or_comm]
      simp

theorem grows_after (t : RevTree) (changes : List Change) : t.Grows (t.after changes) := by
  induction changes generalizing t with
  | nil => exact Grows.refl t
  | cons c changes ih => exact (t.step_change c).grows.trans (ih (t.change c))

/-- A tree holds what it held before and the revisions that its changes have named. -/
theorem contains_after :
    (t.after changes).contains rev = true ↔
      t.contains rev = true ∨ ∃ c ∈ changes, c.Names rev := by
  induction changes generalizing t with
  | nil => simp [after]
  | cons c changes ih =>
    show ((t.change c).after changes).contains rev = true ↔ _
    rw [ih, contains_change, or_assoc, List.exists_mem_cons_iff]

/-! ## Revisions without a body -/

/-- A graft that has been accepted among some changes lists a revision. -/
def Grafted (changes : List Change) (rev : Revision) : Prop :=
  ∃ history deleted body, Change.graft history deleted body ∈ changes ∧
    (Change.graft history deleted body).Names rev

theorem Grafted.contains (h : Grafted changes rev) : (t.after changes).contains rev = true := by
  obtain ⟨history, deleted, body, hmem, hnames⟩ := h
  exact contains_after.2 (.inr ⟨_, hmem, hnames⟩)

/-- An edit brings its body with a revision that is new, so only a graft leaves a revision without
one. -/
theorem knowsBody_or_grafted (hrev : (t.change c).contains rev = true)
    (hnew : t.contains rev = false) :
    (t.change c).KnowsBody rev ∨ Grafted [c] rev := by
  have hnames : c.Names rev := (contains_change.1 hrev).resolve_left (by simp [hnew])
  cases c with
  | edit parent deleted body =>
    left
    have hinsert : t.insertEdit parent deleted body =
        (.ok rev, t.set rev ⟨parent, deleted, some body⟩) := by
      unfold insertEdit
      rw [show Revision.compute parent deleted body = .ok rev from hnames]
      simp [hnew]
    have hknows := (knowsBody_insertEdit hinsert hnew).2 (.inr rfl)
    show (t.insertEdit parent deleted body).2.KnowsBody rev
    rw [hinsert]
    exact hknows
  | graft history deleted body => exact .inr ⟨history, deleted, body, List.mem_cons_self, hnames⟩

theorem Grows.knowsBody (hg : t.Grows u) (h : t.KnowsBody rev) : u.KnowsBody rev := by
  obtain ⟨body, hbody⟩ := knowsBody_iff_hasBody.1 h
  exact knowsBody_iff_hasBody.2 ⟨body, hg.hasBody hbody⟩

theorem grafted_of_bodiless (hnew : t.contains rev = false)
    (hrev : (t.after changes).contains rev = true) (hbody : ¬ (t.after changes).KnowsBody rev) :
    Grafted changes rev := by
  induction changes generalizing t with
  | nil =>
    rw [show t.after [] = t from rfl, hnew] at hrev
    cases hrev
  | cons c changes ih =>
    cases hc : (t.change c).contains rev with
    | true =>
      rcases knowsBody_or_grafted hc hnew with hknown | ⟨history, deleted, body, hmem, hnames⟩
      · exact absurd ((grows_after _ changes).knowsBody hknown) hbody
      · refine ⟨history, deleted, body, ?_, hnames⟩
        rw [List.mem_singleton.1 hmem]
        exact List.mem_cons_self
    | false =>
      obtain ⟨history, deleted, body, hmem, hnames⟩ := ih hc hrev hbody
      exact ⟨history, deleted, body, List.mem_cons_of_mem _ hmem, hnames⟩

/-! ## Edits -/

variable {parent : Option Revision} {deleted : Bool} {body : Json}

theorem compute_of_insertEdit (h : t.insertEdit parent deleted body = (.ok rev, u)) :
    Revision.compute parent deleted body = .ok rev := by
  unfold insertEdit at h
  cases hc : Revision.compute parent deleted body with
  | error e =>
    rw [hc] at h
    cases h
  | ok r =>
    rw [hc] at h
    dsimp only at h
    split at h <;> cases h <;> rfl

theorem insertEdit_of_known (h : t.insertEdit parent deleted body = (.ok rev, u))
    (hknown : t.contains rev = true) : u = t := by
  obtain ⟨e, -, he⟩ | ⟨r, -, -, he⟩ | ⟨r, -, hnew, he⟩ := t.insertEdit_cases parent deleted body
  · rw [he] at h
    cases h
  · rw [he] at h
    cases h
    rfl
  · rw [he] at h
    cases h
    rw [hnew] at hknown
    cases hknown

theorem get?_insertEdit_of_new (h : t.insertEdit parent deleted body = (.ok rev, u))
    (hnew : t.contains rev = false) : u.get? rev = some ⟨parent, deleted, some body⟩ := by
  obtain ⟨hnone, rfl⟩ := insertEdit_of_new h hnew
  rw [get?_absorb, if_pos rfl, hnone]
  rfl

/-- The winner is the greatest revision, and an edit on top of it is greater still. -/
theorem Sound.new_of_winner (ht : t.Sound) (h : t.insertEdit t.winner deleted body = (.ok rev, u)) :
    t.contains rev = false := by
  rw [← Bool.not_eq_true]
  intro hknown
  obtain ⟨w, hw, hle⟩ := ht.exists_winner hknown
  have hrev : Revision.compute (some w) deleted body = .ok rev := by
    rw [← hw]
    exact compute_of_insertEdit h
  exact absurd (lt_of_lt_of_le (Revision.lt_of_compute hrev) hle) (lt_irrefl w)

/-- An edit that is acknowledged with a revision whose body was unknown is in the tree afterwards,
exactly as it was made, unless a graft has named this revision as an ancestor. Then the tree stays
as it was, without the body, the flag and the parent of the edit. This does not happen to edits on
top of the winner, and an edit whose revision was there with a body adds nothing. -/
theorem acknowledged_iff (h : (empty.after changes).insertEdit parent deleted body = (.ok rev, u)) :
    (¬ (empty.after changes).KnowsBody rev →
      (u.get? rev = some ⟨parent, deleted, some body⟩ ↔ ¬ Grafted changes rev)) ∧
    ((empty.after changes).contains rev = true → u = empty.after changes) ∧
    (parent = (empty.after changes).winner →
      u.get? rev = some ⟨parent, deleted, some body⟩) := by
  refine ⟨fun hbody => ⟨fun hget hgrafted => ?_, fun hgrafted => ?_⟩, insertEdit_of_known h, ?_⟩
  · have hu : u = empty.after changes := insertEdit_of_known h hgrafted.contains
    exact hbody ⟨_, hu ▸ hget, by simp⟩
  · refine get?_insertEdit_of_new h (Bool.eq_false_iff.2 fun hknown => hgrafted ?_)
    exact grafted_of_bodiless rfl hknown hbody
  · rintro rfl
    exact get?_insertEdit_of_new h ((sound_empty.after changes).new_of_winner h)

end

/-! ## A first edit that a graft has named before -/

/-- The first edit of a document, without members. -/
def blank : Revision := ⟨1, "d238ed8f8ab9914acac58821033e752c"⟩

theorem compute_blank : Revision.compute none false .emptyObject = .ok blank := by
  have hhash : Revision.hashOf (Revision.preimage none false .emptyObject) = blank.hash := by
    decide +kernel
  rw [Revision.compute_none, hhash]
  rfl

/-- A graft whose head has a given revision for its parent. -/
def above (first : Revision) : Change := .graft [⟨2, "x"⟩, first] false .emptyObject

/-- The graft has named another first revision. -/
theorem edit_beside_graft : ∃ u,
    (empty.after [above ⟨1, "y"⟩]).insertEdit none false .emptyObject = (.ok blank, u) ∧
      u.get? blank = some ⟨none, false, some .emptyObject⟩ := by
  have hnew : (empty.after [above ⟨1, "y"⟩]).get? blank = none := by rfl
  have hbody : ¬ (empty.after [above ⟨1, "y"⟩]).KnowsBody blank := by
    rintro ⟨node, hnode, -⟩
    rw [hnew] at hnode
    cases hnode
  have hgrafted : ¬ Grafted [above ⟨1, "y"⟩] blank := by
    intro hgrafted
    have hknown : (empty.after [above ⟨1, "y"⟩]).contains blank = true := hgrafted.contains
    rw [contains_eq_false.2 hnew] at hknown
    cases hknown
  have hedit : (empty.after [above ⟨1, "y"⟩]).insertEdit none false .emptyObject =
      (.ok blank, (empty.after [above ⟨1, "y"⟩]).set blank ⟨none, false, some .emptyObject⟩) := by
    unfold insertEdit
    rw [compute_blank]
    simp [contains_eq_false.2 hnew]
  exact ⟨_, hedit, ((acknowledged_iff hedit).1 hbody).2 hgrafted⟩

/-- The graft has named the revision of the edit. -/
theorem grafted_edit_forgotten :
    ¬ (empty.after [above blank]).KnowsBody blank ∧
    (empty.after [above blank]).insertEdit none false .emptyObject =
      (.ok blank, empty.after [above blank]) ∧
    (empty.after [above blank]).get? blank = some ⟨none, false, none⟩ := by
  have hget : (empty.after [above blank]).get? blank = some ⟨none, false, none⟩ := by rfl
  refine ⟨?_, ?_, hget⟩
  · rw [KnowsBody, says_of_get? hget]
    simp
  · unfold insertEdit
    rw [compute_blank]
    simp [contains_iff.2 ⟨_, hget⟩]

end DocumentDb.RevTree
