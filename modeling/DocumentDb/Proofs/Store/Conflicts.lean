import DocumentDb.Proofs.Store.Leaves

/-! # The conflicts that come with a document

A document that is asked for with its conflicts comes with all live leaves but the winner, whichever
revision of it was asked for. So these are the other live leaves if the winner was asked for. Any
other revision comes with itself if it is a live leaf, and without the winner.

* `RevTree.LiveLeaf`, `RevTree.mem_conflicts`, `RevTree.pairwise_conflicts`: the conflicts of a tree.
* `RevTree.conflicts_are_others_iff`: the revisions of which they are the other live leaves.
* `Store.conflicts_listed`: what comes with a document of any store that writes can build.
* `Store.loser_among_its_conflicts`: a revision that comes with itself.
-/

namespace DocumentDb

namespace RevTree

/-- A leaf that is no deletion. -/
def LiveLeaf (t : RevTree) (rev : Revision) : Prop :=
  rev ∈ t.leaves ∧ ∃ node, t.get? rev = some node ∧ node.deleted = false

variable {t : RevTree} {w rev : Revision}

theorem isLive_iff :
    t.isLive rev = true ↔ ∃ node, t.get? rev = some node ∧ node.deleted = false := by
  simp [isLive, Option.any_eq_true]

theorem pairwise_leaves (t : RevTree) : t.leaves.Pairwise (· > ·) :=
  List.pairwise_reverse.2 (t.pairwise_keys.filter _)

theorem pairwise_conflicts (t : RevTree) : t.conflicts.Pairwise (· > ·) :=
  t.pairwise_leaves.filter _

theorem mem_conflicts (hw : t.winner = some w) :
    rev ∈ t.conflicts ↔ t.LiveLeaf rev ∧ rev ≠ w := by
  unfold conflicts LiveLeaf
  rw [List.mem_filter, hw, ← isLive_iff]
  simp [and_assoc, and_comm]

/-- The conflicts are the live leaves other than the winner. For another revision they are the other
live leaves only if neither of the two is a live leaf. -/
theorem conflicts_are_others_iff (hw : t.winner = some w) :
    (∀ other, other ∈ t.conflicts ↔ t.LiveLeaf other ∧ other ≠ rev) ↔
      rev = w ∨ ¬ t.LiveLeaf rev ∧ ¬ t.LiveLeaf w := by
  simp only [mem_conflicts hw]
  constructor
  · intro h
    by_cases hrev : rev = w
    · exact .inl hrev
    · refine .inr ⟨fun hlive => ?_, fun hlive => ?_⟩
      · exact ((h rev).1 ⟨hlive, hrev⟩).2 rfl
      · exact ((h w).2 ⟨hlive, Ne.symm hrev⟩).2 rfl
  · rintro (rfl | ⟨hrev, hwinner⟩) other
    · exact Iff.rfl
    · refine and_congr_right fun hlive => ?_
      have hne : other ≠ w := fun h => hwinner (h ▸ hlive)
      have hne' : other ≠ rev := fun h => hrev (h ▸ hlive)
      exact iff_of_true hne hne'

end RevTree

namespace Store

theorem rev_of_select {t : RevTree} {named : Option Revision} {rev w : Revision}
    {node : RevTree.Node} (hw : t.winner = some w) (h : select t named = .ok (rev, node)) :
    rev = named.getD w := by
  obtain ⟨-, rfl | ⟨rfl, hrev, -⟩⟩ := select_eq_ok.1 h
  · rfl
  · exact Option.some.inj (hrev.symm.trans hw)

/-- After any writes to the empty store, refused ones included, whatever revision of a document is
asked for with its conflicts, the winner if none is named: it comes with the live leaves other than
the winner, each once and in descending order. These are the live leaves other than itself exactly
if it is the winner, or if it is no live leaf and the winner is a deletion. -/
theorem conflicts_listed (ws : List Write) {id : String} {named : Option Revision} {doc : Document}
    (h : (empty.after ws).get id named true = .ok doc) :
    let t := (empty.after ws).tree id
    ∃ w, t.winner = some w ∧ doc.rev = named.getD w ∧ doc.conflicts.Pairwise (· > ·) ∧
      (∀ rev, rev ∈ doc.conflicts ↔ t.LiveLeaf rev ∧ rev ≠ w) ∧
      ((∀ rev, rev ∈ doc.conflicts ↔ t.LiveLeaf rev ∧ rev ≠ doc.rev) ↔
        doc.rev = w ∨ ¬ t.LiveLeaf doc.rev ∧ ¬ t.LiveLeaf w) := by
  obtain ⟨t, found, node, body, ht, hselect, -, rfl⟩ := get_eq_ok h
  obtain ⟨w, hw⟩ := (sound_after ws).winner ht
  rw [tree_eq ht]
  exact ⟨w, hw, rev_of_select hw hselect, t.pairwise_conflicts,
    fun rev => RevTree.mem_conflicts hw, RevTree.conflicts_are_others_iff hw⟩

/-- Two branches of one document of which the longer one has been deleted. -/
def deletedBranch : List Write :=
  [.graft "a" [⟨1, "r"⟩] false .emptyObject, .graft "a" [⟨2, "a"⟩, ⟨1, "r"⟩] false .emptyObject,
    .graft "a" [⟨2, "b"⟩, ⟨1, "r"⟩] false .emptyObject,
    .graft "a" [⟨3, "d"⟩, ⟨2, "c"⟩, ⟨1, "r"⟩] true .emptyObject]

/-- The root of the branches is no leaf, and their winner is a deletion. -/
theorem conflicts_of_root :
    let s := empty.after deletedBranch
    s.get "a" (some ⟨1, "r"⟩) true =
        .ok ⟨"a", ⟨1, "r"⟩, false, .emptyObject, [⟨2, "b"⟩, ⟨2, "a"⟩]⟩ ∧
      ∀ rev, rev ∈ [⟨2, "b"⟩, ⟨2, "a"⟩] ↔ (s.tree "a").LiveLeaf rev ∧ rev ≠ ⟨1, "r"⟩ := by
  intro s
  have hget : s.get "a" (some ⟨1, "r"⟩) true =
      .ok ⟨"a", ⟨1, "r"⟩, false, .emptyObject, [⟨2, "b"⟩, ⟨2, "a"⟩]⟩ := by rfl
  obtain ⟨w, hw, -, -, -, hothers⟩ := conflicts_listed deletedBranch hget
  have hwinner : w = ⟨3, "d"⟩ := Option.some.inj (hw.symm.trans rfl)
  refine ⟨hget, hothers.2 (.inr ⟨fun hlive => ?_, fun hlive => ?_⟩)⟩
  · exact absurd hlive.1 (by decide +kernel)
  · obtain ⟨-, node, hnode, hdeleted⟩ := hwinner ▸ hlive
    cases hnode
    cases hdeleted

/-- Two first revisions of one document: the lesser one is listed as a conflict of itself, and the
greater one, a live leaf too, is not. -/
theorem loser_among_its_conflicts :
    let s := empty.after [.graft "a" [⟨1, "a"⟩] false .emptyObject,
      .graft "a" [⟨1, "b"⟩] false .emptyObject]
    s.get "a" (some ⟨1, "a"⟩) true =
        .ok ⟨"a", ⟨1, "a"⟩, false, .emptyObject, [⟨1, "a"⟩]⟩ ∧
      (s.tree "a").LiveLeaf ⟨1, "b"⟩ := by
  refine ⟨by rfl, by decide +kernel, ⟨none, false, some .emptyObject⟩, by rfl, rfl⟩

end Store

end DocumentDb
