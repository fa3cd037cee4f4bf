import DocumentDb.Proofs.RevTree.Accounts
import DocumentDb.Proofs.RevTree.Winner
import Mathlib.Order.MinMax

/-! # A tree after a graft

The head of a history is above its ancestors, so a graft leaves the greater one of the old winner
and the head as the winner, whatever else it adds. What a graft has added is never lost, so the same
graft adds nothing later on.

* `RevTree.Contiguous.descending`: the order of a history.
* `RevTree.Sound.winner_absorbPath`, `RevTree.get?_absorbPath_head`: the winner after a graft, and
  what is known of a head that is new.
* `RevTree.Node.merge_eq_self_iff`, `RevTree.Holds`: when an account has nothing to add.
* `RevTree.Grows.absorbPath_eq_self`: a path has nothing to add to any tree that has grown from a
  graft of it.
-/

namespace DocumentDb.RevTree

/-! ## The winner -/

theorem Contiguous.descending {history : List Revision} (h : Contiguous history) :
    history.Pairwise fun rev older => older < rev := by
  have hchain : history.IsChain fun rev older => older < rev := by
    refine List.IsChain.imp ?_ h
    intro rev parent hnext
    obtain ⟨-, hgen⟩ := Revision.nextGeneration_eq_ok.1 hnext
    exact Revision.lt_of_generation_lt (by omega)
  exact List.isChain_iff_pairwise.1 hchain

section
variable {t : RevTree} {newest : Revision} {older : List Revision} {deleted : Bool} {body : Json}

theorem Contiguous.le_head {rev : Revision} (h : Contiguous (newest :: older))
    (hrev : rev ∈ newest :: older) : rev ≤ newest := by
  rcases List.mem_cons.1 hrev with rfl | hrev
  · exact le_rfl
  · exact le_of_lt ((List.pairwise_cons.1 h.descending).1 rev hrev)

/-- The winner after a graft is the greater one of the winner before and the head of the history. -/
theorem Sound.winner_absorbPath (ht : t.Sound) (hcont : Contiguous (newest :: older)) :
    (t.absorbPath deleted body (newest :: older)).winner =
      some (t.winner.elim newest (max · newest)) := by
  have hnewest : newest ≤ t.winner.elim newest (max · newest) := by
    cases t.winner with
    | none => exact le_rfl
    | some w => exact le_max_right w newest
  refine (ht.absorbPath hcont deleted body).winner_of_greatest ?_ ?_
  · rw [contains_absorbPath]
    cases hw : t.winner with
    | none => exact .inl List.mem_cons_self
    | some w =>
      show max w newest ∈ newest :: older ∨ t.contains (max w newest) = true
      rcases max_choice w newest with h | h
      · rw [h]
        exact .inr (contains_winner hw)
      · rw [h]
        exact .inl List.mem_cons_self
  · intro rev hrev
    rcases contains_absorbPath.1 hrev with hrev | hrev
    · exact (hcont.le_head hrev).trans hnewest
    · obtain ⟨w, hw, hle⟩ := ht.exists_winner hrev
      rw [hw]
      exact hle.trans (le_max_left w newest)

theorem get?_absorbAncestors_of_not_mem {rev : Revision} {history : List Revision}
    (h : rev ∉ history) : (t.absorbAncestors history).get? rev = t.get? rev := by
  induction history generalizing t with
  | nil => rfl
  | cons first older ih =>
    obtain ⟨hne, hrest⟩ := not_or.1 (List.mem_cons.not.1 h)
    rw [absorbAncestors, ih hrest, get?_absorb, if_neg hne]

/-- A head that is new has its parent, its flag and its body from the graft: it is none of its own
ancestors, of which less is told. -/
theorem get?_absorbPath_head (hcont : Contiguous (newest :: older))
    (hnew : t.contains newest = false) (deleted : Bool) (body : Json) :
    (t.absorbPath deleted body (newest :: older)).get? newest =
      some ⟨older.head?, deleted, some body⟩ := by
  have hnot : newest ∉ older := fun h =>
    lt_irrefl newest ((List.pairwise_cons.1 hcont.descending).1 newest h)
  rw [absorbPath, get?_absorbAncestors_of_not_mem hnot, get?_absorb, if_pos rfl,
    contains_eq_false.1 hnew]
  rfl

end

/-! ## Accounts with nothing to add -/

/-- An account has nothing to add to one that has a parent and a body wherever it has them itself. -/
theorem Node.merge_eq_self_iff {known offered : Node} :
    known.merge offered = known ↔
      (offered.parent ≠ none → known.parent ≠ none) ∧ (offered.body ≠ none → known.body ≠ none) := by
  obtain ⟨parent, deleted, body⟩ := known
  obtain ⟨parent', deleted', body'⟩ := offered
  cases parent <;> cases parent' <;> cases body <;> cases body' <;> simp [merge]

theorem Node.merge_merge (known offered : Node) :
    (known.merge offered).merge offered = known.merge offered := by
  rw [merge_eq_self_iff]
  unfold merge
  constructor
  · exact fun h hnone => h (Option.or_eq_none_iff.1 hnone).2
  · exact fun h hnone => h (Option.or_eq_none_iff.1 hnone).2

theorem Node.Within.merge_eq_self {a b offered : Node} (h : a.Within b)
    (ha : a.merge offered = a) : b.merge offered = b := by
  obtain ⟨hparent, hbody⟩ := merge_eq_self_iff.1 ha
  refine merge_eq_self_iff.2 ⟨fun hoffered => ?_, fun hoffered => ?_⟩
  · obtain ⟨parent, hp⟩ := Option.ne_none_iff_exists'.1 (hparent hoffered)
    simp [h.parent hp]
  · obtain ⟨body, hb⟩ := Option.ne_none_iff_exists'.1 (hbody hoffered)
    simp [h.body hb]

/-- The tree knows all that an account of a revision tells. -/
def Holds (t : RevTree) (a : Revision × Node) : Prop :=
  t.Says a.1 fun known => known.merge a.2 = known

section
variable {t u : RevTree}

theorem Holds.absorb_eq_self {rev : Revision} {offered : Node} (h : t.Holds (rev, offered)) :
    t.absorb rev offered = t := by
  obtain ⟨known, hknown, hmerge⟩ := h
  apply ext_get?
  intro other
  rw [get?_absorb]
  split
  · next hrev => simp [hrev, hknown, hmerge]
  · rfl

theorem holds_absorb (t : RevTree) (rev : Revision) (offered : Node) :
    (t.absorb rev offered).Holds (rev, offered) := by
  refine ⟨(t.get? rev).elim offered (·.merge offered), by rw [get?_absorb, if_pos rfl], ?_⟩
  cases t.get? rev with
  | none => exact Node.merge_eq_self_iff.2 ⟨id, id⟩
  | some known => exact known.merge_merge offered

theorem Grows.holds {a : Revision × Node} (hg : t.Grows u) (h : t.Holds a) : u.Holds a := by
  obtain ⟨known, hknown, hmerge⟩ := h
  obtain ⟨known', hknown', hwithin⟩ := hg a.1 known hknown
  exact ⟨known', hknown', hwithin.merge_eq_self hmerge⟩

theorem grows_absorbAll (t : RevTree) (accs : List (Revision × Node)) :
    t.Grows (t.absorbAll accs) := by
  induction accs generalizing t with
  | nil => exact Grows.refl t
  | cons a accs ih => exact (grows_absorb t a.1 a.2).trans (ih (t.absorb a.1 a.2))

/-- What has been merged in is known from then on. -/
theorem holds_absorbAll {accs : List (Revision × Node)} {a : Revision × Node} (h : a ∈ accs) :
    (t.absorbAll accs).Holds a := by
  induction accs generalizing t with
  | nil => cases h
  | cons first accs ih =>
    rcases List.mem_cons.1 h with rfl | h
    · exact (grows_absorbAll _ accs).holds (holds_absorb t a.1 a.2)
    · exact ih h

theorem absorbAll_eq_self {accs : List (Revision × Node)} (h : ∀ a ∈ accs, t.Holds a) :
    t.absorbAll accs = t := by
  induction accs with
  | nil => rfl
  | cons a accs ih =>
    show (t.absorb a.1 a.2).absorbAll accs = t
    rw [(h a List.mem_cons_self).absorb_eq_self]
    exact ih fun b hb => h b (List.mem_cons_of_mem a hb)

/-- A path has nothing to add to a tree that has grown from a graft of it. -/
theorem Grows.absorbPath_eq_self {deleted : Bool} {body : Json} {history : List Revision}
    (h : (t.absorbPath deleted body history).Grows u) :
    u.absorbPath deleted body history = u := by
  rw [absorbPath_eq] at h ⊢
  exact absorbAll_eq_self fun a ha => h.holds (holds_absorbAll ha)

end

end DocumentDb.RevTree
