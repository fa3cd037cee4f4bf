import DocumentDb.Proofs.RevTree.Growth
import DocumentDb.Proofs.SortedMap.Keys

/-! # The winner of a tree

In every tree that edits and grafts can build, the greatest leaf is the greatest of all revisions,
and its body is known.

* `RevTree.Sound`: the invariant. A child is one generation above its parent, and a revision of
  which only the name is known has a revision of the next generation beside it.
* `RevTree.Sound.step`: every change keeps it.
* `RevTree.Sound.le_winner`, `RevTree.Sound.winning_eq`: what follows for the winner.
* `RevTree.winner_greatest`: the same for every sequence of edits and grafts.
-/

namespace DocumentDb.RevTree

/-! ## The invariant -/

/-- What holds of every tree that edits and grafts can build. -/
structure Sound (t : RevTree) : Prop where
  generation : ∀ {rev : Revision} {node : Node} {parent : Revision},
    t.get? rev = some node → node.parent = some parent → rev.generation = parent.generation + 1
  covered : ∀ {rev : Revision} {node : Node}, t.get? rev = some node → node.body = none →
    ∃ child, t.contains child = true ∧ child.generation = rev.generation + 1

theorem sound_empty : Sound empty where
  generation h := by cases h
  covered h := by cases h

/-- An account may be merged in if its parent is one generation below, and if it has a body or a
revision of the next generation is there already. -/
theorem Sound.absorb {t : RevTree} (ht : t.Sound) {rev : Revision} {offered : Node}
    (hparent : ∀ {parent}, offered.parent = some parent →
      rev.generation = parent.generation + 1)
    (hcovered : offered.body = none →
      ∃ child, t.contains child = true ∧ child.generation = rev.generation + 1) :
    (t.absorb rev offered).Sound where
  generation {other node parent} h hp := by
    rcases get?_absorb_cases h with ⟨rfl, rfl | ⟨known, hknown, rfl⟩⟩ | hother
    · exact hparent hp
    · rcases Node.parent_merge hp with hkp | hop
      · exact ht.generation hknown hkp
      · exact hparent hop
    · exact ht.generation hother hp
  covered {other node} h hb := by
    have hchild : ∃ child, t.contains child = true ∧ child.generation = other.generation + 1 := by
      rcases get?_absorb_cases h with ⟨rfl, rfl | ⟨known, hknown, rfl⟩⟩ | hother
      · exact hcovered hb
      · exact hcovered (Node.body_merge_eq_none hb).2
      · exact ht.covered hother hb
    obtain ⟨child, hc, hg⟩ := hchild
    exact ⟨child, contains_absorb.2 (.inr hc), hg⟩

/-- The ancestors on a history may be merged in once the revision above the first is there. -/
theorem Sound.absorbAncestors {t : RevTree} (ht : t.Sound) {history : List Revision}
    (hcont : Contiguous history)
    (hchild : ∀ {rev}, history.head? = some rev →
      ∃ child, t.contains child = true ∧ child.generation = rev.generation + 1) :
    (t.absorbAncestors history).Sound := by
  induction history generalizing t with
  | nil => exact ht
  | cons rev older ih =>
    refine ih (ht.absorb hcont.generation fun _ => hchild rfl) hcont.tail ?_
    -- The next ancestor has the one just merged in above it.
    intro next hnext
    exact ⟨rev, contains_absorb.2 (.inl rfl), hcont.generation hnext⟩

theorem Sound.absorbPath {t : RevTree} (ht : t.Sound) {history : List Revision}
    (hcont : Contiguous history) (deleted : Bool) (body : Json) :
    (t.absorbPath deleted body history).Sound := by
  cases history with
  | nil => exact ht
  | cons rev older =>
    have hhead : (t.absorb rev ⟨older.head?, deleted, some body⟩).Sound :=
      ht.absorb hcont.generation fun h => by cases h
    refine hhead.absorbAncestors hcont.tail ?_
    intro next hnext
    exact ⟨rev, contains_absorb.2 (.inl rfl), hcont.generation hnext⟩

theorem Sound.step {t u : RevTree} (ht : t.Sound) (h : t.Step u) : u.Sound := by
  cases h with
  | known => exact ht
  | edit hrev hnew =>
    refine ht.absorb ?_ fun hbody => by cases hbody
    intro parent hparent
    cases hparent
    exact Revision.generation_of_compute hrev
  | graft deleted body hne hcont => exact ht.absorbPath hcont deleted body

/-! ## The winner -/

theorem mem_keys {t : RevTree} {rev : Revision} : rev ∈ t.nodes.keys ↔ t.contains rev = true := by
  rw [contains_iff, SortedMap.mem_keys]
  rfl

theorem pairwise_keys (t : RevTree) : t.nodes.keys.Pairwise (· < ·) := t.nodes.pairwise_keys

theorem winner_mem_leaves {t : RevTree} {w : Revision} (h : t.winner = some w) : w ∈ t.leaves :=
  List.mem_of_head? h

theorem contains_winner {t : RevTree} {w : Revision} (h : t.winner = some w) :
    t.contains w = true := (mem_leaves.1 (winner_mem_leaves h)).1

theorem le_getLast?_keys {t : RevTree} {w rev : Revision} (hw : t.nodes.keys.getLast? = some w)
    (hrev : t.contains rev = true) : rev ≤ w := by
  obtain ⟨init, hkeys⟩ := List.getLast?_eq_some_iff.1 hw
  have hpw := t.pairwise_keys
  rw [hkeys] at hpw
  rw [← mem_keys, hkeys] at hrev
  rcases List.mem_append.1 hrev with hinit | hlast
  · exact le_of_lt ((List.pairwise_append.1 hpw).2.2 rev hinit w (List.mem_singleton.2 rfl))
  · exact le_of_eq (List.mem_singleton.1 hlast)

theorem Sound.not_mem_parents {t : RevTree} (ht : t.Sound) {w : Revision}
    (hmax : ∀ rev, t.contains rev = true → rev ≤ w) : w ∉ t.parents := by
  intro hw
  obtain ⟨child, node, hnode, hparent⟩ := mem_parents.1 hw
  have hgen : child.generation = w.generation + 1 := ht.generation hnode hparent
  have hle : child.generation ≤ w.generation :=
    Revision.generation_le (hmax child (contains_iff.2 ⟨node, hnode⟩))
  omega

/-- The greatest revision is the winner. -/
theorem Sound.winner_eq {t : RevTree} (ht : t.Sound) : t.winner = t.nodes.keys.getLast? := by
  unfold winner leaves
  rw [List.head?_reverse]
  cases hlast : t.nodes.keys.getLast? with
  | none =>
    rw [List.getLast?_eq_none_iff.1 hlast]
    rfl
  | some w =>
    have hleaf : w ∉ t.parents := ht.not_mem_parents fun rev => le_getLast?_keys hlast
    obtain ⟨init, hkeys⟩ := List.getLast?_eq_some_iff.1 hlast
    rw [hkeys, List.filter_append]
    simp [hleaf]

theorem Sound.le_winner {t : RevTree} (ht : t.Sound) {w rev : Revision} (hw : t.winner = some w)
    (hrev : t.contains rev = true) : rev ≤ w :=
  le_getLast?_keys (ht.winner_eq ▸ hw) hrev

theorem Sound.winner_eq_none {t : RevTree} (ht : t.Sound) :
    t.winner = none ↔ t.nodes.isEmpty = true := by
  rw [ht.winner_eq, List.getLast?_eq_none_iff]
  unfold SortedMap.keys SortedMap.isEmpty
  rw [List.map_eq_nil_iff, List.isEmpty_iff]

theorem Sound.exists_winner {t : RevTree} (ht : t.Sound) {rev : Revision}
    (hrev : t.contains rev = true) : ∃ w, t.winner = some w ∧ rev ≤ w := by
  cases hw : t.winner with
  | some w => exact ⟨w, rfl, ht.le_winner hw hrev⟩
  | none =>
    rw [ht.winner_eq, List.getLast?_eq_none_iff] at hw
    rw [← mem_keys, hw] at hrev
    cases hrev

theorem Sound.winner_of_greatest {t : RevTree} (ht : t.Sound) {w : Revision}
    (hw : t.contains w = true) (hmax : ∀ rev, t.contains rev = true → rev ≤ w) :
    t.winner = some w := by
  obtain ⟨w', hw', hle⟩ := ht.exists_winner hw
  rw [hw', le_antisymm (hmax w' (contains_winner hw')) hle]

theorem Sound.winning_eq {t : RevTree} (ht : t.Sound) {w : Revision} (hw : t.winner = some w) :
    ∃ node body, t.get? w = some node ∧ node.body = some body ∧ t.winning = some (w, node) := by
  obtain ⟨node, hnode⟩ := contains_iff.1 (contains_winner hw)
  cases hbody : node.body with
  | some body => exact ⟨node, body, hnode, hbody, by simp [winning, hw, hnode]⟩
  | none =>
    obtain ⟨child, hchild, hgen⟩ := ht.covered hnode hbody
    have hle := Revision.generation_le (ht.le_winner hw hchild)
    omega

theorem winning_eq_some {t : RevTree} {w : Revision} {node : Node} :
    t.winning = some (w, node) ↔ t.winner = some w ∧ t.get? w = some node := by
  simp only [winning, Option.bind_eq_some_iff, Option.map_eq_some_iff, Prod.mk.injEq]
  constructor
  · rintro ⟨w', hw', node', hnode', rfl, rfl⟩
    exact ⟨hw', hnode'⟩
  · rintro ⟨hw, hnode⟩
    exact ⟨w, hw, node, hnode, rfl, rfl⟩

theorem winner_of_winning {t : RevTree} {w : Revision} {node : Node}
    (h : t.winning = some (w, node)) : t.winner = some w := (winning_eq_some.1 h).1

theorem isDeleted_eq {t : RevTree} {w : Revision} {node : Node} (h : t.winning = some (w, node)) :
    t.isDeleted = node.deleted := by rw [isDeleted, h]; rfl

/-- A winner that stays keeps its flag and its body. -/
theorem Grows.winning {t u : RevTree} (h : t.Grows u) (ht : t.Sound) {w : Revision}
    (hw : t.winner = some w) (hu : u.winner = some w) :
    ∃ node node', t.winning = some (w, node) ∧ u.winning = some (w, node') ∧
      node'.deleted = node.deleted ∧ node'.body = node.body := by
  obtain ⟨node, body, hnode, hbody, hwin⟩ := ht.winning_eq hw
  obtain ⟨node', hnode', hwithin⟩ := h w node hnode
  have hne : node.body ≠ none := by rw [hbody]; simp
  have hbody' : node'.body = node.body := by rw [hwithin.body hbody, hbody]
  exact ⟨node, node', hwin, by simp [RevTree.winning, hu, hnode'], hwithin.deleted hne, hbody'⟩

/-! ## Sequences of changes -/

/-- A change that is asked of a tree. -/
inductive Change where
  | edit (parent : Option Revision) (deleted : Bool) (body : Json)
  | graft (history : List Revision) (deleted : Bool) (body : Json)

/-- The tree after a change, which may fail. -/
def change (t : RevTree) : Change → RevTree
  | .edit parent deleted body => (t.insertEdit parent deleted body).2
  | .graft history deleted body => (t.graft history deleted body).2

/-- The tree after some changes, one after the other. -/
def after (t : RevTree) (changes : List Change) : RevTree := changes.foldl change t

theorem step_change (t : RevTree) (c : Change) : t.Step (t.change c) := by
  cases c with
  | edit parent deleted body => exact t.step_insertEdit parent deleted body
  | graft history deleted body => exact t.step_graft history deleted body

theorem Sound.after {t : RevTree} (ht : t.Sound) (changes : List Change) :
    (t.after changes).Sound := by
  induction changes generalizing t with
  | nil => exact ht
  | cons c changes ih => exact ih (ht.step (t.step_change c))

/-- After any edits and grafts, with any arguments and failed ones included: there is a winner
unless the tree is empty, it is the greatest of all revisions, a leaf, and its body is known; and a
child is one generation above its parent. -/
theorem winner_greatest (changes : List Change) :
    let t := empty.after changes
    (t.winner = none ↔ t.nodes.isEmpty = true) ∧
    (∀ w, t.winner = some w →
      (∀ rev, t.contains rev = true → rev ≤ w) ∧ w ∈ t.leaves ∧
      ∃ node body, t.get? w = some node ∧ node.body = some body) ∧
    ∀ rev node parent, t.get? rev = some node → node.parent = some parent →
      rev.generation = parent.generation + 1 := by
  intro t
  have ht : t.Sound := sound_empty.after changes
  refine ⟨ht.winner_eq_none, ?_, fun rev node parent => ht.generation⟩
  intro w hw
  obtain ⟨node, body, hnode, hbody, -⟩ := ht.winning_eq hw
  exact ⟨fun rev => ht.le_winner hw, winner_mem_leaves hw, node, body, hnode, hbody⟩

end DocumentDb.RevTree
