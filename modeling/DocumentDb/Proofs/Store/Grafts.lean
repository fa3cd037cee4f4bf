import DocumentDb.Proofs.RevTree.Grafts
import DocumentDb.Proofs.Store.Acceptance

/-! # What a graft does to a store

Whether a graft is accepted depends on its arguments alone. It adds the revisions of its history to
the document, and the log tells of it exactly if the head of the history overtakes the winner. A
store has nothing to gain from a graft that it has accepted before.

* `Store.AcceptsGraft`, `Store.graft_accepted_iff`: when a graft is accepted.
* `Store.Overtaken`, `Store.Grafted`, `Store.grafts_exact`: what an accepted graft makes of any store
  that writes can build.
* `Store.Grows.graft_eq_self`, `Store.graft_again`: a graft that has been accepted once may be
  repeated at any time.
-/

namespace DocumentDb.Store

section
variable {s : Store} {id : String} {history : List Revision} {deleted : Bool} {body : Json}
  {newest : Revision}

/-! ## Acceptance -/

/-- What has to hold before a graft: the id is one that a caller may choose, and the history has a
revision and is without gaps. -/
def AcceptsGraft (id : String) (history : List Revision) : Prop :=
  id ≠ "" ∧ id.toList.head? ≠ some '_' ∧ history ≠ [] ∧ RevTree.Contiguous history

theorem graft_accepted_iff :
    (∃ newest, (s.graft id history deleted body).1 = .ok newest) ↔ AcceptsGraft id history := by
  unfold AcceptsGraft
  rw [← and_assoc, ← checkDocId_eq_ok, ← RevTree.checkHistory_eq_ok]
  unfold graft RevTree.graft
  cases checkDocId id with
  | error e => simp
  | ok u =>
    cases history with
    | nil => simp [RevTree.checkHistory]
    | cons newest older => cases RevTree.checkHistory (newest :: older) <;> simp

/-! ## What an accepted graft makes -/

/-- The head of a history is above the winner of a document, or there is no such document. -/
def Overtaken (s : Store) (id : String) (newest : Revision) : Prop :=
  s.docs.contains id = false ∨ ∃ w, s.winner id = some w ∧ w < newest

/-- A store comes from another by a graft of a history on a document. -/
structure Grafted (s : Store) (id : String) (history : List Revision) (deleted : Bool)
    (newest : Revision) (s' : Store) : Prop where
  head : history.head? = some newest
  revisions : ∀ rev, (s'.tree id).contains rev = true ↔
    (s.tree id).contains rev = true ∨ rev ∈ history
  /-- A winner that is overtaken gives way to the head, and the log gets an entry. -/
  moved : s.Overtaken id newest →
    s'.winner id = some newest ∧ s'.log = s.log ++ [⟨s.updateSeq + 1, id, newest, deleted⟩]
  /-- Whatever else the graft adds (branches, parents, bodies), winner and log stay. -/
  stayed : ¬ s.Overtaken id newest → s'.winner id = s.winner id ∧ s'.log = s.log
  docs : ∀ other, other ≠ id → s'.tree? other = s.tree? other

theorem contains_docs_eq_false : s.docs.contains id = false ↔ s.tree? id = none :=
  Option.isSome_eq_false_iff.trans Option.isNone_iff_eq_none

theorem Overtaken.above (h : s.Overtaken id newest) (hs : s.Sound) {rev : Revision}
    (hrev : (s.tree id).contains rev = true) : rev < newest := by
  obtain ⟨a, ha, hle⟩ := (hs.tree_self id).exists_winner hrev
  rw [winner_tree] at ha
  rcases h with habsent | ⟨w, hw, hlt⟩
  · rw [winner_eq_none (contains_docs_eq_false.1 habsent)] at ha
    cases ha
  · rw [hw] at ha
    cases ha
    exact lt_of_le_of_lt hle hlt

theorem Overtaken.winner_lt (h : s.Overtaken id newest) (hs : s.Sound) {w : Revision}
    (hw : s.winner id = some w) : w < newest :=
  h.above hs (RevTree.contains_winner ((winner_tree s id).trans hw))

theorem exists_winner_of_not_overtaken (h : ¬ s.Overtaken id newest) (hs : s.Sound) :
    ∃ w, s.winner id = some w ∧ newest ≤ w := by
  obtain ⟨hpresent, hnot⟩ := not_or.1 h
  obtain ⟨t, ht⟩ := contains_docs.1 (Bool.not_eq_false _ ▸ hpresent)
  obtain ⟨w, hw⟩ := hs.winner ht
  have hwinner : s.winner id = some w := by rw [winner_eq ht, hw]
  exact ⟨w, hwinner, not_lt.1 fun hlt => hnot ⟨w, hwinner, hlt⟩⟩

variable {older : List Revision}

theorem Sound.winner_absorbPath (hs : s.Sound) (hcont : RevTree.Contiguous (newest :: older)) :
    ((s.tree id).absorbPath deleted body (newest :: older)).winner =
      some ((s.winner id).elim newest (max · newest)) := by
  rw [← winner_tree]
  exact (hs.tree_self id).winner_absorbPath hcont

/-- A head that overtakes the winner is new to the tree, so its flag is that of the graft. -/
theorem Overtaken.update (h : s.Overtaken id newest) (hs : s.Sound)
    (hcont : RevTree.Contiguous (newest :: older)) :
    let s' := s.update id ((s.tree id).absorbPath deleted body (newest :: older))
    s'.winner id = some newest ∧
      s'.log = s.log ++ [⟨s.updateSeq + 1, id, newest, deleted⟩] := by
  have hwinner : ((s.tree id).absorbPath deleted body (newest :: older)).winner = some newest := by
    rw [hs.winner_absorbPath hcont]
    cases hw : s.winner id with
    | none => rfl
    | some w => exact congrArg some (max_eq_right (le_of_lt (h.winner_lt hs hw)))
  have hnew : (s.tree id).contains newest = false := by
    by_contra hknown
    exact lt_irrefl newest (h.above hs (Bool.not_eq_false _ ▸ hknown))
  have hwinning := RevTree.winning_eq_some.2
    ⟨hwinner, RevTree.get?_absorbPath_head hcont hnew deleted body⟩
  have hmoved : s.winner id ≠ some newest := fun hw => lt_irrefl newest (h.winner_lt hs hw)
  constructor
  · rw [winner_eq (tree?_update_self s id _), hwinner]
  · rw [log_update_of_ne hwinner hmoved, RevTree.isDeleted_eq hwinning]

theorem update_of_not_overtaken (h : ¬ s.Overtaken id newest) (hs : s.Sound)
    (hcont : RevTree.Contiguous (newest :: older)) :
    let s' := s.update id ((s.tree id).absorbPath deleted body (newest :: older))
    s'.winner id = s.winner id ∧ s'.log = s.log := by
  obtain ⟨w, hw, hle⟩ := exists_winner_of_not_overtaken h hs
  have hwinner : ((s.tree id).absorbPath deleted body (newest :: older)).winner = some w := by
    rw [hs.winner_absorbPath hcont, hw]
    exact congrArg some (max_eq_left hle)
  constructor
  · rw [winner_eq (tree?_update_self s id _), hwinner, hw]
  · exact log_update_of_eq hwinner hw

theorem Sound.grafted (hs : s.Sound) {s' : Store}
    (h : s.graft id history deleted body = (.ok newest, s')) :
    s.Grafted id history deleted newest s' := by
  obtain ⟨-, -, -, hcont⟩ := graft_accepted_iff.1 ⟨newest, congrArg Prod.fst h⟩
  obtain ⟨hhead, rfl⟩ := graft_eq_ok h
  obtain ⟨older, rfl⟩ := List.head?_eq_some_iff.1 hhead
  constructor
  · exact hhead
  · intro rev
    rw [tree_update_self, RevTree.contains_absorbPath, or_comm]
  · exact fun hover => hover.update hs hcont
  · exact fun hnot => update_of_not_overtaken hnot hs hcont
  · exact fun other => tree?_update_of_ne s id _

/-! ## Repeated grafts -/

theorem update_eq_self {t : RevTree} (ht : s.tree? id = some t) : s.update id t = s := by
  unfold update record
  rw [setTree_tree ht, winner_eq ht]
  simp only [ht]
  cases t.winner <;> simp

/-- An accepted graft changes nothing in a store that has grown from its result. -/
theorem Grows.graft_eq_self {s₁ s' : Store}
    (hgraft : s.graft id history deleted body = (.ok newest, s₁)) (hgrows : s₁.Grows s') :
    s'.graft id history deleted body = (.ok newest, s') := by
  have haccepts : AcceptsGraft id history := graft_accepted_iff.1 ⟨newest, congrArg Prod.fst hgraft⟩
  obtain ⟨rev, hrev⟩ := graft_accepted_iff.2 haccepts
  obtain ⟨hhead, hstore⟩ := graft_eq_ok (Prod.ext hrev rfl)
  obtain ⟨hhead', rfl⟩ := graft_eq_ok hgraft
  obtain ⟨t, ht, hgrows⟩ := hgrows id _ (tree?_update_self s id _)
  rw [tree_eq ht, hgrows.absorbPath_eq_self, update_eq_self ht] at hstore
  rw [hhead] at hhead'
  cases hhead'
  exact Prod.ext hrev hstore

end

/-- After any writes to the empty store, refused ones included, whatever a graft is asked for: it is
accepted exactly if its id and its history are as they should be. An accepted one adds the revisions
of its history to the document and no others. If there was no such document or the head of the
history is above its winner, the head becomes the winner and the log gets one entry, with the head
and the flag of the graft; otherwise winner and log stay as they are. -/
theorem grafts_exact (ws : List Write) :
    let s := empty.after ws
    ∀ id history deleted body,
      ((∃ newest, (s.graft id history deleted body).1 = .ok newest) ↔ AcceptsGraft id history) ∧
      ∀ newest s', s.graft id history deleted body = (.ok newest, s') →
        s.Grafted id history deleted newest s' := by
  intro s id history deleted body
  have hs : s.Sound := sound_after ws
  exact ⟨graft_accepted_iff, fun newest s' => hs.grafted⟩

/-- Whatever has been written before and after a graft that was accepted, refused writes included:
the same graft is accepted again and leaves the store as it is, every revision with its parent, its
flag and its body, every winner, and the log. -/
theorem graft_again (ws₁ ws₂ : List Write) {id : String} {history : List Revision} {deleted : Bool}
    {body : Json} {newest : Revision}
    (h : ((empty.after ws₁).graft id history deleted body).1 = .ok newest) :
    let s := empty.after (ws₁ ++ .graft id history deleted body :: ws₂)
    s.graft id history deleted body = (.ok newest, s) := by
  intro s
  have hs : s = ((empty.after ws₁).graft id history deleted body).2.after ws₂ :=
    after_append empty ws₁ (.graft id history deleted body :: ws₂)
  rw [hs]
  exact Grows.graft_eq_self (Prod.ext h rfl) (grows_after _ ws₂)

/-- The graft fills in the body of a revision that was known by its name. Since then the revision
has been grafted below another parent, the winner has been deleted, and a put has been refused. -/
theorem graft_again_after_rival :
    let ws₁ := [Write.graft "a" [⟨3, "z"⟩, ⟨2, "x"⟩] false .emptyObject]
    let ws₂ := [Write.graft "a" [⟨2, "x"⟩, ⟨1, "q"⟩] false .emptyObject, .delete "a" ⟨3, "z"⟩,
      .put "a" .null none]
    let s := empty.after (ws₁ ++ .graft "a" [⟨2, "x"⟩, ⟨1, "r"⟩] true .null :: ws₂)
    ((empty.after ws₁).graft "a" [⟨2, "x"⟩, ⟨1, "r"⟩] true .null).1 = .ok ⟨2, "x"⟩ ∧
      s.graft "a" [⟨2, "x"⟩, ⟨1, "r"⟩] true .null = (.ok ⟨2, "x"⟩, s) := by
  intro ws₁ ws₂ s
  have haccepted : ((empty.after ws₁).graft "a" [⟨2, "x"⟩, ⟨1, "r"⟩] true .null).1 =
      .ok ⟨2, "x"⟩ := by rfl
  exact ⟨haccepted, graft_again ws₁ ws₂ haccepted⟩

end DocumentDb.Store
