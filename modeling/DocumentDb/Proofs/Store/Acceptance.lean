import DocumentDb.Proofs.Store.Leaves
import DocumentDb.Proofs.Store.Log

/-! # When a write on top of the winner is accepted, and what it does

A put and a deletion look at nothing but their arguments and the winner of their document. Where
they are accepted, the revision that they make is above all others of the document, so it is a new
one and becomes the winner.

* `Store.AcceptsPut`, `Store.AcceptsDelete`: what has to hold before.
* `Store.put_accepted_iff`, `Store.delete_accepted_iff`: nothing else has to.
* `Store.Extends`, `Store.Sound.extends_update`, `Store.Sound.extends_apply`: what an accepted write
  makes of its store.
* `Store.writes_exact`: both for every store that writes can build.
-/

namespace DocumentDb

theorem checkDocId_eq_ok {id : String} :
    checkDocId id = .ok () ↔ id ≠ "" ∧ id.toList.head? ≠ some '_' := by
  unfold checkDocId isReserved
  by_cases hempty : id = ""
  · simp [hempty]
  · by_cases hreserved : id.toList.head? = some '_'
    · simp [hempty, hreserved]
    · simp [hempty, hreserved]

namespace RevTree

variable {t u : RevTree} {parent : Option Revision} {deleted : Bool} {body : Json} {rev : Revision}

theorem outcome_insertEdit (t : RevTree) (parent : Option Revision) (deleted : Bool)
    (body : Json) : (t.insertEdit parent deleted body).1 = Revision.compute parent deleted body := by
  unfold insertEdit
  cases Revision.compute parent deleted body with
  | error e => rfl
  | ok rev =>
    dsimp only
    split <;> rfl

theorem insertEdit_eq_absorb (h : t.insertEdit parent deleted body = (.ok rev, u))
    (hfresh : t.contains rev = false) : u = t.absorb rev ⟨parent, deleted, some body⟩ := by
  obtain ⟨e, -, hedit⟩ | ⟨r, -, hknown, hedit⟩ | ⟨r, -, -, hedit⟩ :=
    t.insertEdit_cases parent deleted body
  · cases h.symm.trans hedit
  · cases h.symm.trans hedit
    cases hfresh.symm.trans hknown
  · cases h.symm.trans hedit
    rfl

/-- A revision above all others becomes the winner. -/
theorem Sound.winner_absorb {offered : Node} (hu : (t.absorb rev offered).Sound)
    (habove : ∀ other, t.contains other = true → other < rev) :
    (t.absorb rev offered).winner = some rev := by
  refine hu.winner_of_greatest (contains_absorb.2 (.inl rfl)) fun other hother => ?_
  rcases contains_absorb.1 hother with rfl | hold
  · exact le_rfl
  · exact le_of_lt (habove other hold)

end RevTree

namespace Store

variable {s : Store} {id : String} {body : Json} {rev : Revision}

/-! ## Acceptance -/

/-- What has to hold before a put: the id is one that a caller may choose, the body is an object,
and the document is absent and none of its revisions is expected, or there is room for a generation
above its winner, and the winner is expected or is a deletion. -/
def AcceptsPut (s : Store) (id : String) (body : Json) (expected : Option Revision) : Prop :=
  id ≠ "" ∧ id.toList.head? ≠ some '_' ∧ body.isObject = true ∧
    (s.tree? id = none ∧ expected = none ∨
      ∃ w, s.winner id = some w ∧ w.generation < Numeral.max64 ∧
        (expected = some w ∨ expected = none ∧ s.isDeleted id = true))

/-- What has to hold before a deletion: the expected revision is the winner and no deletion itself,
and there is room for a generation above it. -/
def AcceptsDelete (s : Store) (id : String) (expected : Revision) : Prop :=
  s.winner id = some expected ∧ s.isDeleted id = false ∧ expected.generation < Numeral.max64

/-- The winner of a document, if it has one, has room for a generation above it. -/
def HasRoom (s : Store) (id : String) : Prop :=
  ∀ w, s.winner id = some w → w.generation < Numeral.max64

theorem checkBody_eq_ok : checkBody body = .ok () ↔ body.isObject = true := by
  unfold checkBody
  split <;> simp_all

theorem parentFor_eq_ok_iff {expected parent : Option Revision} :
    s.parentFor id expected = .ok parent ↔
      parent = s.winner id ∧
        (s.winner id = none ∧ expected = none ∨
          ∃ w, s.winner id = some w ∧
            (expected = some w ∨ expected = none ∧ s.isDeleted id = true)) := by
  unfold parentFor
  rw [@eq_comm _ parent]
  cases s.winner id with
  | none => cases expected <;> simp
  | some w =>
    cases expected with
    | none => by_cases hdeleted : s.isDeleted id = true <;> simp [hdeleted]
    | some e =>
      by_cases hsame : w = e
      · simp [hsame]
      · simp [hsame, Ne.symm hsame]

theorem preparePut_eq_ok_iff {expected parent : Option Revision} :
    s.preparePut id body expected = .ok parent ↔
      checkDocId id = .ok () ∧ checkBody body = .ok () ∧ s.parentFor id expected = .ok parent := by
  refine ⟨preparePut_eq_ok, ?_⟩
  rintro ⟨hid, hbody, hparent⟩
  simp [preparePut, hid, hbody, hparent, bind, Except.bind]

theorem outcome_finish {α : Type} (before : Option Revision) (edited : Except Error α × RevTree) :
    (s.finish id before edited).1 = edited.1 := by
  obtain ⟨out, t⟩ := edited
  cases out <;> rfl

theorem compute_winner_accepted_iff (s : Store) (id : String) (deleted : Bool) (body : Json) :
    (∃ rev, Revision.compute (s.winner id) deleted body = .ok rev) ↔ s.HasRoom id := by
  unfold HasRoom
  cases s.winner id with
  | none => simp [Revision.compute_none]
  | some w => simp [Revision.compute_some_eq_ok]

theorem put_accepted_iff (hs : s.Sound) {expected : Option Revision} :
    (∃ rev, (s.put id body expected).1 = .ok rev) ↔ s.AcceptsPut id body expected := by
  have hput : (∃ rev, (s.put id body expected).1 = .ok rev) ↔
      (∃ parent, s.preparePut id body expected = .ok parent) ∧ s.HasRoom id := by
    unfold put
    cases hprepare : s.preparePut id body expected with
    | error e => simp
    | ok parent =>
      obtain ⟨-, -, hparent⟩ := preparePut_eq_ok hprepare
      obtain rfl := (parentFor_eq_ok_iff.1 hparent).1
      simp only [outcome_finish, RevTree.outcome_insertEdit, compute_winner_accepted_iff]
      simp
  rw [hput]
  simp only [preparePut_eq_ok_iff, checkDocId_eq_ok, checkBody_eq_ok, parentFor_eq_ok_iff]
  unfold AcceptsPut HasRoom
  cases ht : s.tree? id with
  | none =>
    rw [winner_eq_none ht]
    simp [and_assoc]
  | some t =>
    -- A tree has a winner, so the document of a tree is none of those without one.
    obtain ⟨w, hw⟩ := hs.winner ht
    rw [winner_eq ht, hw]
    simp only [reduceCtorEq, false_and, Option.some.injEq, exists_eq_left', false_or, true_and,
      forall_eq', existsAndEq, ne_eq]
    tauto

theorem delete_accepted_iff {expected : Revision} :
    (∃ rev, (s.delete id expected).1 = .ok rev) ↔ s.AcceptsDelete id expected := by
  unfold delete AcceptsDelete isDeleted
  cases ht : s.tree? id with
  | none => simp [winner_eq_none ht]
  | some t =>
    rw [winner_eq ht]
    by_cases hdeleted : t.isDeleted = true
    · simp [hdeleted]
    by_cases hw : t.winner = some expected
    · have hroom := compute_winner_accepted_iff s id true .emptyObject
      unfold HasRoom at hroom
      rw [winner_eq ht, hw] at hroom
      simpa [hdeleted, hw, outcome_finish, RevTree.outcome_insertEdit] using hroom
    · simp [hdeleted, hw]

/-! ## What an accepted write makes -/

/-- A store comes from another by a write on top of the winner of a document: the revision of the
write is a new one above all others of the document. -/
structure Extends (s : Store) (id : String) (deleted : Bool) (body : Json) (rev : Revision)
    (s' : Store) : Prop where
  fresh : (s.tree id).contains rev = false
  above : ∀ other, (s.tree id).contains other = true → other < rev
  winner : s'.winner id = some rev
  /-- It is a child of the winner from before, a root for a new document. -/
  node : (s'.tree id).get? rev = some ⟨s.winner id, deleted, some body⟩
  get : ∀ conflicts, ∃ others,
    s'.get id (some rev) conflicts = .ok ⟨id, rev, deleted, body, others⟩
  log : s'.log = s.log ++ [⟨s.updateSeq + 1, id, rev, deleted⟩]
  nodes : ∀ other, other ≠ rev → (s'.tree id).get? other = (s.tree id).get? other
  docs : ∀ other, other ≠ id → s'.tree? other = s.tree? other

/-- The revision of an edit is above all others of the document. -/
theorem Sound.lt_of_compute (hs : s.Sound) {deleted : Bool} {other : Revision}
    (hrev : Revision.compute (s.winner id) deleted body = .ok rev)
    (hother : (s.tree id).contains other = true) : other < rev := by
  obtain ⟨w, hw, hle⟩ := (hs.tree_self id).exists_winner hother
  rw [winner_tree] at hw
  rw [hw] at hrev
  exact lt_of_le_of_lt hle (Revision.lt_of_compute hrev)

theorem Sound.extends_update (hs : s.Sound) {deleted : Bool} {t : RevTree}
    (hedit : (s.tree id).insertEdit (s.winner id) deleted body = (.ok rev, t)) :
    s.Extends id deleted body rev (s.update id t) := by
  have hrev : Revision.compute (s.winner id) deleted body = .ok rev := by
    rw [← RevTree.outcome_insertEdit, hedit]
  have habove : ∀ other, (s.tree id).contains other = true → other < rev :=
    fun other => hs.lt_of_compute hrev
  -- An edit of a known revision would leave the tree as it is; being above all, this one is none.
  have hfresh : (s.tree id).contains rev = false := hs.insertEdit_new hedit
  have ht := RevTree.insertEdit_eq_absorb hedit hfresh
  have hsound : t.Sound := by
    rw [ht]
    exact (hs.tree_self id).step (.edit hrev hfresh)
  have hwinner : t.winner = some rev := by
    rw [ht] at hsound ⊢
    exact hsound.winner_absorb habove
  have hnode : t.get? rev = some ⟨s.winner id, deleted, some body⟩ := by
    rw [ht, RevTree.get?_absorb, if_pos rfl, RevTree.contains_eq_false.1 hfresh]
    rfl
  have hwinning : t.winning = some (rev, ⟨s.winner id, deleted, some body⟩) :=
    RevTree.winning_eq_some.2 ⟨hwinner, hnode⟩
  have hmoved : s.winner id ≠ some rev := by
    intro hsame
    rw [← winner_tree] at hsame
    exact lt_irrefl rev (habove rev (RevTree.contains_winner hsame))
  have htree : (s.update id t).tree? id = some t := tree?_update_self s id t
  refine ⟨hfresh, habove, ?_, ?_, ?_, ?_, ?_, ?_⟩
  · rw [winner_eq htree, hwinner]
  · rw [tree_eq htree, hnode]
  · intro conflicts
    exact ⟨_, get_some_eq_ok.2 ⟨t, _, body, htree, hnode, rfl, rfl⟩⟩
  · rw [log_update_of_ne hwinner hmoved, RevTree.isDeleted_eq hwinning]
  · intro other hne
    rw [tree_eq htree, ht, RevTree.get?_absorb, if_neg hne]
  · intro other hne
    exact tree?_update_of_ne s id t hne

/-- An edit that is accepted goes on top of the winner, which it has named unless it has named no
revision at all. -/
theorem Sound.extends_apply (hs : s.Sound) {e : Edit} (h : (s.apply id e true).1 = .ok rev) :
    (∃ body, s.Extends id e.deleted body rev (s.apply id e true).2) ∧
      ∀ r, e.rev = some r → s.winner id = some r := by
  cases hdeleted : e.deleted with
  | false =>
    have happly : s.apply id e true = s.put id e.body e.rev := by simp [Store.apply, hdeleted]
    rw [happly] at h ⊢
    refine ⟨?_, fun r hr => ?_⟩
    · obtain ⟨s', hput⟩ : ∃ s', s.put id e.body e.rev = (.ok rev, s') := ⟨_, Prod.ext h rfl⟩
      rw [hput]
      obtain ⟨t, hedit, rfl⟩ := put_eq_ok hput
      exact ⟨_, hs.extends_update hedit⟩
    · obtain ⟨-, -, -, ⟨-, hnone⟩ | ⟨w, hw, -, hexpected | ⟨hnone, -⟩⟩⟩ :=
        (put_accepted_iff hs).1 ⟨rev, h⟩
      · cases hr.symm.trans hnone
      · cases hr.symm.trans hexpected
        exact hw
      · cases hr.symm.trans hnone
  | true =>
    cases hrev : e.rev with
    | none => simp [Store.apply, hdeleted, hrev] at h
    | some expected =>
      have happly : s.apply id e true = s.delete id expected := by
        simp [Store.apply, hdeleted, hrev]
      rw [happly] at h ⊢
      refine ⟨?_, fun r hr => ?_⟩
      · obtain ⟨s', hdelete⟩ : ∃ s', s.delete id expected = (.ok rev, s') := ⟨_, Prod.ext h rfl⟩
        rw [hdelete]
        obtain ⟨t, hedit, rfl⟩ := delete_eq_ok hdelete
        exact ⟨_, hs.extends_update hedit⟩
      · cases hr
        exact (delete_accepted_iff.1 ⟨rev, h⟩).1

/-- After any writes to the empty store, refused ones included, whatever a put and a deletion are
asked for: they are accepted exactly if their documents and arguments are as they should be. The
revision that an accepted one reports was not in the tree, is above every revision of the document,
becomes its winner as a child of the old one, and reads back with the body and the flag of the
write; the log gets one entry, with this revision; other revisions and documents stay as they
are. -/
theorem writes_exact (ws : List Write) :
    let s := empty.after ws
    (∀ id body expected,
      ((∃ rev, (s.put id body expected).1 = .ok rev) ↔ s.AcceptsPut id body expected) ∧
      ∀ rev s', s.put id body expected = (.ok rev, s') → s.Extends id false body rev s') ∧
    ∀ id expected,
      ((∃ rev, (s.delete id expected).1 = .ok rev) ↔ s.AcceptsDelete id expected) ∧
      ∀ rev s', s.delete id expected = (.ok rev, s') →
        s.Extends id true .emptyObject rev s' := by
  intro s
  have hs : s.Sound := sound_after ws
  refine ⟨fun id body expected => ⟨put_accepted_iff hs, ?_⟩,
    fun id expected => ⟨delete_accepted_iff, ?_⟩⟩
  · intro rev s' hput
    obtain ⟨t, hedit, rfl⟩ := put_eq_ok hput
    exact hs.extends_update hedit
  · intro rev s' hdelete
    obtain ⟨t, hedit, rfl⟩ := delete_eq_ok hdelete
    exact hs.extends_update hedit

end Store

end DocumentDb
