import DocumentDb.Proofs.Store.Fetch
import DocumentDb.Proofs.Store.Refusal

/-! # Which leaves can be fetched

An accepted write brings the body of the revision that it reports and no other, so these revisions
are the ones that can be fetched. The ancestors that a graft names come without a body. They are not
leaves as long as the revision that names them as its parent has them for a parent; but a revision
that has a parent keeps it, and then the one that a later history names is a leaf with no body.

* `Store.Write.history`, `Store.Write.body`, `Store.Write.Makes`: what an accepted write makes of
  the tree of its document.
* `Store.reports`, `Store.fetches_after`: the revisions that can be fetched are the reported ones.
* `Store.Write.Displaces`, `Store.bodiless_after`: where the others come from.
* `Store.leaves_fetched`: both for the leaves and the conflicts of every store that writes can
  build.
-/

namespace DocumentDb.Store

/-! ## What an accepted write makes -/

/-- The history that a graft gives of its revision, newest first. No other write has one. -/
def Write.history : Write → List Revision
  | put _ _ _ => []
  | delete _ _ => []
  | graft _ history _ _ => history
  | apply _ edit newEdits => if newEdits then [] else historyOf edit

/-- The body that the write gives its revision. A deletion has its own. -/
def Write.body : Write → Json
  | put _ body _ => body
  | delete _ _ => .emptyObject
  | graft _ _ _ body => body
  | apply _ edit newEdits => if newEdits && edit.deleted then .emptyObject else edit.body

/-- What an accepted write that reports a revision makes of the tree of its document. -/
inductive Write.Makes (w : Write) (s : Store) (rev : Revision) : RevTree → Prop where
  /-- An edit on top of the winner. -/
  | edit {deleted : Bool} {t : RevTree} (hhistory : w.history = [])
      (hedit : (s.tree w.id).insertEdit (s.winner w.id) deleted w.body = (.ok rev, t)) :
      Makes w s rev t
  | graft (deleted : Bool) (hhead : w.history.head? = some rev) :
      Makes w s rev ((s.tree w.id).absorbPath deleted w.body w.history)

section
variable {s s' : Store} {id : String} {rev : Revision}

theorem finish_eq_ok {edited : Except Error Revision × RevTree}
    (h : s.finish id (s.winner id) edited = (.ok rev, s')) :
    edited = (.ok rev, edited.2) ∧ s' = s.update id edited.2 := by
  obtain ⟨out, t⟩ := edited
  cases out with
  | error e => cases h
  | ok r =>
    cases h
    exact ⟨rfl, rfl⟩

theorem put_eq_ok {body : Json} {expected : Option Revision}
    (h : s.put id body expected = (.ok rev, s')) :
    ∃ t, (s.tree id).insertEdit (s.winner id) false body = (.ok rev, t) ∧ s' = s.update id t := by
  unfold put at h
  cases hp : s.preparePut id body expected with
  | error e => simp [hp] at h
  | ok parent =>
    obtain ⟨-, -, hparent⟩ := preparePut_eq_ok hp
    obtain ⟨rfl, -⟩ := parentFor_eq_ok hparent
    rw [hp] at h
    obtain ⟨hedit, rfl⟩ := finish_eq_ok h
    exact ⟨_, hedit, rfl⟩

theorem delete_eq_ok {expected : Revision} (h : s.delete id expected = (.ok rev, s')) :
    ∃ t, (s.tree id).insertEdit (s.winner id) true .emptyObject = (.ok rev, t) ∧
      s' = s.update id t := by
  unfold delete at h
  cases ht : s.tree? id with
  | none => simp [ht] at h
  | some t =>
    simp only [ht] at h
    split at h
    · cases h
    · split at h
      · cases h
      · next hw =>
        have hexpected : t.winner = some expected := not_not.1 hw
        rw [← hexpected, ← winner_eq ht, ← tree_eq ht] at h
        obtain ⟨hedit, rfl⟩ := finish_eq_ok h
        exact ⟨_, hedit, rfl⟩

theorem graft_eq_ok {history : List Revision} {deleted : Bool} {body : Json}
    (h : s.graft id history deleted body = (.ok rev, s')) :
    history.head? = some rev ∧
      s' = s.update id ((s.tree id).absorbPath deleted body history) := by
  unfold graft at h
  split at h
  · cases h
  · cases h
  · next newest _ hhead =>
    obtain ⟨e, hgraft⟩ | ⟨-, -, hgraft⟩ := (s.tree id).graft_cases history deleted body
    · rw [hgraft] at h
      cases h
    · rw [hgraft] at h
      cases h
      exact ⟨hhead, rfl⟩

theorem Write.makes {w : Write} (h : w.run s = (.ok rev, s')) :
    ∃ t, w.Makes s rev t ∧ s' = s.update w.id t := by
  cases w with
  | put id body expected =>
    obtain ⟨t, hedit, rfl⟩ := put_eq_ok h
    exact ⟨t, .edit rfl hedit, rfl⟩
  | delete id expected =>
    obtain ⟨t, hedit, rfl⟩ := delete_eq_ok h
    exact ⟨t, .edit rfl hedit, rfl⟩
  | graft id history deleted body =>
    obtain ⟨hhead, rfl⟩ := graft_eq_ok h
    exact ⟨_, .graft deleted hhead, rfl⟩
  | apply id edit newEdits =>
    cases newEdits with
    | false =>
      obtain ⟨hhead, rfl⟩ := graft_eq_ok h
      exact ⟨_, .graft edit.deleted hhead, rfl⟩
    | true =>
      have hbody : (apply id edit true).body = if edit.deleted then .emptyObject else edit.body :=
        rfl
      simp only [run, Store.apply, Bool.not_true] at h
      split at h
      · next hfalse => cases hfalse
      · split at h
        · next hlive =>
          obtain ⟨t, hedit, rfl⟩ := put_eq_ok h
          rw [if_neg (by simpa using hlive)] at hbody
          exact ⟨t, .edit rfl (by rw [hbody]; exact hedit), rfl⟩
        · next hdeleted =>
          rw [if_pos (by simpa using hdeleted)] at hbody
          split at h
          · obtain ⟨t, hedit, rfl⟩ := delete_eq_ok h
            exact ⟨t, .edit rfl (by rw [hbody]; exact hedit), rfl⟩
          · cases h

/-! ## Bodies -/

/-- The revision of an edit is above the winner, so it is not in the tree before the edit. -/
theorem Sound.insertEdit_new (hs : s.Sound) {deleted : Bool} {body : Json} {t : RevTree}
    (h : (s.tree id).insertEdit (s.winner id) deleted body = (.ok rev, t)) :
    (s.tree id).contains rev = false := by
  obtain ⟨e, -, hedit⟩ | ⟨r, hr, hknown, hedit⟩ | ⟨r, -, hnew, hedit⟩ :=
    (s.tree id).insertEdit_cases (s.winner id) deleted body
  · rw [hedit] at h
    cases h
  · obtain ⟨w, hw, hle⟩ := (hs.tree_self id).exists_winner hknown
    cases ht : s.tree? id with
    | none =>
      rw [Store.tree, ht] at hw
      cases hw
    | some u =>
      rw [tree_eq ht] at hw
      rw [winner_eq ht, hw] at hr
      exact absurd (lt_of_le_of_lt hle (Revision.lt_of_compute hr)) (lt_irrefl r)
  · rw [hedit] at h
    cases h
    exact hnew

theorem Write.Makes.knowsBody {w : Write} (hs : s.Sound) {new : Revision} {t : RevTree}
    (h : w.Makes s new t) : t.KnowsBody rev ↔ (s.tree w.id).KnowsBody rev ∨ rev = new := by
  cases h with
  | edit _ hedit => exact RevTree.knowsBody_insertEdit hedit (hs.insertEdit_new hedit)
  | graft deleted hhead =>
    rw [RevTree.knowsBody_absorbPath, hhead, Option.some.injEq, eq_comm (a := rev)]

theorem fetches_run {w : Write} (hs : s.Sound) {new : Revision} (h : w.run s = (.ok new, s')) :
    s'.Fetches id rev ↔ s.Fetches id rev ∨ (id, rev) = (w.id, new) := by
  obtain ⟨t, hmakes, rfl⟩ := Write.makes h
  rw [fetches_iff, fetches_iff, Prod.mk.injEq]
  by_cases hid : id = w.id
  · subst hid
    rw [tree_update_self, hmakes.knowsBody hs]
    simp
  · rw [tree_update_of_ne _ _ _ hid]
    simp [hid]

/-- The documents and the revisions that some writes, one after the other, report as written. -/
def reports (s : Store) : List Write → List (String × Revision)
  | [] => []
  | w :: ws =>
    match (w.run s).1 with
    | .ok rev => (w.id, rev) :: (w.run s).2.reports ws
    | .error _ => (w.run s).2.reports ws

theorem fetches_after (hs : s.Sound) (ws : List Write) :
    (s.after ws).Fetches id rev ↔ s.Fetches id rev ∨ (id, rev) ∈ s.reports ws := by
  induction ws generalizing s with
  | nil => simp [after, reports]
  | cons w ws ih =>
    have hrest := ih (hs.result (w.result s))
    show ((w.run s).2.after ws).Fetches id rev ↔ _
    rw [hrest, reports]
    cases hout : (w.run s).1 with
    | error e =>
      have hsame : (w.run s).2 = s := (w.result s).refused_eq hout
      rw [hsame]
    | ok new =>
      have hrun : w.run s = (.ok new, (w.run s).2) := by rw [← hout]
      rw [fetches_run hs hrun, List.mem_cons, or_assoc]

/-! ## Ancestors without a body -/

/-- The history of the write names a revision of the document as the parent of one that has a parent
in the tree, be it this one or another. -/
def Write.Adopts (w : Write) (s : Store) (id : String) (rev : Revision) : Prop :=
  w.id = id ∧ ∃ child, [child, rev] <:+: w.history ∧ (s.tree id).KnowsParent child

theorem Write.Adopts.grows {w : Write} (h : w.Adopts s id rev) (hg : s.Grows s') :
    w.Adopts s' id rev := by
  obtain ⟨hid, child, hhistory, hparent⟩ := h
  obtain ⟨t, ht, hparent⟩ := says_tree_iff.1 hparent
  obtain ⟨t', ht', hgrows⟩ := hg id t ht
  exact ⟨hid, child, hhistory, says_tree_iff.2 ⟨t', ht', hgrows.knowsParent hparent⟩⟩

/-- A revision of a document that cannot be fetched. -/
def Bodiless (s : Store) (id : String) (rev : Revision) : Prop :=
  (s.tree id).contains rev = true ∧ ¬ s.Fetches id rev

/-- A revision that an accepted write adds and that cannot be fetched is an ancestor that the write
names. -/
theorem bodiless_run {w : Write} (hs : s.Sound) {new : Revision} (h : w.run s = (.ok new, s'))
    (hrev : s'.Bodiless id rev) : s.Bodiless id rev ∨ w.Adopts s' id rev := by
  obtain ⟨hcontains, hbody⟩ := hrev
  have hbefore : ¬ s.Fetches id rev ∧ ¬ (id, rev) = (w.id, new) :=
    not_or.1 ((fetches_run hs h).not.1 hbody)
  obtain ⟨t, hmakes, rfl⟩ := Write.makes h
  by_cases hid : id = w.id
  · subst hid
    rw [tree_update_self] at hcontains
    cases hmakes with
    | edit _ hedit =>
      rcases (RevTree.contains_insertEdit hedit).1 hcontains with hold | rfl
      · exact .inl ⟨hold, hbefore.1⟩
      · exact absurd rfl hbefore.2
    | graft deleted hhead =>
      rcases RevTree.contains_absorbPath.1 hcontains with hmem | hold
      · rw [fetches_iff, tree_update_self] at hbody
        obtain ⟨child, hchild⟩ := RevTree.exists_child_of_bodiless hmem hbody
        refine .inr ⟨rfl, child, hchild, ?_⟩
        rw [tree_update_self]
        exact RevTree.knowsParent_absorbPath.2 (.inr ⟨rev, hchild⟩)
      · exact .inl ⟨hold, hbefore.1⟩
  · rw [tree_update_of_ne _ _ _ hid] at hcontains
    exact .inl ⟨hcontains, hbefore.1⟩

theorem bodiless_after (hs : s.Sound) (ws : List Write) (h : (s.after ws).Bodiless id rev) :
    s.Bodiless id rev ∨ ∃ w ∈ s.accepted ws, w.Adopts (s.after ws) id rev := by
  induction ws generalizing s with
  | nil => exact .inl h
  | cons w ws ih =>
    have hrest := ih (hs.result (w.result s)) h
    rw [accepted]
    cases hout : (w.run s).1 with
    | error e =>
      have hsame : (w.run s).2 = s := (w.result s).refused_eq hout
      rw [hsame] at hrest
      show _ ∨ ∃ w' ∈ (w.run s).2.accepted ws, w'.Adopts ((w.run s).2.after ws) id rev
      rw [hsame]
      exact hrest
    | ok new =>
      have hrun : w.run s = (.ok new, (w.run s).2) := by rw [← hout]
      rcases hrest with hstep | ⟨w', hw', hadopts⟩
      · rcases bodiless_run hs hrun hstep with hold | hadopts
        · exact .inl hold
        · exact .inr ⟨w, List.mem_cons_self, hadopts.grows (grows_after _ ws)⟩
      · exact .inr ⟨w', List.mem_cons_of_mem _ hw', hadopts⟩

/-! ## Leaves -/

/-- The history of the write names a revision of the document as the parent of one that has another
parent in the tree. -/
def Write.Displaces (w : Write) (s : Store) (id : String) (rev : Revision) : Prop :=
  w.id = id ∧ ∃ child node parent, [child, rev] <:+: w.history ∧
    (s.tree id).get? child = some node ∧ node.parent = some parent ∧ parent ≠ rev

theorem Write.Adopts.displaces {w : Write} (h : w.Adopts s id rev)
    (hleaf : rev ∈ (s.tree id).leaves) : w.Displaces s id rev := by
  obtain ⟨hid, child, hhistory, node, hnode, hparent⟩ := h
  obtain ⟨parent, hparent⟩ := Option.ne_none_iff_exists'.1 hparent
  refine ⟨hid, child, node, parent, hhistory, hnode, hparent, ?_⟩
  -- A leaf is the parent of no revision.
  rintro rfl
  exact (RevTree.mem_leaves.1 hleaf).2 (RevTree.mem_parents.2 ⟨child, node, hnode, hparent⟩)

theorem mem_leaves_of_mem_conflicts {t : RevTree} (h : rev ∈ t.conflicts) : rev ∈ t.leaves :=
  List.mem_of_mem_filter h

theorem conflicts_of_get {named : Option Revision} {conflicts : Bool} {doc : Document}
    (h : s.get id named conflicts = .ok doc) :
    doc.conflicts = if conflicts then (s.tree id).conflicts else [] := by
  obtain ⟨t, found, node, body, ht, -, -, rfl⟩ := get_eq_ok h
  rw [tree_eq ht]

end

/-- After any writes on the empty store, refused ones included: a revision of a document can be
fetched exactly if an accepted write to the document reported it; a leaf that cannot be fetched is
one that the history of an accepted write names as the parent of a revision with another parent; and
the conflicts that come with a document are leaves. -/
theorem leaves_fetched (ws : List Write) :
    let s := empty.after ws
    (∀ id rev, s.Fetches id rev ↔ (id, rev) ∈ empty.reports ws) ∧
    (∀ id rev, rev ∈ (s.tree id).leaves →
      s.Fetches id rev ∨ ∃ w ∈ empty.accepted ws, w.Displaces s id rev) ∧
    ∀ id named conflicts doc, s.get id named conflicts = .ok doc →
      ∀ rev ∈ doc.conflicts, rev ∈ (s.tree id).leaves := by
  intro s
  refine ⟨?_, ?_, ?_⟩
  · intro id rev
    have hnone : ¬ empty.Fetches id rev := by
      rw [fetches_iff]
      exact RevTree.not_says_empty
    rw [fetches_after sound_empty ws]
    simp [hnone]
  · intro id rev hleaf
    by_cases hfetch : s.Fetches id rev
    · exact .inl hfetch
    · have hbodiless : s.Bodiless id rev := ⟨(RevTree.mem_leaves.1 hleaf).1, hfetch⟩
      rcases bodiless_after sound_empty ws hbodiless with hempty | ⟨w, hw, hadopts⟩
      · exact absurd hempty.1 Bool.false_ne_true
      · exact .inr ⟨w, hw, hadopts.displaces hleaf⟩
  · intro id named conflicts doc hget rev hrev
    rw [conflicts_of_get hget] at hrev
    cases conflicts with
    | true => exact mem_leaves_of_mem_conflicts hrev
    | false => cases hrev

/-- Two histories of one revision that name different parents: the parent of the second is listed as
a conflict and cannot be fetched. -/
theorem second_parent_missing :
    let s := empty.after [.graft "a" [⟨2, "x"⟩, ⟨1, "a"⟩] false .emptyObject,
      .graft "a" [⟨2, "x"⟩, ⟨1, "b"⟩] false .emptyObject]
    s.get "a" none true = .ok ⟨"a", ⟨2, "x"⟩, false, .emptyObject, [⟨1, "b"⟩]⟩ ∧
      (s.tree "a").leaves = [⟨2, "x"⟩, ⟨1, "b"⟩] ∧
      s.get "a" (some ⟨1, "b"⟩) false = .error .missing := by
  refine ⟨?_, ?_, ?_⟩ <;> rfl

end DocumentDb.Store
