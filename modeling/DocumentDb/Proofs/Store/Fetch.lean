import DocumentDb.Proofs.RevTree.Bodies
import DocumentDb.Proofs.Store.Writes

/-! # Fetching a revision by its name

A named revision is fetched if the tree of its document knows its body. What a tree knows of a
revision with a body is all that is fetched, except for the conflicts, which are those of the moment.

* `Store.select_eq_ok`: which revision is asked for.
* `Store.get_eq_ok`: what a look-up that succeeds gives.
* `Store.get_some_eq_ok`: what a fetch of a named revision gives.
* `Store.Fetches`, `Store.fetches_iff`: when there is something to fetch.
* `Store.revisions_kept`: what can be fetched once is fetched unchanged ever after.
-/

namespace DocumentDb.Store

section
variable {s : Store} {id : String} {rev : Revision}

/-- What is selected is a revision of the tree: the named one, or the winner unless it is a
deletion. -/
theorem select_eq_ok {t : RevTree} {named : Option Revision} {node : RevTree.Node} :
    select t named = .ok (rev, node) ↔
      t.get? rev = some node ∧
        (named = some rev ∨ named = none ∧ t.winner = some rev ∧ node.deleted = false) := by
  cases named with
  | some r => cases hnode : t.get? r <;> simp [select, hnode] <;> grind
  | none =>
    have hiff : t.winning = some (rev, node) ↔ t.winner = some rev ∧ t.get? rev = some node :=
      RevTree.winning_eq_some
    cases hwin : t.winning with
    | none =>
      simp [select, hwin] at hiff ⊢
      grind
    | some found =>
      obtain ⟨w, known⟩ := found
      cases hdeleted : known.deleted <;> simp [select, hwin, hdeleted] <;> grind

theorem get_eq_ok {named : Option Revision} {conflicts : Bool} {doc : Document}
    (h : s.get id named conflicts = .ok doc) :
    ∃ t found node body, s.tree? id = some t ∧ select t named = .ok (found, node) ∧
      node.body = some body ∧
      doc = ⟨id, found, node.deleted, body, if conflicts then t.conflicts else []⟩ := by
  unfold get at h
  cases ht : s.tree? id with
  | none => simp [ht, throw, throwThe, MonadExceptOf.throw] at h
  | some t =>
    cases hsel : select t named with
    | error e => simp [ht, hsel, bind, Except.bind] at h
    | ok found =>
      cases hbody : found.2.body with
      | none => simp [ht, hsel, hbody, bind, Except.bind, throw, throwThe, MonadExceptOf.throw] at h
      | some body =>
        simp only [ht, hsel, hbody, bind, Except.bind, pure, Except.pure, Except.ok.injEq] at h
        exact ⟨t, found.1, found.2, body, rfl, hsel, hbody, h.symm⟩

theorem get_some_eq_ok {conflicts : Bool} {doc : Document} :
    s.get id (some rev) conflicts = .ok doc ↔
      ∃ t node body, s.tree? id = some t ∧ t.get? rev = some node ∧ node.body = some body ∧
        doc = ⟨id, rev, node.deleted, body, if conflicts then t.conflicts else []⟩ := by
  cases ht : s.tree? id with
  | none => simp [get, ht, throw, throwThe, MonadExceptOf.throw]
  | some t =>
    cases hnode : t.get? rev with
    | none => simp [get, ht, select, hnode, bind, Except.bind]
    | some node =>
      cases hbody : node.body with
      | none =>
        simp [get, ht, select, hnode, hbody, bind, Except.bind, throw, throwThe,
          MonadExceptOf.throw]
      | some body =>
        simp [get, ht, select, hnode, hbody, bind, Except.bind, pure, Except.pure, eq_comm]

/-- A revision of a document can be fetched. -/
def Fetches (s : Store) (id : String) (rev : Revision) : Prop :=
  ∃ doc, s.get id (some rev) false = .ok doc

theorem says_tree_iff {φ : RevTree.Node → Prop} :
    (s.tree id).Says rev φ ↔ ∃ t, s.tree? id = some t ∧ t.Says rev φ := by
  cases ht : s.tree? id with
  | none =>
    rw [tree, ht]
    simp [RevTree.not_says_empty]
  | some t =>
    rw [tree_eq ht]
    simp

/-- What can be fetched is what has a body. -/
theorem fetches_iff : s.Fetches id rev ↔ (s.tree id).KnowsBody rev := by
  unfold Fetches RevTree.KnowsBody
  rw [says_tree_iff]
  constructor
  · rintro ⟨doc, hdoc⟩
    obtain ⟨t, node, body, ht, hnode, hbody, -⟩ := get_some_eq_ok.1 hdoc
    exact ⟨t, ht, node, hnode, by simp [hbody]⟩
  · rintro ⟨t, ht, node, hnode, hbody⟩
    obtain ⟨body, hbody⟩ := Option.ne_none_iff_exists'.1 hbody
    exact ⟨_, get_some_eq_ok.2 ⟨t, node, body, ht, hnode, hbody, rfl⟩⟩

/-- A store that knows more gives the same revision, with the conflicts that it knows of. -/
theorem Grows.get_some {s' : Store} (h : s.Grows s') {conflicts : Bool} {doc : Document}
    (hdoc : s.get id (some rev) conflicts = .ok doc) (conflicts' : Bool) :
    ∃ others, s'.get id (some rev) conflicts' = .ok { doc with conflicts := others } := by
  obtain ⟨t, node, body, ht, hnode, hbody, rfl⟩ := get_some_eq_ok.1 hdoc
  obtain ⟨t', ht', hgrows⟩ := h id t ht
  obtain ⟨node', hnode', hwithin⟩ := hgrows rev node hnode
  have hdeleted : node'.deleted = node.deleted := hwithin.deleted (by rw [hbody]; simp)
  refine ⟨if conflicts' then t'.conflicts else [], ?_⟩
  rw [get_some_eq_ok]
  exact ⟨t', node', body, ht', hnode', hwithin.body hbody, by rw [hdeleted]⟩

end

/-- Whatever is written to a store, in any order and refused writes included: a revision that could
be fetched is fetched still, with the same flag and the same body, and every document and every
revision in its tree is there still. -/
theorem revisions_kept (s : Store) (ws : List Write) :
    (∀ id rev conflicts doc, s.get id (some rev) conflicts = .ok doc →
      ∀ conflicts', ∃ doc', (s.after ws).get id (some rev) conflicts' = .ok doc' ∧
        doc'.id = doc.id ∧ doc'.rev = doc.rev ∧ doc'.deleted = doc.deleted ∧
        doc'.body = doc.body) ∧
    ∀ id t, s.tree? id = some t → ∃ t', (s.after ws).tree? id = some t' ∧
      ∀ rev, t.contains rev = true → t'.contains rev = true := by
  have hgrows : s.Grows (s.after ws) := grows_after s ws
  constructor
  · intro id rev conflicts doc hdoc conflicts'
    obtain ⟨others, hdoc'⟩ := hgrows.get_some hdoc conflicts'
    exact ⟨_, hdoc', rfl, rfl, rfl, rfl⟩
  · intro id t ht
    obtain ⟨t', ht', htree⟩ := hgrows id t ht
    exact ⟨t', ht', fun rev => htree.contains⟩

/-- A revision stays as it was grafted, though it is grafted again as a deletion with another body
and another ancestor, and deleted. -/
theorem grafted_revision_kept :
    let s := empty.after [.graft "a" [⟨2, "x"⟩] false .emptyObject]
    let ws := [.graft "a" [⟨2, "x"⟩, ⟨1, "r"⟩] true .null, .delete "a" ⟨2, "x"⟩]
    s.get "a" (some ⟨2, "x"⟩) false = .ok ⟨"a", ⟨2, "x"⟩, false, .emptyObject, []⟩ ∧
      ∃ doc, (s.after ws).get "a" (some ⟨2, "x"⟩) true = .ok doc ∧ doc.deleted = false ∧
        doc.body = .emptyObject := by
  intro s ws
  have hget : s.get "a" (some ⟨2, "x"⟩) false = .ok ⟨"a", ⟨2, "x"⟩, false, .emptyObject, []⟩ := by
    rfl
  obtain ⟨doc, hdoc, -, -, hdeleted, hbody⟩ := (revisions_kept s ws).1 _ _ _ _ hget true
  exact ⟨hget, doc, hdoc, hdeleted, hbody⟩

end DocumentDb.Store
