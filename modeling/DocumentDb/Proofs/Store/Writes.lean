import DocumentDb.Proofs.RevTree.Winner
import DocumentDb.Store.Basic

/-! # What a write does to a store

A write is refused and leaves the store as it is, or it makes one change of one tree and enters it
into the log.

* `Store.Write`, `Store.after`: the writes of clients and sequences of them.
* `Store.Result`, `Store.Write.result`: all that a write can do.
* `Store.Sound`, `Store.sound_after`: every tree is sound and has a winner.
* `Store.Grows`, `Store.grows_after`: what a store knows of a document stays known.
-/

namespace DocumentDb.Store

/-! ## Writes -/

/-- A write that a client asks for. -/
inductive Write where
  | put (id : String) (body : Json) (expected : Option Revision)
  | delete (id : String) (expected : Revision)
  | graft (id : String) (history : List Revision) (deleted : Bool) (body : Json)
  | apply (id : String) (edit : Edit) (newEdits : Bool)

namespace Write

/-- The document that is written. -/
def id : Write → String
  | put id _ _ => id
  | delete id _ => id
  | graft id _ _ _ => id
  | apply id _ _ => id

/-- The revision that a put or a deletion expects to be the winner. -/
def expected : Write → Option Revision
  | put _ _ expected => expected
  | delete _ expected => some expected
  | graft _ _ _ _ => none
  | apply _ edit newEdits => if newEdits then edit.rev else none

/-- What the write gives. -/
def run (s : Store) : Write → Except Error Revision × Store
  | put id body expected => s.put id body expected
  | delete id expected => s.delete id expected
  | graft id history deleted body => s.graft id history deleted body
  | apply id edit newEdits => s.apply id edit newEdits

end Write

/-- The store after some writes, one after the other, refused ones included. -/
def after (s : Store) (ws : List Write) : Store := ws.foldl (fun s w => (w.run s).2) s

theorem after_append (s : Store) (ws₁ ws₂ : List Write) :
    s.after (ws₁ ++ ws₂) = (s.after ws₁).after ws₂ := List.foldl_append

/-! ## A new tree for a document -/

/-- The store with a new tree for a document, entered into the log if the winner has moved. -/
def update (s : Store) (id : String) (t : RevTree) : Store :=
  (s.setTree id t).record id (s.winner id)

section Update
variable (s : Store) (id : String) (t : RevTree)

@[simp] theorem tree?_update_self : (s.update id t).tree? id = some t := by
  rw [update, tree?_record, tree?_setTree_self]

theorem tree?_update_of_ne {other : String} (h : other ≠ id) :
    (s.update id t).tree? other = s.tree? other := by
  rw [update, tree?_record, tree?_setTree_of_ne s h]

theorem tree_update_self : (s.update id t).tree id = t := by
  rw [tree, tree?_update_self]
  rfl

theorem tree_update_of_ne {other : String} (h : other ≠ id) :
    (s.update id t).tree other = s.tree other := by
  rw [tree, tree, tree?_update_of_ne s id t h]

theorem log_update {w : Revision} (hw : t.winner = some w) :
    (s.update id t).log =
      if s.winner id = some w then s.log
      else s.log ++ [⟨s.updateSeq + 1, id, w, t.isDeleted⟩] :=
  log_record (tree?_setTree_self s id t) hw (s.winner id)

end Update

theorem tree?_update_cases {s : Store} {id other : String} {t u : RevTree}
    (h : (s.update id t).tree? other = some u) :
    other = id ∧ u = t ∨ other ≠ id ∧ s.tree? other = some u := by
  by_cases hid : other = id
  · rw [hid, tree?_update_self] at h
    exact .inl ⟨hid, (Option.some.inj h).symm⟩
  · rw [tree?_update_of_ne s id t hid] at h
    exact .inr ⟨hid, h⟩

theorem setTree_tree {s : Store} {id : String} {t : RevTree} (h : s.tree? id = some t) :
    s.setTree id t = s := by
  rw [setTree, SortedMap.insert_eq_self h]

theorem contains_docs {s : Store} {id : String} :
    s.docs.contains id = true ↔ ∃ t, s.tree? id = some t := Option.isSome_iff_exists

theorem tree_eq {s : Store} {id : String} {t : RevTree} (h : s.tree? id = some t) :
    s.tree id = t := by rw [tree, h]; rfl

theorem winner_eq {s : Store} {id : String} {t : RevTree} (h : s.tree? id = some t) :
    s.winner id = t.winner := by rw [winner, h]; rfl

theorem winner_eq_none {s : Store} {id : String} (h : s.tree? id = none) : s.winner id = none := by
  rw [winner, h]; rfl

theorem winner_tree (s : Store) (id : String) : (s.tree id).winner = s.winner id := by
  unfold winner tree
  cases s.tree? id with
  | none => rfl
  | some t => rfl

/-! ## All that a write can do -/

/-- What a write to a document that expects a winner, or none in particular, gives. -/
inductive Result (s : Store) (id : String) (expected : Option Revision) :
    Except Error Revision × Store → Prop where
  | refused (e : Error) : Result s id expected (.error e, s)
  /-- The tree of the document makes a change after which it holds the reported revision. -/
  | accepted {t : RevTree} {rev : Revision} (hstep : (s.tree id).Step t)
      (hrev : t.contains rev = true)
      (hexpected : ∀ r, expected = some r → s.winner id = some r ∧ r < rev) :
      Result s id expected (.ok rev, s.update id t)

theorem parentFor_eq_ok {s : Store} {id : String} {expected parent : Option Revision}
    (h : s.parentFor id expected = .ok parent) :
    parent = s.winner id ∧ ∀ r, expected = some r → s.winner id = some r := by
  unfold parentFor at h
  split at h
  · next hw =>
    cases h
    exact ⟨hw.symm, by simp⟩
  · cases h
  · next w e hw =>
    split at h
    · next hwe =>
      cases h
      refine ⟨hw.symm, fun r hr => ?_⟩
      cases hr
      rw [hw, hwe]
    · cases h
  · next w hw =>
    split at h
    · cases h
      exact ⟨hw.symm, by simp⟩
    · cases h

theorem preparePut_eq_ok {s : Store} {id : String} {body : Json}
    {expected parent : Option Revision} (h : s.preparePut id body expected = .ok parent) :
    checkDocId id = .ok () ∧ checkBody body = .ok () ∧ s.parentFor id expected = .ok parent := by
  unfold preparePut at h
  cases hid : checkDocId id with
  | error e => simp [hid, bind, Except.bind] at h
  | ok u =>
    cases hbody : checkBody body with
    | error e => simp [hid, hbody, bind, Except.bind] at h
    | ok u => exact ⟨rfl, rfl, by simpa [hid, hbody, bind, Except.bind] using h⟩

/-- An edit on top of the winner is refused without a trace or accepted. -/
theorem result_finish {s : Store} {id : String} {expected : Option Revision}
    (hexpected : ∀ r, expected = some r → s.winner id = some r) (deleted : Bool) (body : Json) :
    s.Result id expected
      (s.finish id (s.winner id) ((s.tree id).insertEdit (s.winner id) deleted body)) := by
  have hlt : ∀ rev, Revision.compute (s.winner id) deleted body = .ok rev →
      ∀ r, expected = some r → s.winner id = some r ∧ r < rev := by
    intro rev hrev r hr
    have hw := hexpected r hr
    rw [hw] at hrev
    exact ⟨hw, Revision.lt_of_compute hrev⟩
  obtain ⟨e, he, hedit⟩ | ⟨rev, hrev, hknown, hedit⟩ | ⟨rev, hrev, hnew, hedit⟩ :=
    (s.tree id).insertEdit_cases (s.winner id) deleted body
  · rw [hedit]
    -- A first edit cannot fail, so the document exists and gets its own tree back.
    cases ht : s.tree? id with
    | none =>
      rw [winner_eq_none ht, Revision.compute_none] at he
      cases he
    | some t =>
      have hs : s.setTree id (s.tree id) = s := by rw [tree_eq ht, setTree_tree ht]
      show s.Result id expected (.error e, s.setTree id (s.tree id))
      rw [hs]
      exact .refused e
  · rw [hedit]
    exact .accepted .known hknown (hlt rev hrev)
  · rw [hedit]
    exact .accepted (.edit hrev hnew) (RevTree.contains_absorb.2 (.inl rfl)) (hlt rev hrev)

theorem result_put (s : Store) (id : String) (body : Json) (expected : Option Revision) :
    s.Result id expected (s.put id body expected) := by
  unfold put
  cases hp : s.preparePut id body expected with
  | error e => exact .refused e
  | ok parent =>
    obtain ⟨-, -, hparent⟩ := preparePut_eq_ok hp
    obtain ⟨rfl, hexpected⟩ := parentFor_eq_ok hparent
    exact result_finish hexpected false body

theorem result_delete (s : Store) (id : String) (expected : Revision) :
    s.Result id (some expected) (s.delete id expected) := by
  unfold delete
  cases ht : s.tree? id with
  | none => exact .refused .missing
  | some t =>
    dsimp only
    split
    · exact .refused .deleted
    · split
      · exact .refused .stale
      · next hw =>
        have htw : t.winner = some expected := not_not.1 hw
        have hw' : s.winner id = some expected := by rw [winner_eq ht, htw]
        have hexpected : ∀ r, some expected = some r → s.winner id = some r := by
          intro r hr
          rw [hw', hr]
        have h := result_finish hexpected true .emptyObject
        rw [hw', tree_eq ht] at h
        rw [htw]
        exact h

theorem result_graft (s : Store) (id : String) (history : List Revision) (deleted : Bool)
    (body : Json) : s.Result id none (s.graft id history deleted body) := by
  unfold graft
  cases checkDocId id with
  | error e => exact .refused e
  | ok u =>
    cases hhead : history.head? with
    | none => exact .refused _
    | some newest =>
      obtain ⟨e, h⟩ | ⟨hne, hcont, h⟩ := (s.tree id).graft_cases history deleted body
      · rw [h]
        exact .refused e
      · rw [h]
        refine .accepted (.graft deleted body hne hcont) ?_ (by simp)
        exact RevTree.contains_absorbPath.2 (.inl (List.mem_of_head? hhead))

theorem result_apply (s : Store) (id : String) (e : Edit) (newEdits : Bool) :
    s.Result id (if newEdits then e.rev else none) (s.apply id e newEdits) := by
  unfold apply
  cases newEdits with
  | false => exact s.result_graft id _ e.deleted e.body
  | true =>
    cases e.deleted with
    | false => exact s.result_put id e.body e.rev
    | true =>
      cases e.rev with
      | none => exact .refused _
      | some rev => exact s.result_delete id rev

theorem Write.result (w : Write) (s : Store) : s.Result w.id w.expected (w.run s) := by
  cases w with
  | put id body expected => exact s.result_put id body expected
  | delete id expected => exact s.result_delete id expected
  | graft id history deleted body => exact s.result_graft id history deleted body
  | apply id edit newEdits => exact s.result_apply id edit newEdits

/-! ## Soundness -/

/-- What holds of every store that writes can build. -/
structure Sound (s : Store) : Prop where
  tree : ∀ {id : String} {t : RevTree}, s.tree? id = some t → t.Sound
  winner : ∀ {id : String} {t : RevTree}, s.tree? id = some t → ∃ w, t.winner = some w

theorem sound_empty : Sound empty where
  tree h := by cases h
  winner h := by cases h

theorem Sound.tree_self {s : Store} (hs : s.Sound) (id : String) : (s.tree id).Sound := by
  cases ht : s.tree? id with
  | none =>
    rw [Store.tree, ht]
    exact RevTree.sound_empty
  | some t =>
    rw [tree_eq ht]
    exact hs.tree ht

theorem Sound.step {s : Store} (hs : s.Sound) {id : String} {t : RevTree} {rev : Revision}
    (hstep : (s.tree id).Step t) (hrev : t.contains rev = true) :
    t.Sound ∧ ∃ w, t.winner = some w := by
  have ht : t.Sound := (hs.tree_self id).step hstep
  obtain ⟨w, hw, -⟩ := ht.exists_winner hrev
  exact ⟨ht, w, hw⟩

theorem Sound.update {s : Store} (hs : s.Sound) {id : String} {t : RevTree} {rev : Revision}
    (hstep : (s.tree id).Step t) (hrev : t.contains rev = true) : (s.update id t).Sound := by
  obtain ⟨ht, hw⟩ := hs.step hstep hrev
  constructor
  · intro other u hu
    obtain ⟨-, rfl⟩ | ⟨-, hu⟩ := tree?_update_cases hu
    · exact ht
    · exact hs.tree hu
  · intro other u hu
    obtain ⟨-, rfl⟩ | ⟨-, hu⟩ := tree?_update_cases hu
    · exact hw
    · exact hs.winner hu

theorem Sound.winning {s : Store} (hs : s.Sound) {id : String} {t : RevTree}
    (ht : s.tree? id = some t) :
    ∃ w node body, t.winning = some (w, node) ∧ node.body = some body := by
  obtain ⟨w, hw⟩ := hs.winner ht
  obtain ⟨node, body, -, hbody, hwin⟩ := (hs.tree ht).winning_eq hw
  exact ⟨w, node, body, hwin, hbody⟩

theorem Sound.result {s : Store} (hs : s.Sound) {id : String} {expected : Option Revision}
    {r : Except Error Revision × Store} (h : s.Result id expected r) : r.2.Sound := by
  cases h with
  | refused e => exact hs
  | accepted hstep hrev _ => exact hs.update hstep hrev

theorem Sound.after {s : Store} (hs : s.Sound) (ws : List Write) : (s.after ws).Sound := by
  induction ws generalizing s with
  | nil => exact hs
  | cons w ws ih => exact ih (hs.result (w.result s))

theorem sound_after (ws : List Write) : (empty.after ws).Sound := sound_empty.after ws

/-! ## Growth -/

/-- What one store knows of a document, another knows too. -/
def Grows (s s' : Store) : Prop :=
  ∀ id t, s.tree? id = some t → ∃ t', s'.tree? id = some t' ∧ t.Grows t'

theorem Grows.refl (s : Store) : s.Grows s := fun _ t h => ⟨t, h, RevTree.Grows.refl t⟩

theorem Grows.trans {s s' s'' : Store} (h : s.Grows s') (h' : s'.Grows s'') : s.Grows s'' := by
  intro id t ht
  obtain ⟨t', ht', hg⟩ := h id t ht
  obtain ⟨t'', ht'', hg'⟩ := h' id t' ht'
  exact ⟨t'', ht'', hg.trans hg'⟩

theorem grows_update {s : Store} {id : String} {t : RevTree} (hstep : (s.tree id).Step t) :
    s.Grows (s.update id t) := by
  intro other u hu
  by_cases hid : other = id
  · subst hid
    rw [tree_eq hu] at hstep
    exact ⟨t, tree?_update_self s other t, hstep.grows⟩
  · exact ⟨u, by rw [tree?_update_of_ne s id t hid, hu], RevTree.Grows.refl u⟩

theorem Result.grows {s : Store} {id : String} {expected : Option Revision}
    {r : Except Error Revision × Store} (h : s.Result id expected r) : s.Grows r.2 := by
  cases h with
  | refused e => exact Grows.refl s
  | accepted hstep _ _ => exact grows_update hstep

theorem grows_after (s : Store) (ws : List Write) : s.Grows (s.after ws) := by
  induction ws generalizing s with
  | nil => exact Grows.refl s
  | cons w ws ih => exact (w.result s).grows.trans (ih _)

/-- The winner of a document stays or moves up. -/
theorem Grows.winner {s s' : Store} (h : s.Grows s') (hs' : s'.Sound) {id : String} {a : Revision}
    (ha : s.winner id = some a) : ∃ b, s'.winner id = some b ∧ a ≤ b := by
  cases ht : s.tree? id with
  | none =>
    rw [winner_eq_none ht] at ha
    cases ha
  | some t =>
    rw [winner_eq ht] at ha
    obtain ⟨t', ht', hg⟩ := h id t ht
    obtain ⟨b, hb, hab⟩ := (hs'.tree ht').exists_winner (hg.contains (RevTree.contains_winner ha))
    exact ⟨b, by rw [winner_eq ht', hb], hab⟩

end DocumentDb.Store
