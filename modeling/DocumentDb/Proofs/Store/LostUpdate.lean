import DocumentDb.Proofs.Store.Writes

/-! # No update is lost

A put or a deletion that expects a revision to be the winner moves the winner above it, and the
winner never comes back down. So of all the writes that expect one revision a single one can be
accepted.

* `Store.Write.Expects`, `Store.accepted`: the writes that expect a revision, and those of a
  sequence that are accepted.
* `Store.Passed`: the winner of a document has moved above a revision.
* `Store.no_lost_update`: the guarantee for every sequence of writes.
-/

namespace DocumentDb.Store

/-- A put or a deletion of a document that expects a revision to be the winner. -/
def Write.Expects (w : Write) (id : String) (r : Revision) : Prop :=
  w.id = id ∧ w.expected = some r

instance (w : Write) (id : String) (r : Revision) : Decidable (w.Expects id r) :=
  inferInstanceAs (Decidable (_ ∧ _))

/-- Those of some writes, one after the other, that are accepted. -/
def accepted (s : Store) : List Write → List Write
  | [] => []
  | w :: ws =>
    match (w.run s).1 with
    | .ok _ => w :: (w.run s).2.accepted ws
    | .error _ => (w.run s).2.accepted ws

/-- The winner of a document is above a revision. -/
def Passed (s : Store) (id : String) (r : Revision) : Prop := ∃ a, s.winner id = some a ∧ r < a

section
variable {s : Store} {id : String} {r : Revision}

theorem Passed.winner_ne (h : s.Passed id r) : s.winner id ≠ some r := by
  obtain ⟨a, ha, hlt⟩ := h
  intro hr
  rw [ha] at hr
  cases hr
  exact lt_irrefl _ hlt

theorem Passed.grows {s' : Store} (h : s.Passed id r) (hg : s.Grows s') (hs' : s'.Sound) :
    s'.Passed id r := by
  obtain ⟨a, ha, hlt⟩ := h
  obtain ⟨b, hb, hab⟩ := hg.winner hs' ha
  exact ⟨b, hb, lt_of_lt_of_le hlt hab⟩

/-- A write is refused unless the revision that it expects is the winner. -/
theorem run_refused {w : Write} (hw : w.Expects id r) (h : s.winner id ≠ some r) :
    ∃ e, w.run s = (.error e, s) := by
  obtain ⟨rfl, hr⟩ := hw
  have hres := w.result s
  generalize w.run s = out at hres
  cases hres with
  | refused e => exact ⟨e, rfl⟩
  | accepted _ _ hexpected => exact absurd (hexpected r hr).1 h

/-- An accepted write moves the winner above the revision that it expects. -/
theorem passed_run (hs : s.Sound) {w : Write} (hw : w.Expects id r) {rev : Revision}
    (h : (w.run s).1 = .ok rev) : (w.run s).2.Passed id r := by
  obtain ⟨rfl, hr⟩ := hw
  have hres := w.result s
  have hsound := hs.result hres
  generalize w.run s = out at h hres hsound
  cases hres with
  | refused e => cases h
  | @accepted t rev' hstep hrev hexpected =>
    obtain ⟨a, ha, hle⟩ := (hsound.tree (tree?_update_self s w.id t)).exists_winner hrev
    refine ⟨a, ?_, lt_of_lt_of_le (hexpected r hr).2 hle⟩
    rw [winner_eq (tree?_update_self s w.id t), ha]

/-- Once the winner is above a revision, no write that expects this revision is accepted. -/
theorem countP_accepted_eq_zero (hs : s.Sound) (h : s.Passed id r) (ws : List Write) :
    ((s.accepted ws).countP fun w => w.Expects id r) = 0 := by
  induction ws generalizing s with
  | nil => rfl
  | cons w ws ih =>
    have hs' := hs.result (w.result s)
    have hrest := ih hs' (h.grows (w.result s).grows hs')
    rw [accepted]
    cases hout : (w.run s).1 with
    | error e => exact hrest
    | ok rev =>
      have hw : ¬ w.Expects id r := by
        intro hw
        obtain ⟨e, he⟩ := run_refused hw h.winner_ne
        rw [he] at hout
        cases hout
      dsimp only
      rw [List.countP_cons_of_neg (by simpa using hw)]
      exact hrest

/-- Of the writes that expect one revision at most one is accepted. -/
theorem countP_accepted_le_one (hs : s.Sound) (ws : List Write) :
    ((s.accepted ws).countP fun w => w.Expects id r) ≤ 1 := by
  induction ws generalizing s with
  | nil => exact Nat.zero_le 1
  | cons w ws ih =>
    have hs' := hs.result (w.result s)
    rw [accepted]
    cases hout : (w.run s).1 with
    | error e => exact ih hs'
    | ok rev =>
      dsimp only
      by_cases hw : w.Expects id r
      · rw [List.countP_cons_of_pos (by simpa using hw),
          countP_accepted_eq_zero hs' (passed_run hs hw hout) ws]
      · rw [List.countP_cons_of_neg (by simpa using hw)]
        exact ih hs'

end

/-- For any writes on the empty store, in any order and refused ones included: at most one put or
deletion that expects the revision `r` of a document is accepted; after the winner has moved away
from `r` every write that expects `r` is refused, however much later; and the winner of a document
stays or moves to a greater revision. -/
theorem no_lost_update (id : String) (r : Revision) :
    (∀ ws, ((empty.accepted ws).countP fun w => w.Expects id r) ≤ 1) ∧
    (∀ ws₁ ws₂ ws₃, (empty.after ws₁).winner id = some r →
      (empty.after (ws₁ ++ ws₂)).winner id ≠ some r →
      ∀ w : Write, w.Expects id r → ∃ e, w.run (empty.after (ws₁ ++ ws₂ ++ ws₃)) =
        (.error e, empty.after (ws₁ ++ ws₂ ++ ws₃))) ∧
    (∀ ws₁ ws₂ a, (empty.after ws₁).winner id = some a →
      ∃ b, (empty.after (ws₁ ++ ws₂)).winner id = some b ∧ (b = a ∨ a < b)) := by
  have hup : ∀ ws₁ ws₂ a, (empty.after ws₁).winner id = some a →
      ∃ b, (empty.after (ws₁ ++ ws₂)).winner id = some b ∧ (b = a ∨ a < b) := by
    intro ws₁ ws₂ a ha
    have hg := grows_after (empty.after ws₁) ws₂
    rw [← after_append] at hg
    obtain ⟨b, hb, hab⟩ := hg.winner (sound_after _) ha
    exact ⟨b, hb, (eq_or_lt_of_le hab).imp_left Eq.symm⟩
  refine ⟨countP_accepted_le_one sound_empty, ?_, hup⟩
  intro ws₁ ws₂ ws₃ hr hmoved w hw
  obtain ⟨b, hb, rfl | hlt⟩ := hup ws₁ ws₂ r hr
  · exact absurd hb hmoved
  · have hpassed : (empty.after (ws₁ ++ ws₂)).Passed id r := ⟨b, hb, hlt⟩
    have hg := grows_after (empty.after (ws₁ ++ ws₂)) ws₃
    rw [← after_append] at hg
    exact run_refused hw (hpassed.grows hg (sound_after _)).winner_ne

end DocumentDb.Store
