import DocumentDb.Proofs.Store.Writes

/-! # The log of a store

The log numbers its entries from one on without a gap. For every document it lists the winners in
the order in which they came about, and the last one is the winner that the tree has now.

* `Store.logOf`: the entries of one document.
* `Store.Logged`, `Store.logged_after`: the invariant, and that writes keep it.
* `Store.Logged.seq_getLast`, `Store.Logged.mem_of_seq`: what the numbers tell about a piece of the
  log.
* `Store.Sound.log_after`: the log only ever gets longer.
-/

namespace DocumentDb.Store

/-- The entries of a document in the log. -/
def logOf (s : Store) (id : String) : List ChangeEntry := s.log.filter fun e => e.id = id

theorem mem_logOf {s : Store} {id : String} {e : ChangeEntry} :
    e ∈ s.logOf id ↔ e ∈ s.log ∧ e.id = id := by simp [logOf]

/-! ## The log after a change -/

section Change
variable {s : Store} {id : String} {t : RevTree} {w : Revision}

theorem log_update_of_eq (hw : t.winner = some w) (h : s.winner id = some w) :
    (s.update id t).log = s.log := by rw [log_update s id t hw, if_pos h]

theorem log_update_of_ne (hw : t.winner = some w) (h : s.winner id ≠ some w) :
    (s.update id t).log = s.log ++ [⟨s.updateSeq + 1, id, w, t.isDeleted⟩] := by
  rw [log_update s id t hw, if_neg h]

theorem log_prefix (hw : t.winner = some w) : s.log <+: (s.update id t).log := by
  by_cases h : s.winner id = some w
  · exact ⟨[], by rw [List.append_nil, log_update_of_eq hw h]⟩
  · rw [log_update_of_ne hw h]
    exact List.prefix_append s.log _

/-- A change of one document leaves the entries of the others alone. -/
theorem logOf_record_of_ne {other : String} (hid : other ≠ id) (before : Option Revision) :
    (s.record id before).logOf other = s.logOf other := by
  cases ht : s.tree? id with
  | none => simp only [record, ht]
  | some t =>
    cases hw : t.winner with
    | none => simp only [record, ht, hw]
    | some w =>
      unfold logOf
      rw [log_record ht hw]
      split
      · rfl
      · simp [Ne.symm hid]

theorem logOf_update_of_ne {other : String} (hid : other ≠ id) :
    (s.update id t).logOf other = s.logOf other :=
  logOf_record_of_ne hid (s.winner id)

theorem logOf_update_self (hw : t.winner = some w) (h : s.winner id ≠ some w) :
    (s.update id t).logOf id = s.logOf id ++ [⟨s.updateSeq + 1, id, w, t.isDeleted⟩] := by
  rw [logOf, log_update_of_ne hw h, List.filter_append, logOf]
  simp

end Change

/-! ## The invariant -/

/-- What holds of the log of every store that writes can build. -/
structure Logged (s : Store) : Prop where
  numbers : s.log.map (·.seq) = List.range' 1 s.updateSeq
  known : ∀ {e : ChangeEntry}, e ∈ s.log → ∃ t, s.tree? e.id = some t ∧ t.contains e.rev = true
  ascending : ∀ id, (s.logOf id).Pairwise fun a b => a.rev < b.rev
  last : ∀ {id : String} {t : RevTree} {w : Revision} {node : RevTree.Node},
    s.tree? id = some t → t.winning = some (w, node) →
    ∃ e, (s.logOf id).getLast? = some e ∧ e.rev = w ∧ e.deleted = node.deleted

theorem logged_empty : Logged empty where
  numbers := rfl
  known h := by cases h
  ascending id := List.Pairwise.nil
  last h := by cases h

section Step
variable {s : Store} {id : String} {t : RevTree} {w : Revision}

theorem Logged.known_grows (hl : s.Logged) {s' : Store} (hg : s.Grows s') {e : ChangeEntry}
    (he : e ∈ s.log) : ∃ u, s'.tree? e.id = some u ∧ u.contains e.rev = true := by
  obtain ⟨u, hu, hrev⟩ := hl.known he
  obtain ⟨u', hu', hgrows⟩ := hg e.id u hu
  exact ⟨u', hu', hgrows.contains hrev⟩

/-- The entries of a document are at most its winner. -/
theorem Logged.le_winner (hl : s.Logged) (hs : s.Sound) {e : ChangeEntry} (he : e ∈ s.log) :
    ∃ a, s.winner e.id = some a ∧ e.rev ≤ a := by
  obtain ⟨u, hu, hrev⟩ := hl.known he
  obtain ⟨a, ha, hle⟩ := (hs.tree hu).exists_winner hrev
  exact ⟨a, by rw [winner_eq hu, ha], hle⟩

/-- A change that leaves the winner in its place keeps the invariant: the flag and the body of a
winner are never rewritten. -/
theorem Logged.update_of_eq (hl : s.Logged) (hs : s.Sound) (hstep : (s.tree id).Step t)
    (hw : t.winner = some w) (h : s.winner id = some w) : (s.update id t).Logged where
  numbers := by
    rw [updateSeq, log_update_of_eq hw h]
    exact hl.numbers
  known {e} he := by
    rw [log_update_of_eq hw h] at he
    exact hl.known_grows (grows_update hstep) he
  ascending other := by
    rw [logOf, log_update_of_eq hw h]
    exact hl.ascending other
  last {other u w' node'} hu hwin := by
    have hlog : (s.update id t).logOf other = s.logOf other := by
      rw [logOf, log_update_of_eq hw h, logOf]
    rw [hlog]
    obtain ⟨rfl, rfl⟩ | ⟨-, hu⟩ := tree?_update_cases hu
    · cases htree : s.tree? other with
      | none =>
        rw [winner_eq_none htree] at h
        cases h
      | some t' =>
        rw [winner_eq htree] at h
        rw [tree_eq htree] at hstep
        -- The winner has a body, and what has a body is not rewritten.
        obtain ⟨node, node'', hold, hnew, hdeleted, -⟩ := hstep.grows.winning (hs.tree htree) h hw
        rw [hnew] at hwin
        cases hwin
        obtain ⟨e, he, hrev, hflag⟩ := hl.last htree hold
        exact ⟨e, he, hrev, by rw [hflag, hdeleted]⟩
    · exact hl.last hu hwin

/-- A change that moves the winner keeps the invariant: it moves the winner up. -/
theorem Logged.update_of_ne (hl : s.Logged) (hs : s.Sound) (hstep : (s.tree id).Step t)
    (hw : t.winner = some w) (hs' : (s.update id t).Sound) (h : s.winner id ≠ some w) :
    (s.update id t).Logged where
  numbers := by
    rw [updateSeq, log_update_of_ne hw h, List.map_append, hl.numbers, List.length_append]
    simp [List.range'_1_concat, updateSeq, Nat.add_comm]
  known {e} he := by
    rw [log_update_of_ne hw h] at he
    rcases List.mem_append.1 he with hold | hnew
    · exact hl.known_grows (grows_update hstep) hold
    · rw [List.mem_singleton.1 hnew]
      exact ⟨t, tree?_update_self s id t, RevTree.contains_winner hw⟩
  ascending other := by
    by_cases hid : other = id
    · subst hid
      rw [logOf_update_self hw h, List.pairwise_append]
      refine ⟨hl.ascending other, List.pairwise_singleton _ _, ?_⟩
      intro e he last hlast
      rw [List.mem_singleton.1 hlast]
      obtain ⟨hmem, hid⟩ := mem_logOf.1 he
      obtain ⟨a, ha, hle⟩ := hl.le_winner hs hmem
      rw [hid] at ha
      obtain ⟨b, hb, hab⟩ := (grows_update hstep).winner hs' ha
      rw [winner_eq (tree?_update_self s other t), hw] at hb
      cases hb
      have hne : a ≠ w := fun haw => h (haw ▸ ha)
      exact lt_of_le_of_lt hle (lt_of_le_of_ne hab hne)
    · rw [logOf_update_of_ne hid]
      exact hl.ascending other
  last {other u w' node} hu hwin := by
    obtain ⟨rfl, rfl⟩ | ⟨hid, hu⟩ := tree?_update_cases hu
    · rw [logOf_update_self hw h, List.getLast?_append, List.getLast?_singleton]
      have heq : w = w' := Option.some.inj (hw.symm.trans (RevTree.winner_of_winning hwin))
      exact ⟨_, rfl, heq, RevTree.isDeleted_eq hwin⟩
    · rw [logOf_update_of_ne hid]
      exact hl.last hu hwin

theorem Logged.update (hl : s.Logged) (hs : s.Sound) (hstep : (s.tree id).Step t)
    {rev : Revision} (hrev : t.contains rev = true) : (s.update id t).Logged := by
  obtain ⟨-, w, hw⟩ := hs.step hstep hrev
  by_cases h : s.winner id = some w
  · exact hl.update_of_eq hs hstep hw h
  · exact hl.update_of_ne hs hstep hw (hs.update hstep hrev) h

end Step

theorem Logged.result {s : Store} (hl : s.Logged) (hs : s.Sound) {id : String}
    {expected : Option Revision} {r : Except Error Revision × Store}
    (h : s.Result id expected r) : r.2.Logged := by
  cases h with
  | refused e => exact hl
  | accepted hstep hrev _ => exact hl.update hs hstep hrev

theorem Logged.after {s : Store} (hl : s.Logged) (hs : s.Sound) (ws : List Write) :
    (s.after ws).Logged := by
  induction ws generalizing s with
  | nil => exact hl
  | cons w ws ih => exact ih (hl.result hs (w.result s)) (hs.result (w.result s))

theorem logged_after (ws : List Write) : (empty.after ws).Logged :=
  logged_empty.after sound_empty ws

/-! ## Pieces of the log -/

theorem prefix_atMost {α : Type} (limit : Option Nat) (xs : List α) : atMost limit xs <+: xs := by
  cases limit with
  | none => exact List.prefix_refl xs
  | some n => exact List.take_prefix n xs

section Pieces
variable {s : Store} {start : Nat} {es : List ChangeEntry} {e : ChangeEntry}

theorem Logged.seq_getElem (hl : s.Logged) {i : Nat} (hi : i < s.log.length) :
    s.log[i].seq = i + 1 := by
  have hi' : i < (s.log.map (·.seq)).length := by rw [List.length_map]; exact hi
  have h : (s.log.map (·.seq))[i] = 1 + 1 * i := by
    rw [List.getElem_of_eq hl.numbers hi', List.getElem_range']
  rw [List.getElem_map] at h
  omega

theorem Logged.seq_le (hl : s.Logged) (he : e ∈ s.log) : e.seq ≤ s.updateSeq := by
  obtain ⟨i, hi, rfl⟩ := List.getElem_of_mem he
  rw [hl.seq_getElem hi]
  exact hi

/-- The number of the last entry of a piece of the log tells where the piece ends. -/
theorem Logged.seq_getLast (hl : s.Logged) (hpiece : es <+: s.log.drop start)
    (hlast : es.getLast? = some e) : e.seq = start + es.length := by
  have hne : es ≠ [] := List.ne_nil_of_mem (List.mem_of_getLast? hlast)
  have hpos : 0 < es.length := List.length_pos_iff.2 hne
  have hle : es.length ≤ s.log.length - start := by
    rw [← List.length_drop]
    exact hpiece.length_le
  have hi : es.length - 1 < es.length := by omega
  have hend : start + (es.length - 1) < s.log.length := by omega
  have he : e = s.log[start + (es.length - 1)] := by
    rw [List.getLast?_eq_getElem?, List.getElem?_eq_getElem hi] at hlast
    rw [← Option.some.inj hlast, hpiece.getElem hi, List.getElem_drop]
  rw [he, hl.seq_getElem]
  omega

/-- A piece of the log holds all entries with a number in its range. -/
theorem Logged.mem_of_seq (hl : s.Logged) (hpiece : es <+: s.log.drop start) (he : e ∈ s.log)
    (hlow : start < e.seq) (hhigh : e.seq ≤ start + es.length) : e ∈ es := by
  obtain ⟨i, hi, rfl⟩ := List.getElem_of_mem he
  rw [hl.seq_getElem hi] at hlow hhigh
  have hj : i - start < es.length := by omega
  have heq : es[i - start] = s.log[i] := by
    rw [hpiece.getElem hj, List.getElem_drop]
    congr 1
    omega
  rw [← heq]
  exact List.getElem_mem hj

end Pieces

/-! ## Growth -/

theorem Sound.log_result {s : Store} (hs : s.Sound) {id : String} {expected : Option Revision}
    {r : Except Error Revision × Store} (h : s.Result id expected r) : s.log <+: r.2.log := by
  cases h with
  | refused e => exact List.prefix_refl s.log
  | accepted hstep hrev _ =>
    obtain ⟨-, w, hw⟩ := hs.step hstep hrev
    exact log_prefix hw

theorem Sound.log_after {s : Store} (hs : s.Sound) (ws : List Write) :
    s.log <+: (s.after ws).log := by
  induction ws generalizing s with
  | nil => exact List.prefix_refl s.log
  | cons w ws ih =>
    exact (hs.log_result (w.result s)).trans (ih (hs.result (w.result s)))

end DocumentDb.Store
