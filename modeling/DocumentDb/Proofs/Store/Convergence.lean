import DocumentDb.Proofs.RevTree.Convergence
import DocumentDb.Proofs.Store.Writes
import Mathlib.Order.Bounds.Basic

/-! # Replicated edits in any order

Whether a replicated edit is accepted depends on the edit alone, and an accepted one adds exactly
the revisions of its history to its document. So stores that have been given the same edits hold the
same revisions, and with them the same winners, even if the edits contradict each other about
parents and bodies.

* `Store.Replica`, `Store.Replica.verdict`: a replicated edit, and what becomes of it in any store.
* `Store.attempts`: some edits, one after the other, each with what became of it.
* `Store.contains_replicated`, `Store.holds_replicated`: the documents and the revisions of a store
  after some edits. `Store.contains_replicate_iff`, `Store.holds_replicate_iff`: those of the empty
  one.
* `Store.replicas_converge`: the result for every list of edits and every permutation.
-/

namespace DocumentDb

namespace Store

/-! ## What becomes of an edit -/

/-- A branch of a document that exists elsewhere. -/
structure Replica extends RevTree.Branch where
  id : String

namespace Replica

/-- The write that adds a replicated edit. -/
def write (e : Replica) : Write := .graft e.id e.history e.deleted e.body

/-- What becomes of a replicated edit. -/
def verdict (e : Replica) : Except Error Revision :=
  match checkDocId e.id, e.history.head? with
  | .error err, _ => .error err
  | .ok (), none => .error (.badRequest "replicated edit needs a revision")
  | .ok (), some newest => (RevTree.checkHistory e.history).map fun _ => newest

end Replica

/-- Some replicated edits, one after the other, each with what becomes of it. -/
def attempts (s : Store) : List Replica → List (Replica × Except Error Revision)
  | [] => []
  | e :: es => (e, (e.write.run s).1) :: (e.write.run s).2.attempts es

/-- The store after some replicated edits. -/
def replicate (s : Store) (es : List Replica) : Store := s.after (es.map Replica.write)

/-- The outcome of a replicated edit does not depend on the store. -/
theorem run_replica (s : Store) (e : Replica) :
    e.write.run s = match e.verdict with
      | .error err => (.error err, s)
      | .ok newest =>
        (.ok newest, s.update e.id ((s.tree e.id).absorbPath e.deleted e.body e.history)) := by
  show s.graft e.id e.history e.deleted e.body = _
  unfold graft Replica.verdict
  cases checkDocId e.id with
  | error err => rfl
  | ok u =>
    cases e.history.head? with
    | none => rfl
    | some newest =>
      unfold RevTree.graft
      cases RevTree.checkHistory e.history with
      | error err => rfl
      | ok u => rfl

theorem attempts_eq (s : Store) (es : List Replica) :
    s.attempts es = es.map fun e => (e, e.verdict) := by
  induction es generalizing s with
  | nil => rfl
  | cons e es ih =>
    have hverdict : (e.write.run s).1 = e.verdict := by
      rw [run_replica]
      cases e.verdict with
      | error err => rfl
      | ok newest => rfl
    rw [attempts, ih, hverdict]
    rfl

theorem mem_attempts {s : Store} {es : List Replica} {e : Replica}
    {r : Except Error Revision} : (e, r) ∈ s.attempts es ↔ e ∈ es ∧ e.verdict = r := by
  rw [attempts_eq, List.mem_map]
  constructor
  · rintro ⟨e', he', h⟩
    cases h
    exact ⟨he', rfl⟩
  · rintro ⟨he, rfl⟩
    exact ⟨e, he, rfl⟩

/-! ## Documents and revisions after some edits -/

/-- An edit is accepted. -/
def Replica.Accepted (e : Replica) : Prop := ∃ newest, e.verdict = .ok newest

theorem Replica.not_accepted {e : Replica} {err : Error} (h : e.verdict = .error err) :
    ¬ e.Accepted := by
  rintro ⟨newest, hok⟩
  rw [h] at hok
  cases hok

section
variable {s : Store} {id : String} {rev : Revision}

theorem contains_update {other : String} {t : RevTree} :
    (s.update id t).docs.contains other = true ↔
      s.docs.contains other = true ∨ other = id := by
  rw [contains_docs, contains_docs]
  by_cases hid : other = id
  · subst hid
    simp
  · rw [tree?_update_of_ne s id t hid]
    simp [hid]

theorem tree_update (other : String) (t : RevTree) :
    (s.update id t).tree other = if other = id then t else s.tree other := by
  split
  · next hid => rw [hid, tree_update_self]
  · next hid => rw [tree_update_of_ne s id t hid]

theorem contains_run_replica (e : Replica) :
    (e.write.run s).2.docs.contains id = true ↔
      s.docs.contains id = true ∨ e.Accepted ∧ e.id = id := by
  rw [run_replica]
  cases hverdict : e.verdict with
  | error err => simp [Replica.not_accepted hverdict]
  | ok newest =>
    have haccepted : e.Accepted := ⟨newest, hverdict⟩
    show (s.update e.id _).docs.contains id = true ↔ _
    rw [contains_update, eq_comm (a := id)]
    simp [haccepted]

theorem holds_run_replica (e : Replica) :
    ((e.write.run s).2.tree id).contains rev = true ↔
      (s.tree id).contains rev = true ∨ e.Accepted ∧ e.id = id ∧ rev ∈ e.history := by
  rw [run_replica]
  cases hverdict : e.verdict with
  | error err => simp [Replica.not_accepted hverdict]
  | ok newest =>
    have haccepted : e.Accepted := ⟨newest, hverdict⟩
    show ((s.update e.id _).tree id).contains rev = true ↔ _
    rw [tree_update]
    split
    · next hid =>
      subst hid
      rw [RevTree.contains_absorbPath]
      simp [haccepted, or_comm]
    · next hid => simp [Ne.symm hid]

theorem contains_replicated (es : List Replica) :
    (s.replicate es).docs.contains id = true ↔
      s.docs.contains id = true ∨ ∃ e ∈ es, e.Accepted ∧ e.id = id := by
  induction es generalizing s with
  | nil => simp [replicate, after]
  | cons e es ih =>
    show ((e.write.run s).2.replicate es).docs.contains id = true ↔ _
    rw [ih, contains_run_replica, or_assoc]
    simp

theorem holds_replicated (es : List Replica) :
    ((s.replicate es).tree id).contains rev = true ↔
      (s.tree id).contains rev = true ∨ ∃ e ∈ es, e.Accepted ∧ e.id = id ∧ rev ∈ e.history := by
  induction es generalizing s with
  | nil => simp [replicate, after]
  | cons e es ih =>
    show (((e.write.run s).2.replicate es).tree id).contains rev = true ↔ _
    rw [ih, holds_run_replica, or_assoc]
    simp

end

/-! ## Convergence -/

/-- The revisions on the histories of a document that the empty store accepts. -/
def listed (es : List Replica) (id : String) : Set Revision :=
  {rev | ∃ e newest, (e, .ok newest) ∈ empty.attempts es ∧ e.id = id ∧ rev ∈ e.history}

theorem mem_listed {es : List Replica} {id : String} {rev : Revision} :
    rev ∈ listed es id ↔ ∃ e ∈ es, e.Accepted ∧ e.id = id ∧ rev ∈ e.history := by
  constructor
  · rintro ⟨e, newest, hattempt, hrest⟩
    obtain ⟨he, hverdict⟩ := mem_attempts.1 hattempt
    exact ⟨e, he, ⟨newest, hverdict⟩, hrest⟩
  · rintro ⟨e, he, ⟨newest, hverdict⟩, hrest⟩
    exact ⟨e, newest, mem_attempts.2 ⟨he, hverdict⟩, hrest⟩

section
variable {es es' : List Replica} {id : String}

theorem sound_replicate (es : List Replica) : (empty.replicate es).Sound :=
  sound_after (es.map Replica.write)

theorem contains_perm (h : es.Perm es') :
    (empty.replicate es).docs.contains id = true ↔
      (empty.replicate es').docs.contains id = true := by
  rw [contains_replicated, contains_replicated]
  simp only [h.mem_iff]

theorem holds_perm (h : es.Perm es') {rev : Revision} :
    ((empty.replicate es).tree id).contains rev = true ↔
      ((empty.replicate es').tree id).contains rev = true := by
  rw [holds_replicated, holds_replicated]
  simp only [h.mem_iff]

theorem keys_perm (h : es.Perm es') :
    ((empty.replicate es).tree id).nodes.keys = ((empty.replicate es').tree id).nodes.keys :=
  SortedMap.keys_eq fun _ => holds_perm h

/-- The winner is the greatest of the revisions that a tree holds, so it is the same for the same
revisions. -/
theorem winner_perm (h : es.Perm es') :
    (empty.replicate es).winner id = (empty.replicate es').winner id := by
  have ht := (sound_replicate es).tree_self id
  have ht' := (sound_replicate es').tree_self id
  rw [← winner_tree, ← winner_tree, ht.winner_eq, ht'.winner_eq, keys_perm h]

/-- There are the documents of the accepted edits, and no others. -/
theorem contains_replicate_iff : (empty.replicate es).docs.contains id = true ↔
    ∃ e newest, (e, .ok newest) ∈ empty.attempts es ∧ e.id = id := by
  have hnone : empty.docs.contains id = false := rfl
  rw [contains_replicated, hnone]
  constructor
  · rintro (hno | ⟨e, he, ⟨newest, hverdict⟩, hid⟩)
    · cases hno
    · exact ⟨e, newest, mem_attempts.2 ⟨he, hverdict⟩, hid⟩
  · rintro ⟨e, newest, hattempt, hid⟩
    obtain ⟨he, hverdict⟩ := mem_attempts.1 hattempt
    exact .inr ⟨e, he, ⟨newest, hverdict⟩, hid⟩

/-- A document holds the revisions on its accepted histories, and no others. -/
theorem holds_replicate_iff {rev : Revision} :
    ((empty.replicate es).tree id).contains rev = true ↔ rev ∈ listed es id := by
  have hnone : (empty.tree id).contains rev = false := rfl
  rw [holds_replicated, mem_listed, hnone]
  simp

theorem isGreatest_winner (hid : (empty.replicate es).docs.contains id = true) :
    ∃ w, (empty.replicate es).winner id = some w ∧ IsGreatest (listed es id) w := by
  have hlisted : ∀ rev, ((empty.replicate es).tree id).contains rev = true ↔
      rev ∈ listed es id := fun _ => holds_replicate_iff
  obtain ⟨t, htree⟩ := contains_docs.1 hid
  obtain ⟨w, hw⟩ := (sound_replicate es).winner htree
  have ht := (sound_replicate es).tree htree
  rw [tree_eq htree] at hlisted
  refine ⟨w, by rw [winner_eq htree, hw], (hlisted w).1 (RevTree.contains_winner hw), ?_⟩
  intro rev hrev
  exact ht.le_winner hw ((hlisted rev).2 hrev)

end

/-- Replicated edits, invalid ones included, lead to the same place from the empty store in every
order. Each edit has the same outcome. There are the same documents, those of the accepted edits,
and every document holds the same revisions, those on its accepted histories. Its winner is the
same, the greatest of them. -/
theorem replicas_converge {es es' : List Replica} (h : es.Perm es') :
    (∀ e r r', (e, r) ∈ empty.attempts es → (e, r') ∈ empty.attempts es' → r = r') ∧
    (∀ id, (empty.replicate es).docs.contains id = true ↔
      ∃ e newest, (e, .ok newest) ∈ empty.attempts es ∧ e.id = id) ∧
    (∀ id rev, ((empty.replicate es).tree id).contains rev = true ↔ rev ∈ listed es id) ∧
    (empty.replicate es).docs.keys = (empty.replicate es').docs.keys ∧
    (∀ id, ((empty.replicate es).tree id).nodes.keys =
      ((empty.replicate es').tree id).nodes.keys) ∧
    (∀ id, (empty.replicate es).winner id = (empty.replicate es').winner id) ∧
    ∀ id, (empty.replicate es).docs.contains id = true →
      ∃ w, (empty.replicate es).winner id = some w ∧ IsGreatest (listed es id) w := by
  refine ⟨?_, fun _ => contains_replicate_iff, fun _ _ => holds_replicate_iff,
    SortedMap.keys_eq fun _ => contains_perm h, fun _ => keys_perm h, fun _ => winner_perm h,
    fun _ => isGreatest_winner⟩
  intro e r r' hr hr'
  obtain ⟨-, rfl⟩ := mem_attempts.1 hr
  obtain ⟨-, rfl⟩ := mem_attempts.1 hr'
  rfl

/-- Two branches of one document that overlap, the second of which stops early, and edits that are
refused: a history with a gap, a reserved id, and a history without revisions. -/
def mixedReplicas : List Replica :=
  [⟨⟨[⟨2, "x"⟩, ⟨1, "r"⟩], false, .emptyObject⟩, "a"⟩, ⟨⟨[⟨3, "z"⟩, ⟨2, "x"⟩], true, .null⟩, "a"⟩,
    ⟨⟨[⟨4, "q"⟩, ⟨1, "r"⟩], false, .emptyObject⟩, "a"⟩, ⟨⟨[⟨1, "y"⟩], false, .null⟩, "_b"⟩,
    ⟨⟨[], false, .emptyObject⟩, "a"⟩]

/-- In both orders there is the one document, with the revisions of its two branches. -/
theorem mixedReplicas_reversed :
    let es := mixedReplicas
    let es' := mixedReplicas.reverse
    let revs : List Revision := [⟨1, "r"⟩, ⟨2, "x"⟩, ⟨3, "z"⟩]
    es.Perm es' ∧
    (∀ e r r', (e, r) ∈ empty.attempts es → (e, r') ∈ empty.attempts es' → r = r') ∧
    (empty.replicate es').docs.keys = ["a"] ∧
    (∀ id, (∃ e newest, (e, .ok newest) ∈ empty.attempts es ∧ e.id = id) ↔ id = "a") ∧
    ((empty.replicate es').tree "a").nodes.keys = revs ∧
    (∀ rev, rev ∈ listed es "a" ↔ rev ∈ revs) ∧
    (empty.replicate es').winner "a" = some ⟨3, "z"⟩ ∧ IsGreatest (listed es "a") ⟨3, "z"⟩ := by
  intro es es' revs
  have hperm : es.Perm es' := (List.reverse_perm _).symm
  obtain ⟨hsame, hcontains, hholds, hdocs, hkeys, hwinners, hgreatest⟩ := replicas_converge hperm
  have hids : (empty.replicate es).docs.keys = ["a"] := by rfl
  have hrevs : ((empty.replicate es).tree "a").nodes.keys = revs := by rfl
  have hwinner : (empty.replicate es).winner "a" = some ⟨3, "z"⟩ := by rfl
  obtain ⟨w, hw, hmost⟩ := hgreatest "a" rfl
  rw [hwinner] at hw
  cases hw
  refine ⟨hperm, hsame, hdocs.symm.trans hids, fun id => ?_, (hkeys "a").symm.trans hrevs,
    fun rev => ?_, (hwinners "a").symm.trans hwinner, hmost⟩
  · rw [← hcontains, SortedMap.contains, Option.isSome_iff_exists, ← SortedMap.mem_keys, hids,
      List.mem_singleton]
  · rw [← hholds, ← RevTree.mem_keys, hrevs]

end Store

end DocumentDb
