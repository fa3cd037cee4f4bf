import DocumentDb.SortedMap.Basic
import Mathlib.Data.List.Induction
import Mathlib.Data.List.Sort

/-! # Keys of sorted maps

* `SortedMap.pairwise_keys`: the keys strictly ascend.
* `SortedMap.keys_eq`: maps that hold the same keys list them alike.
* `SortedMap.insert_eq_self`: putting a value where it is already changes nothing.
* `Entries.get?_ofList`, `Entries.get?_ofList_last`: of several pairs of one key the last counts.
* `Entries.exists_get?_ofList`: every key of the pairs is found.
-/

namespace DocumentDb

namespace Entries

variable {κ α : Type} [Ord κ] [Std.LawfulEqOrd κ] [DecidableEq κ]

theorem get?_ofList (pairs : List (κ × α)) (k : κ) :
    get? k (ofList pairs) = get? k pairs.reverse := by
  induction pairs using List.reverseRecOn with
  | nil => rfl
  | append_singleton pairs p ih =>
    have hlast : ofList (pairs ++ [p]) = insert p.1 p.2 (ofList pairs) := by simp [ofList]
    rw [hlast, get?_insert, ih, List.reverse_concat, get?_cons]

theorem exists_get?_of_mem {e : κ × α} {es : List (κ × α)} (h : e ∈ es) :
    ∃ v, get? e.1 es = some v := by
  induction es with
  | nil => cases h
  | cons e' es ih =>
    obtain ⟨k, v⟩ := e'
    rw [get?_cons]
    split
    · exact ⟨v, rfl⟩
    · next hne =>
      rcases List.mem_cons.1 h with rfl | h
      · exact absurd rfl hne
      · exact ih h

theorem exists_get?_ofList {e : κ × α} {pairs : List (κ × α)} (h : e ∈ pairs) :
    ∃ v, get? e.1 (ofList pairs) = some v := by
  rw [get?_ofList]
  exact exists_get?_of_mem (List.mem_reverse.2 h)

theorem get?_append_of_ne {k : κ} {es : List (κ × α)} (h : ∀ e ∈ es, e.1 ≠ k)
    (fs : List (κ × α)) : get? k (es ++ fs) = get? k fs := by
  induction es with
  | nil => rfl
  | cons e es ih =>
    obtain ⟨hfirst, hrest⟩ := List.forall_mem_cons.1 h
    obtain ⟨k', v⟩ := e
    rw [List.cons_append, get?_cons, if_neg (Ne.symm hfirst), ih hrest]

/-- What stands before the last pair of a key does not count. -/
theorem get?_ofList_last {k : κ} (before : List (κ × α)) (v : α) {after : List (κ × α)}
    (h : ∀ e ∈ after, e.1 ≠ k) : get? k (ofList (before ++ (k, v) :: after)) = some v := by
  have hlater : ∀ e ∈ after.reverse, e.1 ≠ k := fun e he => h e (List.mem_reverse.1 he)
  rw [get?_ofList, List.reverse_append, List.reverse_cons, List.append_assoc,
    get?_append_of_ne hlater, List.singleton_append, get?_cons, if_pos rfl]

end Entries

namespace SortedMap

variable {κ α : Type} [Ord κ]

theorem pairwise_keys (m : SortedMap κ α) : m.keys.Pairwise fun a b => compare a b = .lt :=
  List.pairwise_map.2 m.ordered

variable [Std.TransOrd κ] [Std.LawfulEqOrd κ] [DecidableEq κ]

theorem keys_eq {β : Type} {m : SortedMap κ α} {n : SortedMap κ β}
    (h : ∀ k, m.contains k = true ↔ n.contains k = true) : m.keys = n.keys := by
  have hirrefl : Std.Irrefl fun a b : κ => compare a b = .lt := ⟨fun a => by simp⟩
  have hantisymm : Std.Antisymm fun a b : κ => compare a b = .lt := by
    constructor
    intro a b hab hba
    have hlt := Std.TransCmp.lt_trans hab hba
    simp at hlt
  refine List.Pairwise.eq_of_mem_iff m.pairwise_keys n.pairwise_keys fun k => ?_
  have hk := h k
  simp only [contains, Option.isSome_iff_exists] at hk
  rw [mem_keys, mem_keys, hk]

theorem insert_eq_self {m : SortedMap κ α} {k : κ} {v : α} (h : m.get? k = some v) :
    m.insert k v = m := by
  apply ext_get?
  intro k'
  rw [get?_insert]
  split
  · next hk => rw [hk, h]
  · rfl

end SortedMap

end DocumentDb
