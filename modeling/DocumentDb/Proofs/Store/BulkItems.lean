import DocumentDb.Store.Bulk
import Mathlib.Data.List.Forall2
import Mathlib.Data.List.Perm.Basic

/-! # The items of a bulk write

A bulk write applies each of its edits under the id of the edit. A new edit without one is given the
next id of the supply. No id is given twice, so if nobody uses those that the supply has, an edit
without an id has its document for itself and may change places with any other edit.

* `Bulk.Addresses`, `Bulk.Item.given?`: an edit with its item, and the id that it is given.
* `Bulk.given_assign`: the given ids are the next ones of the supply.
* `Bulk.Supplied`, `Bulk.Assigned`, `Bulk.Supplied.assigned`: given ids are used by no document and
  no other edit if the supply has such ids.
* `Bulk.Reorders`, `Bulk.Movable`, `Bulk.Assigned.movable`: reorderings of edits are reorderings of
  their items.
-/

namespace DocumentDb.Bulk

variable {newEdits : Bool} {s : Store} {edits edits' : List Edit} {items items' : List Item}
  {e : Edit} {item : Item} {id : String}

/-! ## Given ids -/

/-- An edit is applied under its own id or, for want of one, under an id that it is given if it is a
new edit and under none otherwise. -/
inductive Addresses (newEdits : Bool) (e : Edit) : Item → Prop where
  | own {id : String} (h : e.id = some id) : Addresses newEdits e ⟨some id, e⟩
  | given (id : String) (h : e.id = none) (hnew : newEdits = true) :
    Addresses newEdits e ⟨some id, e⟩
  | unnamed (h : e.id = none) (hold : newEdits = false) : Addresses newEdits e ⟨none, e⟩

theorem addresses_assign (newEdits : Bool) (edits : List Edit) (ids : IdSupply) :
    List.Forall₂ (Addresses newEdits) edits (assign newEdits edits ids).1 := by
  induction edits generalizing ids with
  | nil => exact .nil
  | cons e es ih =>
    unfold assign
    cases hid : e.id with
    | some id => exact .cons (.own hid) (ih ids)
    | none =>
      cases newEdits with
      | true => exact .cons (.given _ hid rfl) (ih ids.next.2)
      | false => exact .cons (.unnamed hid rfl) (ih ids)

/-- The id that an item has been given, its edit having none. -/
def Item.given? (item : Item) : Option String :=
  if item.edit.id.isNone then item.id else none

/-- An item has the id that it was given or the one that its edit names. -/
theorem Addresses.given_or_named (h : Addresses newEdits e item) (hid : item.id = some id) :
    item.given? = some id ∨ e.id = some id := by
  unfold Item.given?
  cases h with
  | own hown => exact .inr (hown.trans hid)
  | given _ hnone => exact .inl (by simpa [hnone] using hid)
  | unnamed => cases hid

theorem Addresses.eq_of_named (h : Addresses newEdits e item) (hid : e.id = some id) :
    item = ⟨some id, e⟩ := by
  cases h with
  | own hown => rw [← hown, hid]
  | given _ hnone | unnamed hnone =>
    rw [hnone] at hid
    cases hid

/-- The number of ids that some edits take from a supply. -/
def draws (newEdits : Bool) (edits : List Edit) : Nat :=
  if newEdits then edits.countP (·.id.isNone) else 0

/-- The edits are given the next ids of the supply, in order. -/
theorem given_assign (newEdits : Bool) (edits : List Edit) (ids : IdSupply) :
    let (items, left) := assign newEdits edits ids
    (items.filterMap Item.given?, left) = ids.take (draws newEdits edits) := by
  induction edits generalizing ids with
  | nil => cases newEdits <;> rfl
  | cons e es ih =>
    unfold assign
    cases hid : e.id with
    | some id =>
      have hdraws : draws newEdits (e :: es) = draws newEdits es := by simp [draws, hid]
      have hgiven : Item.given? ⟨some id, e⟩ = none := by simp [Item.given?, hid]
      rw [hdraws, ← ih ids]
      exact congrArg (·, _) (List.filterMap_cons_none hgiven)
    | none =>
      cases newEdits with
      | true =>
        have hdraws : draws true (e :: es) = draws true es + 1 := by simp [draws, hid]
        have hgiven : Item.given? ⟨some ids.next.1, e⟩ = some ids.next.1 := by
          simp [Item.given?, hid]
        rw [hdraws, IdSupply.take_succ, ← ih ids.next.2]
        exact congrArg (·, _) (List.filterMap_cons_some hgiven)
      | false =>
        have hdraws : draws false (e :: es) = draws false es := rfl
        have hgiven : Item.given? ⟨none, e⟩ = none := by simp [Item.given?]
        rw [hdraws, ← ih ids]
        exact congrArg (·, _) (List.filterMap_cons_none hgiven)

/-- An id is that of a document or is named by an edit. -/
def InUse (s : Store) (edits : List Edit) (id : String) : Prop :=
  s.docs.contains id = true ∨ ∃ e ∈ edits, e.id = some id

/-- Some edits with their items. An id that an edit is given is used by no document and by no other
edit, whether it names its id or has been given it. -/
structure Assigned (newEdits : Bool) (s : Store) (edits : List Edit) (items : List Item) :
    Prop where
  addressed : List.Forall₂ (Addresses newEdits) edits items
  distinct : (items.filterMap Item.given?).Nodup
  unused : ∀ id ∈ items.filterMap Item.given?, ¬ InUse s edits id

/-- The supply has new ids for some edits: those that they take are not in use. -/
def Supplied (newEdits : Bool) (s : Store) (edits : List Edit) (ids : IdSupply) : Prop :=
  ∀ id ∈ (ids.take (draws newEdits edits)).1, ¬ InUse s edits id

theorem Supplied.assigned {ids : IdSupply} (h : Supplied newEdits s edits ids) :
    Assigned newEdits s edits (assign newEdits edits ids).1 := by
  have hgiven : (assign newEdits edits ids).1.filterMap Item.given? = _ :=
    congrArg Prod.fst (given_assign newEdits edits ids)
  refine ⟨addresses_assign newEdits edits ids, ?_, ?_⟩
  · rw [hgiven]
    exact ids.nodup_take _
  · rw [hgiven]
    exact h

/-! ## Reorderings -/

/-- A list in another order in which members with the same id follow each other as before. -/
structure Reorders {α : Type} (idOf : α → Option String) (xs xs' : List α) : Prop where
  perm : xs'.Perm xs
  inOrder : ∀ id : String, (xs'.filter fun x => idOf x = some id) =
    xs.filter fun x => idOf x = some id

theorem exists_edit (h : List.Forall₂ (Addresses newEdits) edits items) (hitem : item ∈ items) :
    ∃ e ∈ edits, Addresses newEdits e item := by
  induction h with
  | nil => cases hitem
  | @cons e first es items haddressed _ ih =>
    rcases List.mem_cons.1 hitem with rfl | hitem
    · exact ⟨e, List.mem_cons_self, haddressed⟩
    · obtain ⟨e', he', haddressed'⟩ := ih hitem
      exact ⟨e', List.mem_cons_of_mem _ he', haddressed'⟩

/-- The items with an id that none has been given are those of the edits that name it. -/
theorem filter_of_not_given (h : List.Forall₂ (Addresses newEdits) edits items)
    (hid : ∀ item ∈ items, item.given? ≠ some id) :
    (items.filter fun item => item.id = some id) =
      (edits.filter fun e => e.id = some id).map (Item.mk (some id)) := by
  induction h with
  | nil => rfl
  | @cons e item es items haddressed _ ih =>
    obtain ⟨hfirst, hrest⟩ := List.forall_mem_cons.1 hid
    by_cases hnamed : e.id = some id
    · have hitem : item = ⟨some id, e⟩ := haddressed.eq_of_named hnamed
      rw [List.filter_cons_of_pos (by simp [hitem]), List.filter_cons_of_pos (by simpa using hnamed),
        ih hrest, hitem, List.map_cons]
    · have hother : item.id ≠ some id := fun hsame =>
        (haddressed.given_or_named hsame).elim hfirst hnamed
      rw [List.filter_cons_of_neg (by simpa using hother),
        List.filter_cons_of_neg (by simpa using hnamed), ih hrest]

/-- At most one item has an id that no edit names. -/
theorem Assigned.filter_of_not_named (h : Assigned newEdits s edits items)
    (hid : ∀ e ∈ edits, e.id ≠ some id) :
    (items.filter fun item => item.id = some id) = [] ∨
      ∃ item, (items.filter fun item => item.id = some id) = [item] := by
  have hgiven : ∀ item ∈ items.filter fun item => item.id = some id, item.given? = some id := by
    intro item hitem
    obtain ⟨hitem, hsame⟩ := List.mem_filter.1 hitem
    obtain ⟨e, he, haddressed⟩ := exists_edit h.addressed hitem
    exact (haddressed.given_or_named (by simpa using hsame)).resolve_right (hid e he)
  have hdistinct := (List.pairwise_filterMap.1 h.distinct).filter fun item => item.id = some id
  match hgroup : items.filter fun item => item.id = some id with
  | [] => exact .inl hgroup
  | [item] => exact .inr ⟨item, hgroup⟩
  | x :: y :: rest =>
    rw [hgroup] at hgiven hdistinct
    have hx := hgiven x List.mem_cons_self
    have hy := hgiven y (List.mem_cons_of_mem _ List.mem_cons_self)
    exact absurd rfl ((List.pairwise_cons.1 hdistinct).1 y List.mem_cons_self id hx id hy)

/-- The edits of a bulk write may change places as long as those that name the same id follow each
other as before. -/
structure Movable (newEdits : Bool) (edits : List Edit) (items : List Item) : Prop where
  /-- The edits may keep the ids that they have been given. -/
  moves : ∀ edits', Reorders Edit.id edits edits' →
    ∃ items', List.Forall₂ (Addresses newEdits) edits' items' ∧ items'.Perm items
  /-- If they do, items of the same id follow each other as before. -/
  reorders : ∀ edits' items', Reorders Edit.id edits edits' →
    List.Forall₂ (Addresses newEdits) edits' items' → items'.Perm items →
      Reorders Item.id items items'

theorem Assigned.movable (h : Assigned newEdits s edits items) :
    Movable newEdits edits items where
  moves _ hedits := List.perm_comp_forall₂ hedits.perm h.addressed
  reorders edits' items' hedits haddressed hperm := by
    refine ⟨hperm, fun id => ?_⟩
    by_cases hnamed : ∃ e ∈ edits, e.id = some id
    · -- No item has been given this id, so the edits that name it decide.
      have hnone : ∀ item ∈ items, item.given? ≠ some id := fun item hitem hgiven =>
        h.unused id (List.mem_filterMap.2 ⟨item, hitem, hgiven⟩) (.inr hnamed)
      have hstill : ∀ item ∈ items', item.given? ≠ some id :=
        fun item hitem => hnone item (hperm.mem_iff.1 hitem)
      rw [filter_of_not_given h.addressed hnone, filter_of_not_given haddressed hstill,
        hedits.inOrder]
    · have hgroup := hperm.filter fun item => item.id = some id
      obtain hnil | ⟨item, hone⟩ :=
        h.filter_of_not_named fun e he hid => hnamed ⟨e, he, hid⟩
      · rw [hnil] at hgroup ⊢
        exact hgroup.eq_nil
      · rw [hone] at hgroup ⊢
        exact List.perm_singleton.1 hgroup

end DocumentDb.Bulk
