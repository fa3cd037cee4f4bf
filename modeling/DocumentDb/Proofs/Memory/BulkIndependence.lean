import DocumentDb.Proofs.Memory.Access
import DocumentDb.Proofs.Store.Apart
import DocumentDb.Proofs.Store.BulkItems
import DocumentDb.Proofs.Store.Refusal

/-! # The items of a bulk write are independent

A rejected item leaves the store as it is, and an item only meets those before it that have its own
id. So the rejected items may be left out, and items of different ids may change places: every other
result stays what it was, and so do the documents. The log lists the winners of each document as
before, while the numbers of its entries depend on the order of the items.

* `Bulk.outcomes`: items with their results.
* `Bulk.outcomes_accepted`: a bulk write without its rejected items.
* `Bulk.outcomes_restrict`: a bulk write as one document sees it.
* `Bulk.Independent`, `Bulk.independent`: the result for items.
* `Memory.bulk_independent`: the result for the call.
-/

namespace DocumentDb

/-- Lists whose groups are permutations of each other are permutations of each other. -/
theorem perm_of_filter {α κ : Type} [DecidableEq κ] {f : α → κ} {xs ys : List α}
    (h : ∀ k, (xs.filter fun x => f x = k).Perm (ys.filter fun x => f x = k)) : xs.Perm ys := by
  classical
  have hgroup : ∀ (zs : List α) (x : α), (zs.filter fun y => f y = f x).count x = zs.count x :=
    fun zs x => List.count_filter (decide_eq_true rfl)
  refine List.perm_iff_count.2 fun x => ?_
  rw [← hgroup xs, ← hgroup ys, (h (f x)).count_eq]

namespace Bulk

variable {newEdits : Bool} {s s' : Store} {item : Item} {items items' : List Item} {id : String}

/-! ## Results -/

/-- Some items, one after the other, each with its result. -/
def outcomes (newEdits : Bool) (s : Store) (items : List Item) : List (Item × BulkResult) :=
  items.zip (applyAll newEdits s items).1

theorem outcomes_cons (newEdits : Bool) (s : Store) (item : Item) (items : List Item) :
    outcomes newEdits s (item :: items) =
      (item, (applyItem newEdits s item).1) ::
        outcomes newEdits (applyItem newEdits s item).2 items := rfl

theorem applyAll_cons (newEdits : Bool) (s : Store) (item : Item) (items : List Item) :
    (applyAll newEdits s (item :: items)).2 =
      (applyAll newEdits (applyItem newEdits s item).2 items).2 := rfl

theorem ids_applyAll (newEdits : Bool) (s : Store) (items : List Item) :
    (applyAll newEdits s items).1.map (·.id) = items.map fun item => item.id.getD "" := by
  induction items generalizing s with
  | nil => rfl
  | cons item items ih =>
    have hid : (applyItem newEdits s item).1.id = item.id.getD "" := by
      unfold applyItem
      cases item.id with
      | none => rfl
      | some id => rfl
    unfold applyAll
    rw [List.map_cons, List.map_cons, ih, hid]

/-! ## Rejected items -/

theorem applyItem_of_rejected (h : (applyItem newEdits s item).1.outcome.isOk = false) :
    (applyItem newEdits s item).2 = s := by
  unfold applyItem at h ⊢
  cases hid : item.id with
  | none => rfl
  | some id =>
    rw [hid] at h
    have hresult := s.result_apply id item.edit newEdits
    cases hout : (s.apply id item.edit newEdits).1 with
    | error e => exact hresult.refused_eq hout
    | ok rev =>
      dsimp only at h
      rw [hout] at h
      cases h

theorem outcomes_accepted (newEdits : Bool) (s : Store) (items : List Item) :
    let accepted := (outcomes newEdits s items).filter (·.2.outcome.isOk)
    outcomes newEdits s (accepted.map (·.1)) = accepted ∧
      (applyAll newEdits s (accepted.map (·.1))).2 = (applyAll newEdits s items).2 := by
  induction items generalizing s with
  | nil => exact ⟨rfl, rfl⟩
  | cons item items ih =>
    have hrest := ih (applyItem newEdits s item).2
    dsimp only at hrest ⊢
    rw [outcomes_cons, applyAll_cons]
    cases hok : (applyItem newEdits s item).1.outcome.isOk with
    | true =>
      rw [List.filter_cons_of_pos (by exact hok), List.map_cons, outcomes_cons, applyAll_cons,
        hrest.1, hrest.2]
      exact ⟨rfl, rfl⟩
    | false =>
      rw [applyItem_of_rejected hok] at hrest ⊢
      rw [List.filter_cons_of_neg (by simp [hok])]
      exact hrest

/-! ## One document -/

theorem applyItem_alike (hitem : item.id = some id) (h : s.Alike s' id) :
    (applyItem newEdits s item).1 = (applyItem newEdits s' item).1 ∧
      (applyItem newEdits s item).2.Alike (applyItem newEdits s' item).2 id := by
  have happly := h.apply item.edit newEdits
  unfold applyItem
  rw [hitem]
  exact ⟨congrArg (BulkResult.mk id) happly.outcome, happly.alike⟩

theorem applyItem_alike_of_ne (hitem : item.id ≠ some id) :
    (applyItem newEdits s item).2.Alike s id := by
  unfold applyItem
  cases hid : item.id with
  | none => exact .refl s id
  | some other =>
    have hne : id ≠ other := fun h => hitem (by rw [hid, h])
    exact (Store.Write.apply other item.edit newEdits).alike_of_ne hne

/-- The items of one id get the same results without the others, and do the same to their document,
in any store where the document is the same. -/
theorem outcomes_restrict (newEdits : Bool) (h : s.Alike s' id) (items : List Item) :
    let own := items.filter fun item => item.id = some id
    ((outcomes newEdits s items).filter fun o => o.1.id = some id) = outcomes newEdits s' own ∧
      (applyAll newEdits s items).2.Alike (applyAll newEdits s' own).2 id := by
  induction items generalizing s s' with
  | nil => exact ⟨rfl, h⟩
  | cons item items ih =>
    intro own
    rw [outcomes_cons, applyAll_cons]
    by_cases hitem : item.id = some id
    · have hown : own = item :: _ := List.filter_cons_of_pos (by simpa using hitem)
      obtain ⟨hresult, hstep⟩ := applyItem_alike hitem h
      obtain ⟨houtcomes, hstore⟩ := ih hstep
      rw [hown, outcomes_cons, applyAll_cons, List.filter_cons_of_pos (by simpa using hitem),
        houtcomes, hresult]
      exact ⟨rfl, hstore⟩
    · have hown : own = _ := List.filter_cons_of_neg (by simpa using hitem)
      have hstep : (applyItem newEdits s item).2.Alike s' id :=
        (applyItem_alike_of_ne hitem).trans h
      rw [hown, List.filter_cons_of_neg (by simpa using hitem)]
      exact ih hstep

/-- Items without an id are refused whatever the store. -/
theorem outcomes_unaddressed (newEdits : Bool) (s : Store) (items : List Item) :
    ((outcomes newEdits s items).filter fun o => o.1.id = none) =
      (items.filter fun item => item.id = none).map fun item =>
        (item, (applyItem newEdits .empty item).1) := by
  induction items generalizing s with
  | nil => rfl
  | cons item items ih =>
    rw [outcomes_cons]
    cases hid : item.id with
    | some id => simpa [hid] using ih (applyItem newEdits s item).2
    | none =>
      have hresult : (applyItem newEdits s item).1 = (applyItem newEdits .empty item).1 := by
        unfold applyItem
        rw [hid]
      simpa [hid, hresult] using ih (applyItem newEdits s item).2

/-! ## Independence -/

section Reordered
variable (newEdits s) (h : Reorders Item.id items items')
include h

theorem Reorders.outcomes_of (id : String) :
    ((outcomes newEdits s items').filter fun o => o.1.id = some id) =
      (outcomes newEdits s items).filter fun o => o.1.id = some id := by
  have hleft := (outcomes_restrict newEdits (.refl s id) items').1
  have hright := (outcomes_restrict newEdits (.refl s id) items).1
  rw [hleft, hright, h.inOrder]

theorem Reorders.perm_outcomes : (outcomes newEdits s items').Perm (outcomes newEdits s items) := by
  refine perm_of_filter (f := fun o => o.1.id) fun key => ?_
  cases key with
  | some id => rw [h.outcomes_of newEdits s id]
  | none =>
    rw [outcomes_unaddressed, outcomes_unaddressed]
    exact (h.perm.filter _).map _

theorem Reorders.alike (id : String) :
    (applyAll newEdits s items').2.Alike (applyAll newEdits s items).2 id := by
  have hleft := (outcomes_restrict newEdits (.refl s id) items').2
  have hright := (outcomes_restrict newEdits (.refl s id) items).2
  rw [h.inOrder] at hleft
  exact hleft.trans hright.symm

end Reordered

/-- The items of a bulk write do not get in each other's way. -/
structure Independent (newEdits : Bool) (s : Store) (items : List Item) : Prop where
  /-- There is one result for each item, in order and under its id. -/
  ids : (applyAll newEdits s items).1.map (·.id) = items.map fun item => item.id.getD ""
  /-- Without the rejected items the others have the same results and lead to the same store. -/
  accepted :
    let accepted := (outcomes newEdits s items).filter (·.2.outcome.isOk)
    outcomes newEdits s (accepted.map (·.1)) = accepted ∧
      (applyAll newEdits s (accepted.map (·.1))).2 = (applyAll newEdits s items).2
  /-- In another order every item has the same result, also where the same item stands twice. -/
  reordered : ∀ items', Reorders Item.id items items' →
    (outcomes newEdits s items').Perm (outcomes newEdits s items) ∧
      ∀ id : String, ((outcomes newEdits s items').filter fun o => o.1.id = some id) =
        (outcomes newEdits s items).filter fun o => o.1.id = some id
  /-- In another order the items lead to the same documents, each with the same winners. -/
  converge : ∀ items', Reorders Item.id items items' →
    (applyAll newEdits s items').2.docs = (applyAll newEdits s items).2.docs ∧
      ∀ id, (applyAll newEdits s items').2.winnersOf id =
        (applyAll newEdits s items).2.winnersOf id

theorem independent (newEdits : Bool) (s : Store) (items : List Item) :
    Independent newEdits s items where
  ids := ids_applyAll newEdits s items
  accepted := outcomes_accepted newEdits s items
  reordered _ h := ⟨h.perm_outcomes newEdits s, h.outcomes_of newEdits s⟩
  converge _ h :=
    ⟨SortedMap.ext_get? fun id => (h.alike newEdits s id).tree?,
      fun id => (h.alike newEdits s id).winnersOf⟩

end Bulk

/-! ## The call -/

namespace Memory

variable {m : Memory} {cancelled : Bool} {name : String} {i : Nat} {db : Database} {o : Options}
  {flag : Option Bool}

theorem outcome_bulk (hfound : m.access cancelled name = .ok (i, db))
    (hflag : o.getBool "new_edits" = .ok flag) (edits : List Edit) :
    let newEdits := flag.getD true
    let (items, ids) := Bulk.assign newEdits edits m.ids
    let (results, s) := Bulk.applyAll newEdits db.store items
    (bulk cancelled name edits o).outcome m =
      (.ok results, { m with ids := ids }.setAt i (db.accept s)) := by
  have hstill : ∀ ids, { m with ids := ids : Memory }.access cancelled name = .ok (i, db) :=
    fun _ => hfound
  unfold bulk
  rw [hflag, Call.outcome_bind, Call.outcome_ofExcept]
  dsimp only
  rw [Call.outcome_bind, assign, Call.outcome_ofStep]
  dsimp only
  rw [outcome_write, hstill]

/-- A bulk write on any memory gives one result per edit, under the id of the edit or under the one
that it is given, the next of the supply. Whatever ids are given, its items are independent. If the
given ids are new, an edit without an id may change places with any other edit, and the others with
those that do not have their id. -/
theorem bulk_independent (hfound : m.access cancelled name = .ok (i, db))
    (hflag : o.getBool "new_edits" = .ok flag) (edits : List Edit) :
    let newEdits := flag.getD true
    let items := (Bulk.assign newEdits edits m.ids).1
    let drawn := m.ids.take (Bulk.draws newEdits edits)
    let called := (bulk cancelled name edits o).outcome m
    called.1 = .ok (Bulk.applyAll newEdits db.store items).1 ∧
      (∃ db', called.2.access cancelled name = .ok (i, db') ∧
        db'.store = (Bulk.applyAll newEdits db.store items).2) ∧
      List.Forall₂ (Bulk.Addresses newEdits) edits items ∧
      items.filterMap Bulk.Item.given? = drawn.1 ∧ called.2.ids = drawn.2 ∧
      (Bulk.Supplied newEdits db.store edits m.ids →
        Bulk.Assigned newEdits db.store edits items) ∧
      ∀ items, List.Forall₂ (Bulk.Addresses newEdits) edits items →
        Bulk.Independent newEdits db.store items ∧
          (Bulk.Assigned newEdits db.store edits items → Bulk.Movable newEdits edits items) := by
  intro newEdits items drawn called
  have hcalled : called = (.ok (Bulk.applyAll newEdits db.store items).1, _) :=
    outcome_bulk hfound hflag edits
  have hgiven : (items.filterMap Bulk.Item.given?, _) = drawn :=
    Bulk.given_assign newEdits edits m.ids
  obtain ⟨hlookup, hlive, hopen⟩ := access_eq_ok.1 hfound
  obtain ⟨hname, hdb⟩ := lookup_eq_ok.1 hlookup
  have haccess : called.2.access cancelled name =
      .ok (i, db.accept (Bulk.applyAll newEdits db.store items).2) := by
    rw [hcalled]
    refine access_eq_ok.2 ⟨lookup_eq_ok.2 ⟨hname, database_setAt hdb⟩, hlive, ?_⟩
    rw [Database.closed_accept, hopen]
  refine ⟨by rw [hcalled], ⟨_, haccess, Database.store_accept _ _⟩,
    Bulk.addresses_assign newEdits edits m.ids, congrArg Prod.fst hgiven, ?_,
    fun h => h.assigned, fun items _ => ⟨Bulk.independent _ _ items, fun h => h.movable⟩⟩
  rw [hcalled, ← hgiven]
  rfl

/-- Two edits of one document, the second of which is rejected, one of another document, and two
alike without an id. They lead to the same documents the other way around, the edits of the one
document being alike. -/
theorem bulk_turned_around :
    let m : Memory := ⟨[Database.create "d"], SortedMap.empty.insert "d" 0, .initial⟩
    let named := fun id => Edit.put id .emptyObject none
    let unnamed := { named "" with id := none }
    let edits := [named "a", named "a", named "b", unnamed, unnamed]
    let items := (Bulk.assign true edits m.ids).1
    m.access false "d" = .ok (0, .create "d") ∧ Options.empty.getBool "new_edits" = .ok none ∧
      Bulk.Supplied true .empty edits m.ids ∧
      ((bulk false "d" edits .empty).outcome m).1 = .ok (Bulk.applyAll true .empty items).1 ∧
      (Bulk.applyAll true .empty items).1.map (·.id) =
        ["a", "a", "b", "00000000000040008000000000000000", "00000000000040008000000000000001"] ∧
      Bulk.Reorders Edit.id edits edits.reverse ∧
      (Bulk.applyAll true .empty items.reverse).2.docs =
        (Bulk.applyAll true .empty items).2.docs := by
  intro m named unnamed edits items
  have hfound : m.access false "d" = .ok (0, .create "d") := rfl
  have hflag : Options.empty.getBool "new_edits" = .ok none := rfl
  have hsupplied : Bulk.Supplied true .empty edits m.ids := by
    have hnot : ∀ id ∈ (m.ids.take (Bulk.draws true edits)).1, some id ∉ edits.map Edit.id := by
      decide
    rintro id hid (hdoc | ⟨e, he, hnamed⟩)
    · cases hdoc
    · exact hnot id hid (List.mem_map.2 ⟨e, he, hnamed⟩)
  have hstore : (Database.create "d").store = .empty := rfl
  have hitems : (Bulk.assign true edits m.ids).1 = items := rfl
  have h := bulk_independent hfound hflag edits
  dsimp only [Option.getD_none] at h
  rw [hstore, hitems] at h
  obtain ⟨hcalled, -, haddressed, -, -, hassigned, hall⟩ := h
  obtain ⟨hindependent, hmovable⟩ := hall _ haddressed
  have hreversed : Bulk.Reorders Edit.id edits edits.reverse := by
    refine ⟨List.reverse_perm edits, fun id => ?_⟩
    rw [List.filter_reverse]
    by_cases ha : "a" = id
    · subst ha
      rfl
    by_cases hb : "b" = id
    · subst hb
      rfl
    · simp [edits, named, unnamed, Edit.put, ha, hb]
  have hmoved := (hmovable (hassigned hsupplied)).reorders _ items.reverse hreversed
    (List.rel_reverse haddressed) (List.reverse_perm _)
  have hdocs := (hindependent.converge _ hmoved).1
  refine ⟨hfound, hflag, hsupplied, hcalled, ?_, hreversed, hdocs⟩
  rw [hindependent.ids]
  decide

end Memory

end DocumentDb
