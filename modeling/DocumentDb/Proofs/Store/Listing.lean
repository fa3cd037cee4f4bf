import DocumentDb.Proofs.Options.KeyRange
import DocumentDb.Proofs.Store.Views

/-! # What an enumeration lists

The rows of an enumeration are made after its page has been cut out of the documents, and a document
without a winner would make no row. Every document that writes can build has a winner, so there is a
row for each id on the page.

* `Store.RowOf`: the row of a document.
* `Store.selected`, `Store.list_eq`: the documents that a query selects, and the enumeration in
  terms of them.
* `Store.page_eq`: the ids on the page of a query.
* `Store.listing_exact`: the enumeration that any query gets from any store that writes can build.
-/

namespace DocumentDb.Store

/-- A row tells the winner of a document, its flag and, where it is asked for, its body. -/
def RowOf (s : Store) (includeDocs : Bool) (id : String) (row : Row) : Prop :=
  ∃ t node body, s.tree? id = some t ∧ t.winner = some row.rev ∧ t.get? row.rev = some node ∧
    node.body = some body ∧
    row = ⟨id, row.rev, node.deleted, if includeDocs then some body else none⟩

/-- The documents that a query selects, in the order of the listing. -/
def selected (s : Store) (q : ListingQuery) : List (String × RevTree) :=
  let docs := s.docs.toList.filter fun doc => q.Selects doc.1
  if q.descending then docs.reverse else docs

variable {s : Store} {q : ListingQuery}

theorem range_eq {low high : Bound} (h : q.keyRange = some (low, high)) :
    s.range low high = s.docs.toList.filter fun doc => q.Selects doc.1 := by
  unfold range
  apply List.filter_congr
  intro doc _
  rw [Bool.eq_iff_iff, Bool.and_eq_true, decide_eq_true_eq, ListingQuery.selects_iff h]

theorem selected_eq_nil (h : q.keyRange = none) : s.selected q = [] := by
  have hnone : (s.docs.toList.filter fun doc => q.Selects doc.1) = [] :=
    List.filter_eq_nil_iff.2 fun doc _ => by simpa using ListingQuery.not_selects h
  simp [selected, hnone]

theorem list_eq (s : Store) (q : ListingQuery) :
    s.list q = ⟨s.size, q.skip,
      (atMost q.limit ((s.selected q).drop q.skip)).filterMap (row? q.includeDocs)⟩ := by
  unfold list
  split
  · next h =>
    rw [selected_eq_nil h]
    cases q.limit <;> simp [atMost]
  · next low high h =>
    rw [range_eq h]
    rfl

/-- The page of a query out of all ids has the ids of the documents that are listed. -/
theorem page_eq (s : Store) (q : ListingQuery) :
    q.page s.docs.keys = (atMost q.limit ((s.selected q).drop q.skip)).map (·.1) := by
  have hselected : (s.selected q).map (·.1) =
      (if q.descending then s.docs.keys.reverse else s.docs.keys).filter fun id => q.Selects id := by
    unfold selected SortedMap.keys
    cases q.descending with
    | true => simp [List.filter_map, List.filter_reverse, Function.comp_def]
    | false => simp [List.filter_map, Function.comp_def]
  unfold ListingQuery.page atMost
  dsimp only
  rw [← hselected]
  cases q.limit <;> simp [List.map_drop, List.map_take]

theorem Sound.rowOf (hs : s.Sound) {doc : String × RevTree} (h : doc ∈ s.docs.toList)
    (includeDocs : Bool) :
    ∃ row, row? includeDocs doc = some row ∧ s.RowOf includeDocs doc.1 row := by
  have ht : s.tree? doc.1 = some doc.2 := mem_toList.1 h
  obtain ⟨w, node, body, hwin, hbody⟩ := hs.winning ht
  obtain ⟨hw, hnode⟩ := RevTree.winning_eq_some.1 hwin
  exact ⟨_, row?_eq hwin includeDocs, doc.2, node, body, ht, hw, hnode, hbody, by rw [hbody]⟩

/-- No document of a list is passed over for want of a winner. -/
theorem Sound.rowsOf (hs : s.Sound) {docs : List (String × RevTree)}
    (h : ∀ doc ∈ docs, doc ∈ s.docs.toList) (includeDocs : Bool) :
    List.Forall₂ (s.RowOf includeDocs) (docs.map (·.1)) (docs.filterMap (row? includeDocs)) := by
  induction docs with
  | nil => exact .nil
  | cons doc docs ih =>
    obtain ⟨row, hrow, hrowOf⟩ := hs.rowOf (h doc List.mem_cons_self) includeDocs
    rw [List.map_cons, List.filterMap_cons_some hrow]
    exact .cons hrowOf (ih fun other hother => h other (List.mem_cons_of_mem doc hother))

theorem mem_of_mem_selected {doc : String × RevTree} (h : doc ∈ s.selected q) :
    doc ∈ s.docs.toList := by
  unfold selected at h
  split at h
  · exact List.mem_of_mem_filter (List.mem_reverse.1 h)
  · exact List.mem_of_mem_filter h

/-- After any writes to the empty store, refused ones included, whatever an enumeration is asked
for: with the ids of all documents in the order of their bytes, it has one row for each id on the
page that the query asks for, in this order, with the winner of the document, its flag and its body;
it counts all documents; and the range of keys that it asks for is one that a sorted map has. -/
theorem listing_exact (ws : List Write) (q : ListingQuery) :
    let s := empty.after ws
    let ids := s.docs.keys
    (ids.Pairwise Utf8.Before ∧ ∀ id, id ∈ ids ↔ ∃ t, s.tree? id = some t) ∧
    List.Forall₂ (s.RowOf q.includeDocs) (q.page ids) (s.list q).rows ∧
    (s.list q).totalRows = ids.length ∧ (s.list q).offset = q.skip ∧
    ∀ low high, q.keyRange = some (low, high) → low.Orderly high := by
  intro s ids
  have hs : s.Sound := sound_after ws
  refine ⟨⟨?_, fun id => s.docs.mem_keys⟩, ?_, ?_, ?_, fun low high h => ?_⟩
  · exact s.docs.pairwise_keys.imp fun h => Utf8.before_iff.2 (compare_string_eq_lt.1 h)
  · rw [page_eq, list_eq]
    refine hs.rowsOf (fun doc hdoc => ?_) q.includeDocs
    exact mem_of_mem_selected (List.mem_of_mem_drop ((prefix_atMost q.limit _).subset hdoc))
  · rw [list_eq]
    exact (List.length_map _).symm
  · rw [list_eq]
  · exact Bound.orderly_of_not_crossed (ListingQuery.ends_of_keyRange h).2

/-- Downwards from below `c` to `a`, without the first one. -/
example :
    let s := empty.after (["a", "b", "c"].map fun id => .graft id [⟨1, "r"⟩] false .emptyObject)
    let q : ListingQuery := ⟨.excluded "c", .included "a", none, 1, true, false⟩
    q.page s.docs.keys = ["a"] ∧ (s.list q).rows.map (·.id) = ["a"] := by
  decide +kernel

end DocumentDb.Store
