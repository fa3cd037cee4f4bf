import DocumentDb.Proofs.Store.Log

/-! # What a store says about its documents

The log, the enumeration, the look-up of a document and the counters are read off different parts
of a store. In every store that writes can build they tell the same.

* `Store.Shows`, `Store.Sound.shows`: what the views of one document agree on.
* `Store.Sound.ids_list`, `Store.Sound.info_eq`: the enumeration has a row for every document, and
  the counters count these rows.
* `Store.views_agree`: all of it after any writes.
-/

namespace DocumentDb.Store

/-! ## Rows -/

/-- The query for all documents in ascending order. -/
def everything (includeDocs : Bool) : ListingQuery := { ListingQuery.all with includeDocs }

theorem row?_eq {doc : String × RevTree} {w : Revision} {node : RevTree.Node}
    (h : doc.2.winning = some (w, node)) (includeDocs : Bool) :
    row? includeDocs doc =
      some ⟨doc.1, w, node.deleted, if includeDocs then node.body else none⟩ := by
  rw [row?, h]
  rfl

theorem id_of_row? {includeDocs : Bool} {doc : String × RevTree} {row : Row}
    (h : row? includeDocs doc = some row) : row.id = doc.1 := by
  obtain ⟨⟨w, node⟩, -, rfl⟩ := Option.map_eq_some_iff.1 h
  rfl

theorem mem_toList {s : Store} {doc : String × RevTree} :
    doc ∈ s.docs.toList ↔ s.tree? doc.1 = some doc.2 := (s.docs.get?_eq_some_iff).symm

theorem mem_rows {s : Store} {q : ListingQuery} {row : Row} (h : row ∈ (s.list q).rows) :
    ∃ t, s.tree? row.id = some t ∧ row? q.includeDocs (row.id, t) = some row := by
  unfold list at h
  split at h
  · cases h
  · next low high _ =>
    obtain ⟨⟨id, t⟩, hmem, hrow⟩ := List.mem_filterMap.1 h
    have hid : row.id = id := id_of_row? hrow
    have hfound : (id, t) ∈ s.range low high := by
      have hdrop := List.mem_of_mem_drop ((prefix_atMost q.limit _).subset hmem)
      split at hdrop
      · exact List.mem_reverse.1 hdrop
      · exact hdrop
    refine ⟨t, ?_, by rw [hid]; exact hrow⟩
    rw [hid]
    exact mem_toList.1 (List.mem_of_mem_filter hfound)

theorem rows_everything (s : Store) (includeDocs : Bool) :
    (s.list (everything includeDocs)).rows = s.docs.toList.filterMap (row? includeDocs) := by
  have hrange : s.range .unbounded .unbounded = s.docs.toList :=
    List.filter_eq_self.2 fun d _ => rfl
  show ((s.range .unbounded .unbounded).drop 0).filterMap (row? includeDocs) = _
  rw [hrange, List.drop_zero]

/-! ## The views -/

/-- All views of a document show the same winner, flag and body. -/
structure Shows (s : Store) (id : String) (t : RevTree) (w : Revision) (deleted : Bool)
    (body : Json) : Prop where
  tree : ∃ node, t.winning = some (w, node) ∧ node.deleted = deleted ∧ node.body = some body
  log : ∃ e, (s.logOf id).getLast? = some e ∧ e.rev = w ∧ e.deleted = deleted
  row : ∀ q row, row ∈ (s.list q).rows → row.id = id →
    row = ⟨id, w, deleted, if q.includeDocs then some body else none⟩
  get : ∀ conflicts, s.get id none conflicts =
    if deleted then .error .deleted
    else .ok ⟨id, w, false, body, if conflicts then t.conflicts else []⟩

section
variable {s : Store}

theorem get_none {id : String} {t : RevTree} {w : Revision} {node : RevTree.Node} {body : Json}
    (ht : s.tree? id = some t) (hwin : t.winning = some (w, node)) (hbody : node.body = some body)
    (conflicts : Bool) :
    s.get id none conflicts =
      if node.deleted then .error .deleted
      else .ok ⟨id, w, false, body, if conflicts then t.conflicts else []⟩ := by
  cases hd : node.deleted with
  | true => simp [get, select, ht, hwin, hd, bind, Except.bind]
  | false => simp [get, select, ht, hwin, hd, hbody, bind, Except.bind, pure, Except.pure]

theorem Sound.shows (hs : s.Sound) (hl : s.Logged) {id : String} {t : RevTree}
    (ht : s.tree? id = some t) : ∃ w deleted body, s.Shows id t w deleted body := by
  obtain ⟨w, node, body, hwin, hbody⟩ := hs.winning ht
  refine ⟨w, node.deleted, body, ⟨node, hwin, rfl, hbody⟩, hl.last ht hwin, ?_,
    get_none ht hwin hbody⟩
  intro q row hrow hid
  obtain ⟨u, hu, heq⟩ := mem_rows hrow
  rw [hid, ht] at hu
  cases hu
  have hrow := @row?_eq (id, t) w node hwin q.includeDocs
  rw [hid, hrow, hbody] at heq
  exact (Option.some.inj heq).symm

theorem Logged.exists_entry_iff (hl : s.Logged) (hs : s.Sound) (id : String) :
    (∃ e ∈ s.log, e.id = id) ↔ s.docs.contains id = true := by
  constructor
  · rintro ⟨e, he, rfl⟩
    obtain ⟨t, ht, -⟩ := hl.known he
    exact Option.isSome_iff_exists.2 ⟨t, ht⟩
  · intro h
    obtain ⟨t, ht⟩ := Option.isSome_iff_exists.1 h
    obtain ⟨w, node, body, hwin, -⟩ := hs.winning ht
    obtain ⟨e, he, -⟩ := hl.last ht hwin
    exact ⟨e, mem_logOf.1 (List.mem_of_getLast? he)⟩

theorem Sound.exists_winning (hs : s.Sound) {doc : String × RevTree} (h : doc ∈ s.docs.toList) :
    ∃ w node, doc.2.winning = some (w, node) := by
  obtain ⟨w, node, body, hwin, -⟩ := hs.winning (mem_toList.1 h)
  exact ⟨w, node, hwin⟩

theorem Sound.ids_rows (hs : s.Sound) {docs : List (String × RevTree)}
    (h : ∀ doc ∈ docs, doc ∈ s.docs.toList) (includeDocs : Bool) :
    (docs.filterMap (row? includeDocs)).map (·.id) = docs.map (·.1) := by
  rw [List.map_filterMap, ← List.filterMap_eq_map]
  apply List.filterMap_congr
  intro doc hdoc
  obtain ⟨w, node, hwin⟩ := hs.exists_winning (h doc hdoc)
  rw [row?_eq hwin]
  rfl

theorem Sound.ids_list (hs : s.Sound) (includeDocs : Bool) :
    (s.list (everything includeDocs)).rows.map (·.id) = s.docs.keys := by
  rw [rows_everything, hs.ids_rows (fun _ h => h), SortedMap.keys]

theorem Sound.countP_rows (hs : s.Sound) (includeDocs : Bool) (p : Bool → Bool) :
    ((s.list (everything includeDocs)).rows.countP fun row => p row.deleted) =
      s.docs.values.countP fun t => p t.isDeleted := by
  rw [rows_everything, List.countP_filterMap, SortedMap.values, List.countP_map]
  apply List.countP_congr
  intro doc hdoc
  obtain ⟨w, node, hwin⟩ := hs.exists_winning hdoc
  rw [row?_eq hwin]
  simp [RevTree.isDeleted_eq hwin]

theorem Sound.info_eq (hs : s.Sound) (name : String) (includeDocs : Bool) :
    s.info name =
      ⟨name, (s.list (everything includeDocs)).rows.countP (!·.deleted),
        (s.list (everything includeDocs)).rows.countP (·.deleted), s.updateSeq⟩ := by
  have hlive := hs.countP_rows includeDocs (!·)
  have hdeleted := hs.countP_rows includeDocs id
  have hsize : s.size = s.docs.values.countP RevTree.isDeleted +
      s.docs.values.countP fun t => !t.isDeleted := by
    have h := s.docs.values.length_eq_countP_add_countP RevTree.isDeleted
    rw [SortedMap.values, List.length_map] at h
    simpa [size, SortedMap.size, SortedMap.values] using h
  simp only [id] at hdeleted
  rw [hlive, hdeleted, info, hsize, Nat.add_sub_cancel_left]

end

/-- After any writes to the empty store, refused ones included: the log numbers its entries from
one on; it knows exactly the documents of the store; the revisions that it lists for a document
ascend; all views of a document show the same winner, flag and body; every document has a row; and
the counters count the live and the deleted rows. -/
theorem views_agree (ws : List Write) :
    let s := empty.after ws
    s.log.map (·.seq) = List.range' 1 s.updateSeq ∧
    (∀ id, (∃ e ∈ s.log, e.id = id) ↔ s.docs.contains id = true) ∧
    (∀ id, (s.logOf id).Pairwise fun a b => a.rev < b.rev) ∧
    (∀ id t, s.tree? id = some t → ∃ w deleted body, s.Shows id t w deleted body) ∧
    (∀ includeDocs, (s.list (everything includeDocs)).rows.map (·.id) = s.docs.keys) ∧
    ∀ name includeDocs, s.info name =
      ⟨name, (s.list (everything includeDocs)).rows.countP (!·.deleted),
        (s.list (everything includeDocs)).rows.countP (·.deleted), s.updateSeq⟩ := by
  intro s
  have hs : s.Sound := sound_after ws
  have hl : s.Logged := logged_after ws
  exact ⟨hl.numbers, hl.exists_entry_iff hs, hl.ascending, fun id t => hs.shows hl, hs.ids_list,
    hs.info_eq⟩

end DocumentDb.Store
