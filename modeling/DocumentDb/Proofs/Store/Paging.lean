import DocumentDb.Proofs.Store.Views

/-! # Reading all documents page by page

A client asks for pages of some size, each after the last id of the page before, and stops at the
first page that is not full. Other clients may write between its requests. A document never leaves
the store, so a document that a full page leaves out lies ahead of the page and is still there for
the next one; a page that is not full leaves out nothing.

* `Store.Pager`, `Store.Pager.options`: the requests, in terms of the options of an enumeration.
* `Store.Pager.page_eq`: a page is the beginning of the ids that lie ahead.
* `Store.Pager.walk`: a client that reads on while others write.
* `Store.paging_complete`: the ids that it sees.
-/

namespace DocumentDb.Store

/-- How a client reads all documents page by page. -/
structure Pager where
  /-- The number of documents on a full page. -/
  size : Nat
  descending : Bool
  includeDocs : Bool

namespace Pager

variable {p : Pager} {s : Store} {last : Option String} {stopped : Bool}

/-! ## Requests -/

/-- The options of the page that comes after an id, or of the first one. -/
def options (p : Pager) (last : Option String) : Options :=
  .ofList ([("limit", .nat p.size), ("descending", .bool p.descending),
    ("include_docs", .bool p.includeDocs)] ++
    match last with
    | none => []
    | some id => [("startkey", .string id), ("inclusive_start", .bool false)])

/-- The query of the page that comes after an id, or of the first one. -/
def query (p : Pager) (last : Option String) : ListingQuery where
  start := .ofKey false last
  stop := .unbounded
  limit := some p.size
  skip := 0
  descending := p.descending
  includeDocs := p.includeDocs

theorem ofOptions_options (p : Pager) (last : Option String) :
    ListingQuery.ofOptions (p.options last) = .ok (p.query last) := by
  have hget : ∀ key, (p.options last).get? key = Entries.get? key (_ : List (String × Json)) :=
    fun key => Entries.get?_ofList _ key
  unfold ListingQuery.ofOptions ListingQuery.keyOption Options.firstOf Options.flag
    Options.getBool Options.getNat
  cases last with
  | none =>
    simp [hget, Entries.get?_cons]
    rfl
  | some id =>
    simp [hget, Entries.get?_cons]
    rfl

/-- The ids on the page that comes after an id, or on the first one. -/
def page (p : Pager) (s : Store) (last : Option String) : List String :=
  (s.list (p.query last)).rows.map (·.id)

/-! ## One page -/

/-- An id comes after another one in the order of the pages. -/
def Ahead (p : Pager) (a b : String) : Prop := if p.descending then b < a else a < b

/-- An id comes after the last one that has been seen, if any has. -/
def Beyond (p : Pager) (last : Option String) (id : String) : Prop :=
  ∀ a, last = some a → p.Ahead a id

/-- The documents after an id in the order of the pages. -/
def remaining (p : Pager) (s : Store) (last : Option String) : List (String × RevTree) :=
  if p.descending then (s.range .unbounded (.ofKey false last)).reverse
  else s.range (.ofKey false last) .unbounded

theorem Ahead.trans {a b c : String} (h : p.Ahead a b) (h' : p.Ahead b c) : p.Ahead a c := by
  unfold Ahead at *
  split
  · next hd =>
    rw [if_pos hd] at h h'
    exact String.lt_trans h' h
  · next hd =>
    rw [if_neg hd] at h h'
    exact String.lt_trans h h'

theorem Beyond.trans {a b : String} (h : p.Beyond last a) (h' : p.Ahead a b) : p.Beyond last b :=
  fun c hc => (h c hc).trans h'

theorem admitsAbove_ofKey {id : String} :
    (Bound.ofKey false last).admitsAbove id = true ↔ ∀ a, last = some a → a < id := by
  cases last with
  | none => simp [Bound.ofKey, Bound.admitsAbove]
  | some a =>
    simp only [Bound.ofKey, Bool.false_eq_true, if_false, Bound.admitsAbove,
      Ordering.isLT_iff_eq_lt, Option.some.injEq, forall_eq']
    exact compareOfLessAndEq_eq_lt

theorem admitsBelow_ofKey {id : String} :
    (Bound.ofKey false last).admitsBelow id = true ↔ ∀ a, last = some a → id < a := by
  cases last with
  | none => simp [Bound.ofKey, Bound.admitsBelow]
  | some a =>
    simp only [Bound.ofKey, Bool.false_eq_true, if_false, Bound.admitsBelow,
      Ordering.isLT_iff_eq_lt, Option.some.injEq, forall_eq']
    exact compareOfLessAndEq_eq_lt

theorem mem_remaining {doc : String × RevTree} :
    doc ∈ p.remaining s last ↔ s.tree? doc.1 = some doc.2 ∧ p.Beyond last doc.1 := by
  unfold remaining Beyond Ahead range
  cases p.descending with
  | true =>
    simp only [if_true, List.mem_reverse, List.mem_filter, mem_toList, Bool.and_eq_true,
      admitsBelow_ofKey, Bound.admitsAbove, true_and]
  | false =>
    simp only [Bool.false_eq_true, if_false, List.mem_filter, mem_toList, Bool.and_eq_true,
      admitsAbove_ofKey, Bound.admitsBelow, and_true]

theorem pairwise_remaining (p : Pager) (s : Store) (last : Option String) :
    (p.remaining s last).Pairwise fun a b => p.Ahead a.1 b.1 := by
  have hrange : ∀ low high, (s.range low high).Pairwise fun a b => a.1 < b.1 := by
    intro low high
    refine (List.Pairwise.filter _ s.docs.ordered).imp fun {a b} h => ?_
    exact compareOfLessAndEq_eq_lt.1 h
  unfold remaining Ahead
  cases p.descending with
  | true => exact List.pairwise_reverse.2 (hrange _ _)
  | false => exact hrange _ _

theorem rows_query (p : Pager) (s : Store) (last : Option String) :
    (s.list (p.query last)).rows =
      ((p.remaining s last).take p.size).filterMap (row? p.includeDocs) := by
  have hrange : (p.query last).keyRange =
      some (if p.descending then (.unbounded, .ofKey false last)
        else (.ofKey false last, .unbounded)) := by
    unfold ListingQuery.keyRange query
    cases p.descending <;> cases last <;> rfl
  unfold list
  rw [hrange]
  unfold remaining query
  cases p.descending <;> rfl

/-- A page is the beginning of the ids that come after the last one. -/
theorem page_eq (hs : s.Sound) (last : Option String) :
    p.page s last = ((p.remaining s last).map (·.1)).take p.size := by
  unfold page
  rw [rows_query, hs.ids_rows, List.map_take]
  intro doc hdoc
  exact mem_toList.2 (mem_remaining.1 (List.mem_of_mem_take hdoc)).1

/-! ## The ids on one page -/

/-- What a client that starts after an id sees of a store: every id once and in order, and, if it
has stopped, all that come after that id. -/
structure Covers (p : Pager) (s : Store) (last : Option String) (seen : List String)
    (stopped : Bool) : Prop where
  ordered : seen.Pairwise p.Ahead
  beyond : ∀ id ∈ seen, p.Beyond last id
  complete : stopped = true → ∀ id, s.docs.contains id = true → p.Beyond last id → id ∈ seen

theorem mem_ids {id : String} :
    id ∈ (p.remaining s last).map (·.1) ↔ s.docs.contains id = true ∧ p.Beyond last id := by
  rw [List.mem_map]
  constructor
  · rintro ⟨doc, hdoc, rfl⟩
    obtain ⟨htree, hbeyond⟩ := mem_remaining.1 hdoc
    exact ⟨contains_docs.2 ⟨doc.2, htree⟩, hbeyond⟩
  · rintro ⟨hcontains, hbeyond⟩
    obtain ⟨t, ht⟩ := contains_docs.1 hcontains
    exact ⟨(id, t), mem_remaining.2 ⟨ht, hbeyond⟩, rfl⟩

theorem pairwise_ids : ((p.remaining s last).map (·.1)).Pairwise p.Ahead :=
  List.pairwise_map.2 (p.pairwise_remaining s last)

theorem covers_page (hs : s.Sound) (hfull : stopped = true → (p.page s last).length < p.size) :
    p.Covers s last (p.page s last) stopped := by
  rw [page_eq hs] at hfull ⊢
  refine ⟨pairwise_ids.sublist (List.take_sublist _ _), fun id hid => ?_, fun h id hid hlast => ?_⟩
  · exact (mem_ids.1 (List.mem_of_mem_take hid)).2
  · have hshort := hfull h
    rw [List.length_take] at hshort
    rw [List.take_of_length_le (by omega)]
    exact mem_ids.2 ⟨hid, hlast⟩

/-- What a full page leaves out comes after its last id. -/
theorem ahead_of_not_mem_page (hs : s.Sound) {id k : String}
    (hk : (p.page s last).getLast? = some k) (hid : s.docs.contains id = true)
    (hlast : p.Beyond last id) (hpage : id ∉ p.page s last) :
    p.Ahead k id := by
  rw [page_eq hs] at hk hpage
  have hall := @pairwise_ids p s last
  have hmem := mem_ids.2 ⟨hid, hlast⟩
  rw [← List.take_append_drop p.size ((p.remaining s last).map (·.1))] at hall hmem
  have hdrop := (List.mem_append.1 hmem).resolve_left hpage
  exact (List.pairwise_append.1 hall).2.2 k (List.mem_of_getLast? hk) id hdrop

/-! ## Page after page -/

theorem eq_or_ahead_getLast {ids : List String} {a k : String} (h : ids.Pairwise p.Ahead)
    (hk : ids.getLast? = some k) (ha : a ∈ ids) : a = k ∨ p.Ahead a k := by
  obtain ⟨init, rfl⟩ := List.getLast?_eq_some_iff.1 hk
  rcases List.mem_append.1 ha with ha | ha
  · exact .inr ((List.pairwise_append.1 h).2.2 a ha k (List.mem_singleton_self k))
  · exact .inl (List.mem_singleton.1 ha)

/-- A full page goes before what a client sees that starts after its last id, on a store that has
not lost any document in between. -/
theorem Covers.append {s' : Store} {k : String} {seen : List String} (hs : s.Sound)
    (hgrows : s.Grows s') (hk : (p.page s last).getLast? = some k)
    (h : p.Covers s' (some k) seen stopped) :
    p.Covers s last (p.page s last ++ seen) stopped := by
  have hpage : p.Covers s last (p.page s last) false := covers_page hs (by simp)
  have hlast : p.Beyond last k := hpage.beyond k (List.mem_of_getLast? hk)
  refine ⟨List.pairwise_append.2 ⟨hpage.ordered, h.ordered, fun a ha b hb => ?_⟩,
    fun id hid => ?_, fun hstopped id hid hbeyond => ?_⟩
  · have hkb : p.Ahead k b := h.beyond b hb k rfl
    obtain rfl | hak := eq_or_ahead_getLast hpage.ordered hk ha
    · exact hkb
    · exact hak.trans hkb
  · rcases List.mem_append.1 hid with hid | hid
    · exact hpage.beyond id hid
    · exact hlast.trans (h.beyond id hid k rfl)
  · by_cases hmem : id ∈ p.page s last
    · exact List.mem_append_left _ hmem
    · -- The page has left the document out, so the next ones find it where it was.
      have hkid : p.Ahead k id := ahead_of_not_mem_page hs hk hid hbeyond hmem
      obtain ⟨t, ht⟩ := contains_docs.1 hid
      obtain ⟨t', ht', -⟩ := hgrows id t ht
      have hid' : s'.docs.contains id = true := contains_docs.2 ⟨t', ht'⟩
      refine List.mem_append_right _ (h.complete hstopped id hid' fun a ha => ?_)
      rwa [← Option.some.inj ha]

/-- The ids that a client sees from an id on, and whether it has stopped at a page that is not full.
Some writes run before each of the pages that follow. -/
def walk (p : Pager) (s : Store) (last : Option String) : List (List Write) → List String × Bool
  | [] => (p.page s last, (p.page s last).length < p.size)
  | ws :: wss =>
    if (p.page s last).length < p.size then (p.page s last, true)
    else
      let (seen, stopped) := p.walk (s.after ws) (p.page s last).getLast? wss
      (p.page s last ++ seen, stopped)

theorem covers_walk (hsize : 0 < p.size) (hs : s.Sound) (wss : List (List Write)) :
    p.Covers s last (p.walk s last wss).1 (p.walk s last wss).2 := by
  induction wss generalizing s last with
  | nil => exact covers_page hs of_decide_eq_true
  | cons ws wss ih =>
    unfold walk
    split
    · next hshort => exact covers_page hs fun _ => hshort
    · next hfull =>
      have hne : p.page s last ≠ [] := fun h => hfull (by rw [h]; exact hsize)
      have hk := List.getLast?_eq_some_getLast hne
      rw [hk]
      exact (ih (hs.after ws)).append hs (grows_after s ws) hk

end Pager

/-- A client reads all documents of a store in pages of some positive size, upwards or downwards,
each after the last id of the page before, and stops at the first page that is not full, while any
writes run between its pages: it sees the ids in strict order, so none of them twice, and if it has
stopped it has seen every document that was there when it read its first page. -/
theorem paging_complete (ws : List Write) {p : Pager} (hsize : 0 < p.size)
    (wss : List (List Write)) :
    let s := empty.after ws
    let walk := p.walk s none wss
    (∀ last, ListingQuery.ofOptions (p.options last) = .ok (p.query last)) ∧
      walk.1.Pairwise (fun a b => if p.descending then b < a else a < b) ∧
      (walk.2 = true → ∀ id, s.docs.contains id = true → id ∈ walk.1) := by
  intro s walk
  have h : p.Covers s none walk.1 walk.2 := Pager.covers_walk hsize (sound_after ws) wss
  exact ⟨p.ofOptions_options, h.ordered, fun hstopped id hid =>
    h.complete hstopped id hid fun a ha => nomatch ha⟩

/-- Pages of two documents, downwards, while documents are added on both sides of the client and one
that it has not seen yet is deleted. -/
theorem downwards_while_written :
    let doc := fun id => Write.graft id [⟨1, "x"⟩] false .emptyObject
    let p : Pager := ⟨2, true, false⟩
    let ws := ["a", "b", "c", "d"].map doc
    let gone := Write.graft "a" [⟨2, "y"⟩, ⟨1, "x"⟩] true .emptyObject
    let wss := [[doc "e", doc "bb", gone], [doc "bc"], []]
    0 < p.size ∧ p.walk (empty.after ws) none wss = (["d", "c", "bb", "b", "a"], true) ∧
      ∀ id, (empty.after ws).docs.contains id = true → id ∈ ["d", "c", "bb", "b", "a"] := by
  intro doc p ws gone wss
  have hwalk : p.walk (empty.after ws) none wss = (["d", "c", "bb", "b", "a"], true) := by
    decide +kernel
  have h := (paging_complete ws (p := p) (by decide) wss).2.2
  rw [hwalk] at h
  exact ⟨by decide, hwalk, h rfl⟩

end DocumentDb.Store
