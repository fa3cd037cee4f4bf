import DocumentDb.Proofs.Document.RoundTrip
import DocumentDb.Proofs.Store.Grafts

/-! # The documents that ask for an edit

A document asks for an edit exactly if it is an object whose special members are as they should be.
The history that it lists goes down from its start by one generation at a time and ends above zero,
so the edit can always be grafted as soon as it has a revision.

* `Edit.Ancestry.Spells`: the values that list a history.
* `Edit.WellFormed`, `Edit.exists_ofMembers_iff`: the members of a document that asks for an edit.
* `Edit.Asks`, `Edit.Reading.asks`: the edit that it asks for.
* `Edit.contiguous_history`, `Edit.Reading.apply_accepted_iff`: the history has no gaps, and when a
  store grafts it.
* `Edit.accepted_exactly`: all of this for every value.
-/

namespace DocumentDb.Edit

/-! ## Listed histories -/

namespace Ancestry

/-- A value lists a history by its start and its hashes: an object with these two members, whatever
else it has, or an array of the two. -/
inductive Spells (start : Nat) (ids : List String) : Json → Prop where
  | members {entries : List (String × Json)}
      (hstart : Entries.get? "start" entries = some (.nat start))
      (hids : Entries.get? "ids" entries = some (.strings ids)) :
      Spells start ids (.members entries)
  | items : Spells start ids (.array [.nat start, .strings ids])

theorem mapM_readHash_eq_ok {items : List Json} {ids : List String} :
    items.mapM readHash = .ok ids ↔ items = ids.map Json.string := by
  induction items generalizing ids with
  | nil => cases ids <;> simp [pure, Except.pure]
  | cons v items ih =>
    rw [List.mapM_cons, Except.bind_eq_ok]
    have hread : ∀ hash, readHash v = .ok hash ↔ v = .string hash := by
      intro hash
      cases v <;> simp [readHash]
    have hrest : ∀ hash, ((items.mapM readHash >>= fun more => pure (hash :: more)) = .ok ids) ↔
        ∃ more, items = more.map Json.string ∧ hash :: more = ids := by
      intro hash
      rw [Except.bind_eq_ok]
      simp only [ih, pure, Except.pure, Except.ok.injEq]
    simp only [hread, hrest]
    constructor
    · rintro ⟨hash, rfl, more, rfl, rfl⟩
      rfl
    · intro h
      cases ids with
      | nil => cases h
      | cons hash more =>
        obtain ⟨rfl, rfl⟩ := List.cons.inj h
        exact ⟨hash, rfl, more, rfl, rfl⟩

theorem readIds_eq_ok {v : Json} {ids : List String} : readIds v = .ok ids ↔ v = .strings ids := by
  unfold Json.strings
  cases v with
  | array items => simp [readIds, mapM_readHash_eq_ok]
  | null | bool | number | string | members => simp [readIds]

theorem readStart_eq_ok_iff {v : Json} {n : Nat} : readStart v = .ok n ↔ v = .nat n :=
  ⟨readStart_eq_ok, fun h => by rw [h]; rfl⟩

theorem present_eq_ok {α : Type} {name : String} {o : Option α} {a : α} :
    present name o = .ok a ↔ o = some a := by
  cases o <;> simp [present]

theorem mapM_eq_ok_some {α : Type} {read : Json → Except String α} {o : Option Json} {a : α} :
    o.mapM read = .ok (some a) ↔ ∃ v, o = some v ∧ read v = .ok a := by
  cases o with
  | none =>
    constructor
    · rintro ⟨⟩
    · rintro ⟨_, ⟨⟩, _⟩
  | some v =>
    simp only [Option.some.injEq, exists_eq_left']
    show (read v).map some = .ok (some a) ↔ _
    cases read v <;> simp [Except.map]

theorem readMembers_eq_ok {entries : List (String × Json)} {a : Ancestry} :
    readMembers entries = .ok a ↔ Spells a.start a.ids (.members entries) := by
  have hparts : readMembers entries = .ok a ↔
      (Entries.get? "ids" entries).mapM readIds = .ok (some a.ids) ∧
        (Entries.get? "start" entries).mapM readStart = .ok (some a.start) := by
    unfold readMembers
    obtain ⟨start, ids⟩ := a
    simp only [Except.bind_eq_ok, present_eq_ok, pure, Except.pure, Except.ok.injEq, mk.injEq]
    constructor
    · rintro ⟨_, hids, _, hstart, n, rfl, hashes, rfl, rfl, rfl⟩
      exact ⟨hids, hstart⟩
    · rintro ⟨hids, hstart⟩
      exact ⟨_, hids, _, hstart, start, rfl, ids, rfl, rfl, rfl⟩
  simp only [hparts, mapM_eq_ok_some, readIds_eq_ok, readStart_eq_ok_iff, exists_eq_right]
  constructor
  · rintro ⟨hids, hstart⟩
    exact .members hstart hids
  · rintro (⟨hstart, hids⟩ | _)
    exact ⟨hids, hstart⟩

theorem readItems_eq_ok {items : List Json} {a : Ancestry} :
    readItems items = .ok a ↔ Spells a.start a.ids (.array items) := by
  have hspells : Spells a.start a.ids (.array items) ↔
      items = [.nat a.start, .strings a.ids] := by
    constructor
    · rintro ⟨⟩
      rfl
    · rintro rfl
      exact .items
  rw [hspells]
  obtain ⟨start, ids⟩ := a
  match items with
  | [] => simp [readItems]
  | [v] => simp [readItems, Except.bind_eq_ok]
  | [v, w] =>
    simp only [readItems, Except.bind_eq_ok, readStart_eq_ok_iff, readIds_eq_ok, List.isEmpty_nil,
      if_true, pure, Except.pure, Except.ok.injEq, mk.injEq, List.cons.injEq, and_true]
    constructor
    · rintro ⟨n, rfl, hashes, rfl, rfl, rfl⟩
      exact ⟨rfl, rfl⟩
    · rintro ⟨rfl, rfl⟩
      exact ⟨start, rfl, ids, rfl, rfl, rfl⟩
  | v :: w :: x :: more => simp [readItems, Except.bind_eq_ok]

/-- The values that are read as a history are those that list it. -/
theorem read_eq_ok {v : Json} {a : Ancestry} : read v = .ok a ↔ Spells a.start a.ids v := by
  cases v with
  | members entries => exact readMembers_eq_ok
  | array items => exact readItems_eq_ok
  | null | bool | number | string =>
    constructor
    · intro h
      cases h
    · intro h
      cases h

theorem descend_eq_mapIdx {n : Nat} {hashes : List String} :
    descend n hashes = hashes.mapIdx fun i hash => ⟨n - i, hash⟩ := by
  induction hashes generalizing n with
  | nil => rfl
  | cons hash older ih =>
    rw [descend, ih, List.mapIdx_cons]
    congr 1
    refine List.mapIdx_eq_mapIdx_iff.2 fun i hi => ?_
    rw [Nat.sub_sub, Nat.add_comm 1 i]

/-- The generations of a history that is no longer than its start says go down without a gap. -/
theorem contiguous_descend {n : Nat} {hashes : List String} (hlen : hashes.length ≤ n)
    (hmax : n ≤ Numeral.max64) : RevTree.Contiguous (descend n hashes) := by
  unfold RevTree.Contiguous
  induction hashes generalizing n with
  | nil => exact .nil
  | cons hash older ih =>
    rw [List.length_cons] at hlen
    have hrest := ih (n := n - 1) (by omega) (by omega)
    cases older with
    | nil => exact .singleton _
    | cons next older =>
      rw [List.length_cons] at hlen
      have hnext : Revision.nextGeneration ⟨n - 1, next⟩ = .ok n :=
        Revision.nextGeneration_eq_ok.2 ⟨by dsimp only; omega, by dsimp only; omega⟩
      exact .cons_cons hnext hrest

theorem Spells.unique {v : Json} {start start' : Nat} {ids ids' : List String}
    (h : Spells start ids v) (h' : Spells start' ids' v) : start = start' ∧ ids = ids' := by
  have hread : read v = .ok ⟨start, ids⟩ := read_eq_ok.2 h
  have hread' : read v = .ok ⟨start', ids'⟩ := read_eq_ok.2 h'
  rw [hread] at hread'
  cases hread'
  exact ⟨rfl, rfl⟩

end Ancestry

/-! ## The parts of a document -/

section
variable {o : Option Json} {entries : List (String × Json)} {given : Option Revision} {e : Edit}

theorem readId_eq_ok {id : Option String} :
    readId o = .ok id ↔ o = none ∧ id = none ∨ ∃ text, o = some (.string text) ∧ id = some text := by
  cases o with
  | none => simp [readId, eq_comm]
  | some v => cases v <;> simp [readId, eq_comm]

theorem readRev_eq_ok :
    readRev o = .ok given ↔ (o = none ∨ o = some .null) ∧ given = none ∨
      ∃ text r, o = some (.string text) ∧ Revision.parse text = .ok r ∧ given = some r := by
  cases o with
  | none => simp [readRev, eq_comm]
  | some v =>
    cases v with
    | string text =>
      have hread : readRev (some (.string text)) = .ok given ↔
          ∃ r, Revision.parse text = .ok r ∧ given = some r := by
        show (Revision.parse text).map some = .ok given ↔ _
        cases Revision.parse text <;> simp [Except.map, eq_comm]
      simp [hread]
    | null | bool | number | array | members => simp [readRev, eq_comm]

theorem readDeleted_eq_ok {deleted : Bool} :
    readDeleted o = .ok deleted ↔ o = none ∧ deleted = false ∨ o = some (.bool deleted) := by
  cases o with
  | none => simp [readDeleted, eq_comm]
  | some v => cases v <;> simp [readDeleted]

theorem readHistory_eq_ok {history : List Revision} :
    readHistory o = .ok history ↔ o = none ∧ history = [] ∨
      ∃ v start ids, o = some v ∧ Ancestry.Spells start ids v ∧ ids.length ≤ start ∧
        history = Ancestry.descend start ids := by
  cases o with
  | none => simp [readHistory, eq_comm]
  | some v =>
    simp only [readHistory, reduceCtorEq, false_and, Option.some.injEq, false_or]
    cases hread : Ancestry.read v with
    | error reason =>
      simp only [reduceCtorEq, false_iff]
      rintro ⟨_, start, ids, rfl, h, -⟩
      rw [Ancestry.read_eq_ok (a := ⟨start, ids⟩).2 h] at hread
      cases hread
    | ok a =>
      have ha : Ancestry.Spells a.start a.ids v := Ancestry.read_eq_ok.1 hread
      dsimp only
      split
      · next hlen =>
        simp only [reduceCtorEq, false_iff]
        rintro ⟨_, start, ids, rfl, h, hle, -⟩
        obtain ⟨rfl, rfl⟩ := ha.unique h
        omega
      · next hlen =>
        rw [Except.ok.injEq]
        constructor
        · rintro rfl
          exact ⟨v, a.start, a.ids, rfl, ha, Nat.le_of_not_lt hlen, rfl⟩
        · rintro ⟨_, start, ids, rfl, h, -, rfl⟩
          obtain ⟨rfl, rfl⟩ := ha.unique h
          rfl

theorem settleRev_accepted_iff {newest : Option Revision} :
    (∃ rev, settleRev given newest = .ok rev) ↔ ∀ r ∈ given, ∀ n ∈ newest, r = n := by
  cases given with
  | none => cases newest <;> simp [settleRev]
  | some r =>
    cases newest with
    | none => simp [settleRev]
    | some n => by_cases h : r = n <;> simp [settleRev, h]

theorem ofMembers_eq_ok : ofMembers entries = .ok e ↔ ∃ given, Reading entries given e := by
  refine ⟨reading_of_ofMembers, ?_⟩
  rintro ⟨given, hid, hrev, hdeleted, hhistory, hspecial, hsettled, hbody⟩
  unfold ofMembers
  simp only [hid, hrev, hdeleted, hhistory, hspecial, hsettled, ← hbody, bind, Except.bind]
  rfl

/-! ## The grammar -/

/-- What the members of a document have to be like for it to ask for an edit. Each special member
may be absent, and a revision that is named by its text has to head the history that is listed, if
there is one. -/
structure WellFormed (entries : List (String × Json)) : Prop where
  id : ∀ v ∈ Entries.get? "_id" entries, ∃ text, v = .string text
  rev : ∀ v ∈ Entries.get? "_rev" entries,
    v = .null ∨ ∃ text r, v = .string text ∧ Revision.parse text = .ok r
  deleted : ∀ v ∈ Entries.get? "_deleted" entries, ∃ b, v = .bool b
  revisions : ∀ v ∈ Entries.get? "_revisions" entries,
    ∃ start ids, Ancestry.Spells start ids v ∧ ids.length ≤ start
  unreserved : ∀ e ∈ entries, isReserved e.1 = true → e.1 ∈ specialNames
  agree : ∀ {text r v start hash older}, Entries.get? "_rev" entries = some (.string text) →
    Revision.parse text = .ok r → Entries.get? "_revisions" entries = some v →
    Ancestry.Spells start (hash :: older) v → r = ⟨start, hash⟩

theorem unreserved_bodyMembers_iff : Unreserved (bodyMembers entries) ↔
    ∀ e ∈ entries, isReserved e.1 = true → e.1 ∈ specialNames := by
  unfold Unreserved
  simp only [mem_bodyMembers]
  constructor
  · intro h e he hreserved
    by_contra hspecial
    rw [h e ⟨he, hspecial⟩] at hreserved
    cases hreserved
  · rintro h e ⟨he, hspecial⟩
    by_contra hreserved
    exact hspecial (h e he (by simpa using hreserved))

/-- A revision that is named and a history that is listed settle on a revision exactly if the one
heads the other. -/
theorem settled_iff {history : List Revision}
    (hrev : readRev (Entries.get? "_rev" entries) = .ok given)
    (hhistory : readHistory (Entries.get? "_revisions" entries) = .ok history) :
    (∃ rev, settleRev given history.head? = .ok rev) ↔
      ∀ {text r v start hash older}, Entries.get? "_rev" entries = some (.string text) →
        Revision.parse text = .ok r → Entries.get? "_revisions" entries = some v →
        Ancestry.Spells start (hash :: older) v → r = ⟨start, hash⟩ := by
  rw [settleRev_accepted_iff]
  rw [readRev_eq_ok] at hrev
  rw [readHistory_eq_ok] at hhistory
  constructor
  · intro hagree text r v start hash older htext hr hv hspells
    rw [htext] at hrev
    rw [hv] at hhistory
    obtain ⟨hnone, -⟩ | ⟨_, r', htext', hr', rfl⟩ := hrev
    · simp at hnone
    obtain ⟨hnone, -⟩ | ⟨_, start', ids, hv', hspells', -, rfl⟩ := hhistory
    · cases hnone
    cases htext'
    cases hv'
    obtain ⟨rfl, rfl⟩ := hspells.unique hspells'
    rw [hr] at hr'
    cases hr'
    exact hagree r rfl _ rfl
  · intro hagree r hr n hn
    obtain ⟨-, hnone⟩ | ⟨text, r', htext, hr', hgiven⟩ := hrev
    · rw [hnone] at hr
      cases hr
    obtain ⟨-, hnone⟩ | ⟨v, start, ids, hv, hspells, -, hids⟩ := hhistory
    · rw [hnone] at hn
      cases hn
    rw [hgiven] at hr
    cases hr
    rw [hids] at hn
    cases ids with
    | nil => cases hn
    | cons hash older =>
      cases hn
      exact hagree htext hr' hv hspells

theorem Reading.wellFormed (h : Reading entries given e) : WellFormed entries := by
  refine ⟨fun v hv => ?_, fun v hv => ?_, fun v hv => ?_, fun v hv => ?_, ?_, ?_⟩
  · have hid := h.id
    rw [Option.mem_def.1 hv, readId_eq_ok] at hid
    obtain ⟨hnone, -⟩ | ⟨text, htext, -⟩ := hid
    · cases hnone
    · exact ⟨text, Option.some.inj htext⟩
  · have hrev := h.rev
    rw [Option.mem_def.1 hv, readRev_eq_ok] at hrev
    obtain ⟨hnone | hnull, -⟩ | ⟨text, r, htext, hr, -⟩ := hrev
    · cases hnone
    · exact .inl (Option.some.inj hnull)
    · exact .inr ⟨text, r, Option.some.inj htext, hr⟩
  · have hdeleted := h.deleted
    rw [Option.mem_def.1 hv, readDeleted_eq_ok] at hdeleted
    obtain ⟨hnone, -⟩ | hbool := hdeleted
    · cases hnone
    · exact ⟨_, Option.some.inj hbool⟩
  · have hhistory := h.history
    rw [Option.mem_def.1 hv, readHistory_eq_ok] at hhistory
    obtain ⟨hnone, -⟩ | ⟨w, start, ids, hw, hspells, hlen, -⟩ := hhistory
    · cases hnone
    · rw [Option.some.inj hw]
      exact ⟨start, ids, hspells, hlen⟩
  · exact unreserved_bodyMembers_iff.1 (checkBody_eq_ok.1 h.special)
  · exact (settled_iff h.rev h.history).1 ⟨_, h.settled⟩

theorem WellFormed.exists_reading (h : WellFormed entries) :
    ∃ given e, Reading entries given e := by
  obtain ⟨id, hid⟩ : ∃ id, readId (Entries.get? "_id" entries) = .ok id := by
    cases hget : Entries.get? "_id" entries with
    | none => exact ⟨_, rfl⟩
    | some v =>
      obtain ⟨text, rfl⟩ := h.id v hget
      exact ⟨_, rfl⟩
  obtain ⟨given, hrev⟩ : ∃ given, readRev (Entries.get? "_rev" entries) = .ok given := by
    cases hget : Entries.get? "_rev" entries with
    | none => exact ⟨_, rfl⟩
    | some v =>
      obtain rfl | ⟨text, r, rfl, hr⟩ := h.rev v hget
      · exact ⟨_, rfl⟩
      · exact ⟨_, readRev_eq_ok.2 (.inr ⟨text, r, rfl, hr, rfl⟩)⟩
  obtain ⟨deleted, hdeleted⟩ :
      ∃ deleted, readDeleted (Entries.get? "_deleted" entries) = .ok deleted := by
    cases hget : Entries.get? "_deleted" entries with
    | none => exact ⟨_, rfl⟩
    | some v =>
      obtain ⟨b, rfl⟩ := h.deleted v hget
      exact ⟨_, rfl⟩
  obtain ⟨history, hhistory⟩ :
      ∃ history, readHistory (Entries.get? "_revisions" entries) = .ok history := by
    cases hget : Entries.get? "_revisions" entries with
    | none => exact ⟨_, rfl⟩
    | some v =>
      obtain ⟨start, ids, hspells, hlen⟩ := h.revisions v hget
      exact ⟨_, readHistory_eq_ok.2 (.inr ⟨v, start, ids, rfl, hspells, hlen, rfl⟩)⟩
  obtain ⟨rev, hsettled⟩ := (settled_iff hrev hhistory).2 h.agree
  have hspecial : checkBody (bodyMembers entries) = .ok () :=
    checkBody_eq_ok.2 (unreserved_bodyMembers_iff.2 h.unreserved)
  exact ⟨given, ⟨id, rev, deleted, .members (bodyMembers entries), history⟩,
    hid, hrev, hdeleted, hhistory, hspecial, hsettled, rfl⟩

theorem exists_ofMembers_iff : (∃ e, ofMembers entries = .ok e) ↔ WellFormed entries := by
  simp only [ofMembers_eq_ok]
  constructor
  · rintro ⟨e, given, h⟩
    exact h.wellFormed
  · intro h
    obtain ⟨given, e, hreading⟩ := h.exists_reading
    exact ⟨e, given, hreading⟩

/-! ## The edit -/

/-- The edit that the members of a document ask for. -/
structure Asks (entries : List (String × Json)) (e : Edit) : Prop where
  id : ∀ text, e.id = some text ↔ Entries.get? "_id" entries = some (.string text)
  deleted : e.deleted = true ↔ Entries.get? "_deleted" entries = some (.bool true)
  /-- The body has all members but the special ones. -/
  body : e.body = .members (entries.filter fun m => m.1 ∉ specialNames)
  unlisted : Entries.get? "_revisions" entries = none → e.history = []
  /-- The generations of the history start where it says and go down to one at the least. -/
  listed : ∀ {v start ids}, Entries.get? "_revisions" entries = some v →
    Ancestry.Spells start ids v →
    (∀ i < ids.length, i < start) ∧ e.history = ids.mapIdx fun i hash => ⟨start - i, hash⟩
  /-- The revision heads the history; without a history it is the one that is named. -/
  head : e.history ≠ [] → e.rev = e.history.head?
  named : e.history = [] → ∀ r, e.rev = some r ↔
    ∃ text, Entries.get? "_rev" entries = some (.string text) ∧ Revision.parse text = .ok r

theorem Reading.asks (h : Reading entries given e) : Asks entries e := by
  refine ⟨fun text => ?_, ?_, ?_, fun hnone => ?_, fun hv hspells => ?_, fun hne => ?_,
    fun hnil r => ?_⟩
  · obtain ⟨hget, hid⟩ | ⟨text', hget, hid⟩ := readId_eq_ok.1 h.id
    · simp [hget, hid]
    · simp [hget, hid, eq_comm]
  · obtain ⟨hget, hdeleted⟩ | hget := readDeleted_eq_ok.1 h.deleted
    · simp [hget, hdeleted]
    · simp [hget]
  · rw [h.body, bodyMembers]
    congr 1
    refine List.filter_congr fun m _ => ?_
    simp
  · have hhistory := h.history
    rw [hnone] at hhistory
    exact (Except.ok.inj hhistory).symm
  · obtain ⟨hget, -⟩ | ⟨w, start', ids', hget, hspells', hlen, hhistory⟩ :=
      readHistory_eq_ok.1 h.history
    · cases hv.symm.trans hget
    cases hv.symm.trans hget
    obtain ⟨rfl, rfl⟩ := hspells.unique hspells'
    exact ⟨fun i hi => lt_of_lt_of_le hi hlen, by rw [hhistory, Ancestry.descend_eq_mapIdx]⟩
  · obtain hrev | ⟨hnone, -⟩ := settleRev_eq_ok h.settled
    · exact hrev
    · exact absurd (List.head?_eq_none_iff.1 hnone) hne
  · have hrev : e.rev = given := by
      have hsettled := h.settled
      rw [hnil] at hsettled
      cases given with
      | none => exact (Except.ok.inj hsettled).symm
      | some r => exact (Except.ok.inj hsettled).symm
    rw [hrev]
    obtain ⟨hget, hgiven⟩ | ⟨text, r', hget, hr', hgiven⟩ := readRev_eq_ok.1 h.rev
    · obtain hget | hget := hget <;> simp [hget, hgiven]
    · simp [hget, hgiven, hr']

end

/-! ## Grafting it -/

section
variable {v : Json} {e : Edit}

theorem contiguous_history {given : Option Revision} {entries : List (String × Json)}
    (hv : (Json.members entries).Proper) (h : Reading entries given e) :
    RevTree.Contiguous e.history := by
  obtain ⟨-, hhistory⟩ | ⟨w, start, ids, hw, hspells, hlen, hhistory⟩ :=
    readHistory_eq_ok.1 h.history
  · rw [hhistory]
    exact .nil
  · rw [hhistory]
    have hread : Ancestry.read w = .ok ⟨start, ids⟩ := Ancestry.read_eq_ok.2 hspells
    exact Ancestry.contiguous_descend hlen (Ancestry.start_le (hv.get? hw) hread)

/-- The history under which an edit is grafted is empty exactly if the edit has no revision, and it
is without gaps. -/
theorem historyOf_eq {given : Option Revision} {entries : List (String × Json)}
    (hv : (Json.members entries).Proper) (h : Reading entries given e) :
    (Store.historyOf e ≠ [] ↔ e.rev ≠ none) ∧ RevTree.Contiguous (Store.historyOf e) := by
  unfold Store.historyOf
  cases hhistory : e.history with
  | nil =>
    rw [List.isEmpty_nil, if_pos rfl]
    cases e.rev with
    | none => exact ⟨by simp, .nil⟩
    | some r => exact ⟨by simp, .singleton r⟩
  | cons newest older =>
    have hrev : e.rev = some newest := by
      have hne : e.history ≠ [] := by simp [hhistory]
      rw [h.asks.head hne, hhistory, List.head?_cons]
    have hcontiguous := contiguous_history hv h
    rw [hhistory] at hcontiguous
    exact ⟨by simp [hrev], by simpa using hcontiguous⟩

theorem Reading.apply_accepted_iff {given : Option Revision} {entries : List (String × Json)}
    (hv : (Json.members entries).Proper) (h : Reading entries given e) (s : Store) {id : String}
    (hempty : id ≠ "") (hreserved : id.toList.head? ≠ some '_') :
    (∃ rev, (s.apply id e false).1 = .ok rev) ↔ e.rev ≠ none := by
  obtain ⟨hne, hcontiguous⟩ := historyOf_eq hv h
  have happly : s.apply id e false = s.graft id (Store.historyOf e) e.deleted e.body := rfl
  rw [happly, Store.graft_accepted_iff, ← hne]
  constructor
  · rintro ⟨-, -, hne, -⟩
    exact hne
  · intro hne
    exact ⟨hempty, hreserved, hne, hcontiguous⟩

/-- A value asks for an edit exactly if it is an object with well-formed members. The edit is the one
that they ask for, and any store grafts it, under any id that a caller may choose, exactly if it has
a revision. -/
theorem accepted_exactly (hv : v.Proper) :
    ((∃ e, ofWire v = .ok e) ↔ ∃ entries, v = .members entries ∧ WellFormed entries) ∧
      ∀ e, ofWire v = .ok e →
        (∃ entries, v = .members entries ∧ Asks entries e) ∧
          ∀ (s : Store) (id : String), id ≠ "" → id.toList.head? ≠ some '_' →
            ((∃ rev, (s.apply id e false).1 = .ok rev) ↔ e.rev ≠ none) := by
  refine ⟨⟨?_, ?_⟩, fun e he => ?_⟩
  · rintro ⟨e, he⟩
    obtain ⟨entries, given, rfl, h⟩ := ofWire_eq_ok he
    exact ⟨entries, rfl, h.wellFormed⟩
  · rintro ⟨entries, rfl, hwell⟩
    exact exists_ofMembers_iff.2 hwell
  · obtain ⟨entries, given, rfl, h⟩ := ofWire_eq_ok he
    exact ⟨⟨entries, rfl, h.asks⟩, fun s id hempty hreserved =>
      h.apply_accepted_iff hv s hempty hreserved⟩

/-- A history that starts at the greatest generation. -/
theorem listing_accepted :
    let v := listing Numeral.max64 ["-", "a"]
    v.Proper ∧ ∃ entries e, v = .members entries ∧ WellFormed entries ∧ ofWire v = .ok e ∧
      e.rev = some ⟨Numeral.max64, "-"⟩ ∧
      ∃ rev, (Store.empty.apply "d" e false).1 = .ok rev := by
  intro v
  have hv : v.Proper := proper_listing (Nat.le_refl _) _
  obtain ⟨hiff, hall⟩ := accepted_exactly hv
  obtain ⟨entries, hentries, hwell⟩ := hiff.1 ⟨_, rfl⟩
  obtain ⟨-, hgraft⟩ := hall _ rfl
  refine ⟨hv, entries, _, hentries, hwell, rfl, rfl, ?_⟩
  exact (hgraft Store.empty "d" (by decide) (by decide)).2 (by simp)

end

end DocumentDb.Edit
