import DocumentDb.Json.Record
import DocumentDb.Proofs.Json.Plain
import DocumentDb.Proofs.Json.Reading
import DocumentDb.Proofs.SortedMap.Keys
import DocumentDb.Proofs.Text.Utf8Order
import DocumentDb.Server.Handlers

/-! # The lines of a feed

The entries of a feed that goes on are sent one after the other, each with a newline behind it. A
newline in an id or in a hash is written with an escape, and no other character has the byte of the
newline among its own, so the bytes fall apart at that byte into the entries again.

* `Utf8.newline_not_mem_encode`: the byte of the newline.
* `Utf8.splitOn_lines`: lines are split where they were joined.
* `Wire.readRow?`: what a client reads off a line.
* `Wire.Tells`, `Wire.tells_changeText`: it reads the entry.
* `Server.stream_splits`: the body of a whole feed.
-/

namespace DocumentDb

/-! ## Bytes -/

namespace Utf8

/-- The byte of the newline. -/
def newline : UInt8 := 10

/-- All bytes of a longer form are greater. -/
theorem newline_not_mem_encodeChar {c : Char} (h : c ≠ '\n') :
    newline ∉ String.utf8EncodeChar c := by
  have hvalue : c.val.toNat ≠ 10 := fun hval => h (Char.ext (UInt32.toNat_inj.1 hval))
  have hten : (10 : UInt8).toNat = 10 := rfl
  have hmax := toNat_char_lt c
  unfold String.utf8EncodeChar newline
  generalize c.val.toNat = m at hvalue hmax
  dsimp only
  split_ifs
  all_goals
    simp (disch := omega) only [List.mem_cons, List.not_mem_nil, or_false, not_or,
      ← UInt8.toNat_inj, UInt8.toNat_ofNat', Nat.reducePow, Nat.mod_eq_of_lt, hten]
    omega

theorem newline_not_mem_encode {cs : List Char} (h : '\n' ∉ cs) :
    newline ∉ encode (String.ofList cs) := by
  rw [encode_eq, String.toList_ofList, List.mem_flatMap]
  rintro ⟨c, hc, hmem⟩
  exact newline_not_mem_encodeChar (fun heq => h (heq ▸ hc)) hmem

theorem encode_newline : String.utf8EncodeChar '\n' = [newline] := by decide

theorem splitOn_lines (chunks : List (List UInt8)) (h : ∀ chunk ∈ chunks, newline ∉ chunk) :
    (chunks.flatMap (· ++ [newline])).splitOn newline = chunks ++ [[]] := by
  induction chunks with
  | nil => rfl
  | cons chunk chunks ih =>
    obtain ⟨hfirst, hrest⟩ := List.forall_mem_cons.1 h
    rw [List.flatMap_cons, List.append_assoc, List.singleton_append,
      List.splitOn_append_cons_self_of_not_mem hfirst, ih hrest, List.cons_append]

end Utf8

/-! ## Entries -/

namespace Wire

/-- The text of a revision in a row of changes. -/
def rowRev? (v : Json) : Option String := do
  let f ← v.fields? 1
  f.required 0 "rev" Json.string?

/-- What a client reads off a row of changes: the number of the entry, its document, its revisions,
and whether it is a deletion, which it is not unless the row says so. -/
def readRow? (v : Json) : Option (Nat × String × List String × Bool) := do
  let f ← v.fields? 4
  let seq ← f.required 0 "seq" Json.nat?
  let id ← f.required 1 "id" Json.string?
  let revs ← f.required 2 "changes" (Json.list? rowRev?)
  let deleted ← f.withDefault 3 "deleted" false Json.bool?
  return (seq, id, revs, deleted)

variable {e : ChangeEntry}

theorem get?_change (e : ChangeEntry) (name : String) :
    Entries.get? name (Entries.ofList (changeMembers e)) =
      if name = "deleted" ∧ e.deleted = true then some (.bool true)
      else if name = "changes" then some (.array [.object [("rev", .string e.rev.text)]])
      else if name = "id" then some (.string e.id)
      else if name = "seq" then some (.nat e.seq)
      else none := by
  rw [Entries.get?_ofList]
  unfold changeMembers deletedMember
  cases e.deleted <;> simp [Entries.get?_cons]

theorem rowRev?_object (text : String) : rowRev? (.object [("rev", .string text)]) = some text := by
  have hobject : Json.object [("rev", .string text)] = .members [("rev", .string text)] := rfl
  unfold rowRev?
  rw [hobject]
  simp [Json.fields?, Json.Fields.required, Json.Fields.slot, Entries.get?_cons, Json.string?]

theorem readRow?_change (e : ChangeEntry) :
    readRow? (change e) = some (e.seq, e.id, [e.rev.text], e.deleted) := by
  have hfields : (change e).fields? 4 = some (.named (Entries.ofList (changeMembers e))) := rfl
  have hrevs : Json.list? rowRev? (.array [.object [("rev", .string e.rev.text)]]) =
      some [e.rev.text] := by
    simp [Json.list?, rowRev?_object]
  unfold readRow?
  rw [hfields]
  simp only [Option.bind_eq_bind, Option.bind_some, Json.Fields.required, Json.Fields.withDefault,
    Json.Fields.slot, get?_change]
  cases e.deleted <;> simp [Json.nat?, Json.string?, Json.bool?, Json.nat, hrevs]

/-- The line of an entry without its newline. -/
def changeText (e : ChangeEntry) : String := (Json.members (changeMembers e)).text

theorem changeLine_eq (e : ChangeEntry) : changeLine e = (changeText e).toList ++ ['\n'] := by
  simp [changeLine, changeText, Json.text, Json.chars]

theorem newline_not_mem_changeText (e : ChangeEntry) : '\n' ∉ (changeText e).toList := by
  intro h
  have hplain := (Json.members (changeMembers e)).plain_chars
  rw [changeText, Json.text, String.toList_ofList] at h
  have hnewline := List.all_eq_true.1 hplain '\n' h
  cases hnewline

theorem reads_deletedMember (depth : Nat) (deleted : Bool) :
    Json.ReadsMembers depth (deletedMember deleted) (deletedMember deleted) := by
  cases deleted with
  | false => exact .nil
  | true => exact .cons _ (.bool true) .nil

theorem reads_changeMembers (hseq : e.seq ≤ Numeral.max64) :
    Json.Reads Json.Rules.strict.depth (.members (changeMembers e)) (change e) := by
  have hname : ∀ entry ∈ [("rev", Json.string e.rev.text)].head?, entry.1 ≠ Json.embeddingName := by
    rintro _ ⟨⟩
    show "rev" ≠ Json.embeddingName
    decide
  have hrev : Json.Reads 125 (.object [("rev", .string e.rev.text)])
      (.object [("rev", .string e.rev.text)]) :=
    .members hname (.cons "rev" (.string _) .nil)
  have hchanges : Json.Reads 126 (.array [.object [("rev", .string e.rev.text)]])
      (.array [.object [("rev", .string e.rev.text)]]) := .array (.cons hrev .nil)
  refine Json.Reads.members ?_ ?_
  · rintro _ ⟨⟩
    show "seq" ≠ Json.embeddingName
    decide
  · exact .cons "seq" (.nat hseq) (.cons "id" (.string _) (.cons "changes" hchanges
      (reads_deletedMember 126 e.deleted)))

theorem parseBody_changeText (hseq : e.seq ≤ Numeral.max64) :
    parseBody (Utf8.encode (changeText e)) = .ok (change e) := by
  unfold parseBody
  rw [Utf8.decode?_encode, Option.bind_some, changeText,
    Json.parse?_text (reads_changeMembers hseq)]

/-- A line tells of an entry: it is the text of an object, and the entry is read off it. -/
structure Tells (e : ChangeEntry) (line : List UInt8) : Prop where
  nonempty : line ≠ []
  object : ∃ v, parseBody line = .ok v ∧ v.isObject = true ∧
    readRow? v = some (e.seq, e.id, [e.rev.text], e.deleted)

theorem tells_changeText (hseq : e.seq ≤ Numeral.max64) :
    Tells e (Utf8.encode (changeText e)) where
  nonempty h := by
    have hparse := parseBody_changeText hseq
    have hnone : parseBody [] = .error .malformedBody := rfl
    rw [h, hnone] at hparse
    cases hparse
  object := ⟨change e, parseBody_changeText hseq, rfl, readRow?_change e⟩

end Wire

/-! ## Feeds -/

namespace Server

/-- The bytes of a feed are its lines, each with a newline behind it. -/
theorem encode_stream (es : List ChangeEntry) :
    Utf8.encode (stream es).body =
      (es.map fun e => Utf8.encode (Wire.changeText e)).flatMap (· ++ [Utf8.newline]) := by
  show Utf8.encode (String.ofList (es.flatMap Wire.changeLine)) = _
  rw [Utf8.encode_eq, String.toList_ofList]
  induction es with
  | nil => rfl
  | cons e es ih =>
    rw [List.flatMap_cons, List.flatMap_append, ih, List.map_cons, List.flatMap_cons,
      Wire.changeLine_eq, List.flatMap_append, ← Utf8.encode_eq, List.flatMap_singleton,
      Utf8.encode_newline]

/-- Split at the newlines, the body of a feed that goes on has one line for each entry that was
sent, in their order, and ends behind the last newline. -/
theorem stream_splits (es : List ChangeEntry) (hseq : ∀ e ∈ es, e.seq ≤ Numeral.max64) :
    ∃ lines, (Utf8.encode (stream es).body).splitOn Utf8.newline = lines ++ [[]] ∧
      List.Forall₂ Wire.Tells es lines := by
  refine ⟨es.map fun e => Utf8.encode (Wire.changeText e), ?_, ?_⟩
  · have hlines : ∀ line ∈ es.map fun e => Utf8.encode (Wire.changeText e),
        Utf8.newline ∉ line := by
      intro line hline
      obtain ⟨e, -, rfl⟩ := List.mem_map.1 hline
      have h := Utf8.newline_not_mem_encode (Wire.newline_not_mem_changeText e)
      rwa [String.ofList_toList] at h
    rw [encode_stream, Utf8.splitOn_lines _ hlines]
  · rw [List.forall₂_map_right_iff, List.forall₂_same]
    exact fun e he => Wire.tells_changeText (hseq e he)

/-- Newlines, quotes and control characters, and the greatest number. -/
theorem escaped_stream_splits :
    let es : List ChangeEntry := [⟨1, "a\n\"b\x00", ⟨1, "\n\r"⟩, false⟩,
      ⟨18446744073709551615, "\n", ⟨2, "\x1f\\é"⟩, true⟩]
    (∀ e ∈ es, e.seq ≤ Numeral.max64) ∧
      ∃ lines, (Utf8.encode (stream es).body).splitOn Utf8.newline = lines ++ [[]] ∧
        List.Forall₂ Wire.Tells es lines := by
  intro es
  have hseq : ∀ e ∈ es, e.seq ≤ Numeral.max64 := by decide
  exact ⟨hseq, stream_splits es hseq⟩

end Server

end DocumentDb
