import DocumentDb.Proofs.Document.Records
import DocumentDb.Proofs.Memory.Deliveries
import DocumentDb.Proofs.Store.Views

/-! # What a store says, handed on as records

The documents, the rows and the entries of the log that a store gives out are read again from their
records exactly if their revisions can be named and their bodies are values that are read again as
they are. A row has to have a body besides null, if it has one at all. The bodies are those of the
writes, which are looked at no further than whether a put has an object.

* `Store.hasBody_of_mem_rows`, `Store.exists_write_of_hasBody`: where the bodies come from.
* `Store.records_read_back`: the records of every store that writes can build.
* `Store.bodies_altered`: a row and a document that do not come back.
-/

namespace DocumentDb.Store

theorem hasBody_of_mem_rows {s : Store} {q : ListingQuery} {row : Row} (h : row ∈ (s.list q).rows)
    {body : Json} (hbody : body ∈ row.doc) : (s.tree row.id).HasBody row.rev body := by
  obtain ⟨t, ht, hrow⟩ := mem_rows h
  obtain ⟨⟨w, node⟩, hwinning, heq⟩ := Option.map_eq_some_iff.1 hrow
  rw [tree_eq ht]
  rw [← heq] at hbody ⊢
  refine ⟨node, (RevTree.winning_eq_some.1 hwinning).2, ?_⟩
  dsimp only at hbody
  split at hbody
  · exact hbody
  · cases hbody

theorem exists_write_of_hasBody {ws : List Write} {id : String} {rev : Revision} {body : Json}
    (h : ((empty.after ws).tree id).HasBody rev body) : ∃ w ∈ ws, body = w.body :=
  exists_write_of_delivery ((hasBody_empty_after ws).1 h)

/-- After any writes to the empty store, refused ones included and of whatever bodies: a document
that is looked up comes back from its record exactly if it names its revisions and no object in its
body begins with the name that embeds a text; a row comes back exactly if it names its revision and
has either no body or one that is not null and of which the same holds; an entry of the log comes
back exactly if it names its revision. All bodies were brought by the writes. -/
theorem records_read_back (ws : List Write) :
    let s := empty.after ws
    (∀ id named conflicts doc, s.get id named conflicts = .ok doc →
      (Document.decode? doc.encode = some doc ↔
        (∀ r ∈ doc.rev :: doc.conflicts, r.Named) ∧ doc.body.Literal) ∧
      ∃ w ∈ ws, doc.body = w.body) ∧
    (∀ q, ∀ row ∈ (s.list q).rows,
      (Row.decode? row.encode = some row ↔
        row.rev.Named ∧ ∀ body ∈ row.doc, body ≠ .null ∧ body.Literal) ∧
      ∀ body ∈ row.doc, ∃ w ∈ ws, body = w.body) ∧
    ∀ since limit, ∀ e ∈ s.changesSince since limit,
      (ChangeEntry.decode? e.encode = some e ↔ e.rev.Named) := by
  intro s
  refine ⟨fun id named conflicts doc hdoc => ?_, fun q row hrow => ?_, fun since limit e _ => ?_⟩
  · exact ⟨Document.decode?_encode_iff, exists_write_of_hasBody (hasBody_of_get hdoc).2⟩
  · refine ⟨Row.decode?_encode_iff, fun body hbody => ?_⟩
    exact exists_write_of_hasBody (hasBody_of_mem_rows hrow hbody)
  · exact ChangeEntry.decode?_encode_iff

/-- Two revisions of one document. The winner has null for its body. -/
def nullBranch : List Write :=
  [.graft "a" [⟨2, "-"⟩, ⟨1, "r"⟩] false .null,
    .graft "a" [⟨2, "\n"⟩, ⟨1, "r"⟩] false (.members [("$", .array [.emptyObject])])]

/-- A document keeps null for its body, and its conflicts come back with it. -/
theorem nullBranch_reads_back :
    let s := empty.after nullBranch
    let doc : Document := ⟨"a", ⟨2, "-"⟩, false, .null, [⟨2, "\n"⟩]⟩
    let row : Row := ⟨"a", ⟨2, "-"⟩, false, none⟩
    let e : ChangeEntry := ⟨1, "a", ⟨2, "-"⟩, false⟩
    (s.get "a" none true = .ok doc ∧ Document.decode? doc.encode = some doc) ∧
      (row ∈ (s.list (everything false)).rows ∧ Row.decode? row.encode = some row) ∧
      e ∈ s.changesSince 0 none ∧ ChangeEntry.decode? e.encode = some e := by
  intro s doc row e
  have hnamed : ∀ r ∈ doc.rev :: doc.conflicts, r.Named := by
    intro r hr
    rcases List.mem_cons.1 hr with rfl | hr
    · exact ⟨by decide, by decide, by decide⟩
    · rw [List.mem_singleton.1 hr]
      exact ⟨by decide, by decide, by decide⟩
  have hwinner : doc.rev.Named := hnamed _ List.mem_cons_self
  have hget : s.get "a" none true = .ok doc := by rfl
  have hrow : row ∈ (s.list (everything false)).rows := by
    show row ∈ [row]
    exact List.mem_cons_self
  have he : e ∈ s.changesSince 0 none := by
    show e ∈ [e]
    exact List.mem_cons_self
  obtain ⟨hdocs, hrows, hentries⟩ := records_read_back nullBranch
  refine ⟨⟨hget, ?_⟩, ⟨hrow, ?_⟩, he, ?_⟩
  · exact (hdocs _ _ _ _ hget).1.2 ⟨hnamed, .null⟩
  · exact (hrows _ _ hrow).1.2 ⟨hwinner, nofun⟩
  · exact (hentries _ _ _ he).2 hwinner

/-- The row of a winner with null for its body comes back without a body. A document whose body has
the name that embeds a text for its least one does not come back at all. -/
theorem bodies_altered :
    let body := Json.members [(Json.embeddingName, .string "5"), ("a", .nat 1)]
    let s := empty.after [.graft "a" [⟨1, "x"⟩] false .null, .graft "a" [⟨1, "w"⟩] false body]
    let row : Row := ⟨"a", ⟨1, "x"⟩, false, some .null⟩
    let doc : Document := ⟨"a", ⟨1, "w"⟩, false, body, []⟩
    (row.rev.Named ∧ row ∈ (s.list (everything true)).rows ∧
      Row.decode? row.encode = some { row with doc := none } ∧
      Row.decode? row.encode ≠ some row) ∧
    doc.rev.Named ∧ s.get "a" (some ⟨1, "w"⟩) false = .ok doc ∧
      Document.decode? doc.encode = none := by
  intro body s row doc
  have hwinner : row.rev.Named := ⟨by decide, by decide, by decide⟩
  have hother : doc.rev.Named := ⟨by decide, by decide, by decide⟩
  have hrow : row ∈ (s.list (everything true)).rows := by
    show row ∈ [row]
    exact List.mem_cons_self
  have hnull : Row.decode? row.encode = some { row with doc := none } :=
    Row.decode?_encode_null hwinner rfl
  have hrefused : doc.body.reread? = none := by rfl
  refine ⟨⟨hwinner, hrow, hnull, ?_⟩, hother, by rfl, ?_⟩
  · rw [hnull]
    simp [row]
  · rw [Document.decode?_encode, Revision.decode?_encode_iff.2 hother, hrefused]
    rfl

end DocumentDb.Store
