import DocumentDb.Json.Reread
import DocumentDb.Proofs.Json.Proper
import DocumentDb.Proofs.SortedMap.Keys

/-! # Values that are read again as they are

A value that is read once more comes out as it went in exactly if no object in it begins with the
name that embeds a text. That a value begins so and yet comes out as it is would need a text which
spells an object with this name alone; but in front of all other members the name embeds, and behind
another one it is not alone.

* `Json.Literal`: a value in which no object begins with that name.
* `Json.scanValue_ne_embedding`, `Json.parse?_ne_embedding`: what no text spells.
* `Json.reread?_eq_self_iff`: the values that are read again as they are.
-/

namespace DocumentDb.Json

/-- No object in a value begins with the name that embeds a text. -/
inductive Literal : Json → Prop where
  | null : Literal null
  | bool (b : Bool) : Literal (bool b)
  | number (n : Number) : Literal (number n)
  | string (s : String) : Literal (string s)
  | array {items : List Json} (h : ∀ v ∈ items, Literal v) : Literal (array items)
  | members {entries : List (String × Json)}
      (hname : ∀ e ∈ entries.head?, e.1 ≠ embeddingName) (h : ∀ e ∈ entries, Literal e.2) :
      Literal (members entries)

/-! ## Texts that spell an embedding -/

section
variable {rules : Rules} {fuel depth : Nat} {cs rest : List Char}

/-- An object is read off the text that it embeds, or else member by member. -/
theorem scanValue_eq_members {entries : List (String × Json)}
    (h : scanValue rules (fuel + 1) depth cs = some (members entries, rest)) :
    (∃ text more, scanValue rules fuel Rules.strict.depth text = some (members entries, more)) ∨
      ∃ depth' cs' es rest', embeds rules cs' = false ∧
        scanMembers rules fuel depth' true cs' = some (es, rest') ∧
        entries = Entries.ofList es := by
  unfold scanValue at h
  split at h
  · cases h
  · next c cs' _ =>
    -- Only a brace opens an object.
    split_ifs at h with _ _ _ hembeds
    · simp at h
    · split at h
      · cases h
      · simp at h
    · split at h
      · cases h
      · obtain ⟨⟨text, rest'⟩, -, h⟩ := Option.bind_eq_some_iff.1 h
        obtain ⟨⟨v, more⟩, hv, h⟩ := Option.bind_eq_some_iff.1 h
        obtain ⟨⟨⟩, -, h⟩ := Option.bind_eq_some_iff.1 h
        cases h
        exact .inl ⟨text, more, hv⟩
    · split at h
      · cases h
      · obtain ⟨⟨es, rest'⟩, hes, h⟩ := Option.map_eq_some_iff.1 h
        cases h
        exact .inr ⟨_, cs', es, _, Bool.eq_false_iff.2 hembeds, hes, rfl⟩
    · simp at h
    · simp at h
    · simp at h
    · simp at h
    · simp at h

/-- The name that decides whether an object embeds a text is that of its first member. -/
theorem firstName?_of_scanMembers {e : String × Json} {es : List (String × Json)}
    (h : scanMembers rules fuel depth true cs = some (e :: es, rest)) :
    firstName? rules cs = some e.1 := by
  cases fuel with
  | zero =>
    unfold scanMembers at h
    cases h
  | succ fuel =>
    unfold scanMembers at h
    split at h
    · cases h
    · next behind hquote =>
      obtain ⟨⟨name, rest₁⟩, hname, h⟩ := Option.bind_eq_some_iff.1 h
      obtain ⟨rest₂, -, h⟩ := Option.bind_eq_some_iff.1 h
      obtain ⟨⟨v, rest₃⟩, -, h⟩ := Option.bind_eq_some_iff.1 h
      have hfirst : e.1 = name := by
        dsimp only at h
        split at h
        · cases h
          rfl
        · obtain ⟨⟨more, rest₄⟩, -, h⟩ := Option.bind_eq_some_iff.1 h
          cases h
          rfl
        · cases h
      unfold firstName?
      rw [hquote, hfirst]
      show (scanString rules behind).bind _ = _
      rw [hname]
      rfl
    · cases h

theorem scanValue_ne_embedding (hrules : rules.checked = true) {v w : Json}
    (h : scanValue rules fuel depth cs = some (v, rest)) : v ≠ members [(embeddingName, w)] := by
  rintro rfl
  induction fuel generalizing depth cs rest with
  | zero =>
    unfold scanValue at h
    cases h
  | succ fuel ih =>
    obtain ⟨text, more, hinner⟩ | ⟨depth', cs', es, rest', hembeds, hes, hentries⟩ :=
      scanValue_eq_members h
    · exact ih hinner
    · cases es with
      | nil => cases hentries
      | cons e es =>
        -- All members that were read have the one name that is left, so the first has it too.
        obtain ⟨found, hfound⟩ := Entries.exists_get?_ofList (List.mem_cons_self (a := e) (l := es))
        rw [← hentries, Entries.get?_cons] at hfound
        have hname : e.1 = embeddingName := by
          by_contra hne
          rw [if_neg hne] at hfound
          cases hfound
        unfold embeds at hembeds
        rw [firstName?_of_scanMembers hes, hname, hrules] at hembeds
        simp at hembeds

end

/-- No text spells an object whose only member has the name that embeds a text. -/
theorem parse?_ne_embedding (text : String) (v : Json) :
    parse? text ≠ some (members [(embeddingName, v)]) := by
  intro h
  unfold parse? parseChars? at h
  obtain ⟨⟨v', rest⟩, hv, h⟩ := Option.bind_eq_some_iff.1 h
  obtain ⟨-, -, h⟩ := Option.bind_eq_some_iff.1 h
  cases h
  exact scanValue_ne_embedding rfl hv rfl

/-! ## Reading again -/

theorem rereadItems?_cons_eq_self {v : Json} {vs : List Json} :
    rereadItems? (v :: vs) = some (v :: vs) ↔
      reread? v = some v ∧ rereadItems? vs = some vs := by
  simp [rereadItems?, Option.bind_eq_some_iff]

theorem rereadMembers?_cons_eq_self {name : String} {v : Json} {es : List (String × Json)} :
    rereadMembers? ((name, v) :: es) = some ((name, v) :: es) ↔
      reread? v = some v ∧ rereadMembers? es = some es := by
  simp [rereadMembers?, Option.bind_eq_some_iff]

theorem embedded?_ne_embedding (v w : Json) :
    embedded? v ≠ some (members [(embeddingName, w)]) := by
  cases v with
  | string text => exact parse?_ne_embedding text w
  | null | bool | number | array | members => exact nofun

theorem rereadObject?_eq_self {es : List (String × Json)} :
    rereadObject? es = some (members es) ↔
      (∀ e ∈ es.head?, e.1 ≠ embeddingName) ∧ rereadMembers? es = some es := by
  cases es with
  | nil => simp [rereadObject?, rereadMembers?, emptyObject]
  | cons e es =>
    obtain ⟨name, v⟩ := e
    by_cases hname : name = embeddingName
    · subst hname
      cases es with
      | nil => simp [rereadObject?, embedded?_ne_embedding]
      | cons e es => simp [rereadObject?]
    · rw [rereadMembers?_cons_eq_self]
      simp [rereadObject?, hname, Option.bind_eq_some_iff]

mutual

/-- A value is read again as it is exactly if no object in it begins with the name that embeds a
text. -/
theorem reread?_eq_self_iff (v : Json) : reread? v = some v ↔ v.Literal := by
  cases v with
  | null => exact iff_of_true rfl .null
  | bool b => exact iff_of_true rfl (.bool b)
  | number n => exact iff_of_true rfl (.number n)
  | string s => exact iff_of_true rfl (.string s)
  | array vs =>
    have hitems := rereadItems?_eq_self_iff vs
    simp only [reread?, Option.map_eq_some_iff, array.injEq, exists_eq_right, hitems]
    exact ⟨.array, fun | .array h => h⟩
  | members es =>
    have hmembers := rereadMembers?_eq_self_iff es
    rw [reread?, rereadObject?_eq_self, hmembers]
    exact ⟨fun ⟨hname, h⟩ => .members hname h, fun | .members hname h => ⟨hname, h⟩⟩

theorem rereadItems?_eq_self_iff (vs : List Json) :
    rereadItems? vs = some vs ↔ ∀ v ∈ vs, v.Literal := by
  cases vs with
  | nil => simp [rereadItems?]
  | cons v vs =>
    rw [rereadItems?_cons_eq_self, reread?_eq_self_iff v, rereadItems?_eq_self_iff vs,
      List.forall_mem_cons]

theorem rereadMembers?_eq_self_iff (es : List (String × Json)) :
    rereadMembers? es = some es ↔ ∀ e ∈ es, e.2.Literal := by
  cases es with
  | nil => simp [rereadMembers?]
  | cons e es =>
    obtain ⟨name, v⟩ := e
    rw [rereadMembers?_cons_eq_self, reread?_eq_self_iff v, rereadMembers?_eq_self_iff es,
      List.forall_mem_cons]

end

end DocumentDb.Json
