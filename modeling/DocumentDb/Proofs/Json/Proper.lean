import DocumentDb.Json.Parser
import Mathlib.Data.Option.Basic

/-! # Proper JSON values

The type of values has room for integers of any size and for members in any order. The values that
texts spell use none of it: their integers have 64 bits, and the names of every object ascend.

* `Json.Proper`: such a value.
* `Json.proper_object`: an object of proper members is proper, in whatever order they are given.
* `Json.readsProper`, `Json.proper_parse`: whatever is read is proper.
-/

namespace DocumentDb

/-! ## Entries of a list of pairs -/

theorem Entries.mem_foldl_insert {κ α : Type} [Ord κ] {pairs es : List (κ × α)} {e : κ × α}
    (h : e ∈ pairs.foldl (fun es p => insert p.1 p.2 es) es) : e ∈ pairs ∨ e ∈ es := by
  induction pairs generalizing es with
  | nil => exact .inr h
  | cons p pairs ih =>
    rcases ih h with h | h
    · exact .inl (List.mem_cons_of_mem _ h)
    · rcases mem_insert h with rfl | h
      · exact .inl List.mem_cons_self
      · exact .inr h

theorem Entries.mem_ofList {κ α : Type} [Ord κ] {pairs : List (κ × α)} {e : κ × α}
    (h : e ∈ ofList pairs) : e ∈ pairs := by
  rcases mem_foldl_insert h with h | h
  · exact h
  · cases h

namespace Json

/-! ## The predicate -/

/-- An integer has 64 bits, one of which is the sign if it is below zero. -/
def Number.Fits : Number → Prop
  | .nat n => n ≤ Numeral.max64
  | .neg n => 0 < n ∧ n ≤ Numeral.maxSigned64 + 1
  | .float _ => True

/-- Integers have 64 bits, and the names of every object ascend. -/
inductive Proper : Json → Prop where
  | null : Proper null
  | bool (b : Bool) : Proper (bool b)
  | number {n : Number} (h : n.Fits) : Proper (number n)
  | string (s : String) : Proper (string s)
  | array {items : List Json} (h : ∀ v ∈ items, Proper v) : Proper (array items)
  | members {entries : List (String × Json)} (hordered : Entries.Ordered entries)
      (h : ∀ e ∈ entries, Proper e.2) : Proper (members entries)

theorem proper_object {entries : List (String × Json)} (h : ∀ e ∈ entries, e.2.Proper) :
    (object entries).Proper :=
  .members (Entries.ordered_ofList entries) fun e he => h e (Entries.mem_ofList he)

theorem proper_strings (ss : List String) : (strings ss).Proper := by
  refine .array fun v hv => ?_
  obtain ⟨s, -, rfl⟩ := List.mem_map.1 hv
  exact .string s

theorem Proper.get? {entries : List (String × Json)} (h : (Json.members entries).Proper)
    {name : String} {v : Json} (hv : Entries.get? name entries = some v) : v.Proper := by
  cases h with
  | members hordered h => exact h (name, v) (hordered.get?_eq_some_iff.1 hv)

/-! ## Numbers -/

theorem takeFitting_le {n : Nat} (h : n ≤ Numeral.max64) (cs : List Char) :
    (Spelling.takeFitting n cs).1 ≤ Numeral.max64 := by
  induction cs generalizing n with
  | nil => exact h
  | cons c cs ih =>
    unfold Spelling.takeFitting
    dsimp only
    split
    · next hn => exact ih hn
    · exact h

theorem fits_whole {n : Nat} (h : n ≤ Numeral.max64) (negative : Bool) :
    (Spelling.whole negative n).Fits := by
  unfold Spelling.whole
  split
  · exact h
  · split
    · next hn => exact hn
    · trivial

theorem fits_value {negative : Bool} {d : Spelling} {n : Number}
    (h : d.value? negative = some n) : n.Fits := by
  unfold Spelling.value? at h
  have hle := takeFitting_le (Nat.zero_le _) d.integer
  generalize Spelling.takeFitting 0 d.integer = r at h hle
  obtain ⟨m, more⟩ := r
  dsimp only at h
  split at h
  · cases h
    exact fits_whole hle negative
  · obtain ⟨x, -, rfl⟩ := Option.map_eq_some_iff.1 h
    trivial

theorem fits_scanNumber {rules : Rules} {negative : Bool} {cs rest : List Char} {n : Number}
    (h : scanNumber rules negative cs = some (n, rest)) : n.Fits := by
  unfold scanNumber at h
  obtain ⟨⟨d, rest'⟩, -, h⟩ := Option.bind_eq_some_iff.1 h
  dsimp only at h
  split at h
  · obtain ⟨m, hm, h⟩ := Option.bind_eq_some_iff.1 h
    cases h
    exact fits_value hm
  · cases h
    exact Nat.zero_le _

/-! ## Values -/

/-- With so much fuel the scanners read proper values alone. -/
structure ReadsProper (rules : Rules) (fuel : Nat) : Prop where
  value : ∀ {depth : Nat} {cs rest : List Char} {v : Json},
    scanValue rules fuel depth cs = some (v, rest) → v.Proper
  items : ∀ {depth : Nat} {first : Bool} {cs rest : List Char} {vs : List Json},
    scanItems rules fuel depth first cs = some (vs, rest) → ∀ v ∈ vs, v.Proper
  members : ∀ {depth : Nat} {first : Bool} {cs rest : List Char} {es : List (String × Json)},
    scanMembers rules fuel depth first cs = some (es, rest) → ∀ e ∈ es, e.2.Proper

section
variable {rules : Rules} {fuel depth : Nat} {first : Bool} {cs rest : List Char}

theorem ReadsProper.succ_value (ih : ReadsProper rules fuel) {v : Json}
    (h : scanValue rules (fuel + 1) depth cs = some (v, rest)) : v.Proper := by
  unfold scanValue at h
  split at h
  · cases h
  · split at h
    · obtain ⟨⟨s, rest'⟩, -, h⟩ := Option.map_eq_some_iff.1 h
      cases h
      exact .string s
    split at h
    · split at h
      · cases h
      · obtain ⟨⟨vs, rest'⟩, hvs, h⟩ := Option.map_eq_some_iff.1 h
        cases h
        exact .array (ih.items hvs)
    split at h
    · split at h
      · cases h
      · split at h
        -- An embedded text is read with the fuel that is left.
        · obtain ⟨⟨text, rest'⟩, -, h⟩ := Option.bind_eq_some_iff.1 h
          obtain ⟨⟨v', more⟩, hv, h⟩ := Option.bind_eq_some_iff.1 h
          obtain ⟨-, -, h⟩ := Option.bind_eq_some_iff.1 h
          cases h
          exact ih.value hv
        · obtain ⟨⟨es, rest'⟩, hes, h⟩ := Option.map_eq_some_iff.1 h
          cases h
          exact proper_object (ih.members hes)
    split at h
    · obtain ⟨⟨n, rest'⟩, hn, h⟩ := Option.map_eq_some_iff.1 h
      cases h
      exact .number (fits_scanNumber hn)
    split at h
    · obtain ⟨⟨n, rest'⟩, hn, h⟩ := Option.map_eq_some_iff.1 h
      cases h
      exact .number (fits_scanNumber hn)
    split at h
    · obtain ⟨rest', -, h⟩ := Option.map_eq_some_iff.1 h
      cases h
      exact .null
    split at h
    · obtain ⟨rest', -, h⟩ := Option.map_eq_some_iff.1 h
      cases h
      exact .bool true
    split at h
    · obtain ⟨rest', -, h⟩ := Option.map_eq_some_iff.1 h
      cases h
      exact .bool false
    · cases h

theorem ReadsProper.succ_items (ih : ReadsProper rules fuel) {vs : List Json}
    (h : scanItems rules (fuel + 1) depth first cs = some (vs, rest)) : ∀ v ∈ vs, v.Proper := by
  unfold scanItems at h
  split at h
  · cases h
    exact fun v hv => by cases hv
  · obtain ⟨⟨v, rest'⟩, hv, h⟩ := Option.bind_eq_some_iff.1 h
    dsimp only at h
    split at h
    · cases h
      simpa using ih.value hv
    · obtain ⟨⟨more, rest''⟩, hmore, h⟩ := Option.bind_eq_some_iff.1 h
      cases h
      simpa using ⟨ih.value hv, ih.items hmore⟩
    · cases h

theorem ReadsProper.succ_members (ih : ReadsProper rules fuel) {es : List (String × Json)}
    (h : scanMembers rules (fuel + 1) depth first cs = some (es, rest)) :
    ∀ e ∈ es, e.2.Proper := by
  unfold scanMembers at h
  split at h
  · cases h
    exact fun e he => by cases he
  · obtain ⟨⟨name, rest₁⟩, -, h⟩ := Option.bind_eq_some_iff.1 h
    obtain ⟨rest₂, -, h⟩ := Option.bind_eq_some_iff.1 h
    obtain ⟨⟨v, rest₃⟩, hv, h⟩ := Option.bind_eq_some_iff.1 h
    dsimp only at h
    split at h
    · cases h
      intro e he
      rw [List.mem_singleton.1 he]
      exact ih.value hv
    · obtain ⟨⟨more, rest₄⟩, hmore, h⟩ := Option.bind_eq_some_iff.1 h
      cases h
      intro e he
      rcases List.mem_cons.1 he with rfl | he
      · exact ih.value hv
      · exact ih.members hmore e he
    · cases h
  · cases h

end

theorem readsProper (rules : Rules) (fuel : Nat) : ReadsProper rules fuel := by
  induction fuel with
  | zero =>
    constructor
    · intro depth cs rest v h
      unfold scanValue at h
      cases h
    · intro depth first cs rest vs h
      unfold scanItems at h
      cases h
    · intro depth first cs rest es h
      unfold scanMembers at h
      cases h
  | succ fuel ih => exact ⟨ih.succ_value, ih.succ_items, ih.succ_members⟩

/-- A value that a text spells is proper. -/
theorem proper_parse {text : String} {v : Json} (h : parse? text = some v) : v.Proper := by
  unfold parse? parseChars? at h
  obtain ⟨⟨v', rest⟩, hv, h⟩ := Option.bind_eq_some_iff.1 h
  obtain ⟨-, -, h⟩ := Option.bind_eq_some_iff.1 h
  cases h
  exact (readsProper Rules.strict _).value hv

end Json

end DocumentDb
