import DocumentDb.Proofs.Json.Quoted

/-! # Values that are written alike

Two values have the same text exactly if they are the same but for numbers, of which only the
spelling counts. A text tells where a value in it ends: a number ends at the first character that no
number has, and everything else is closed by a mark of its own.

* `Json.isNumberChar`, `Json.Number.isNumberChar_of_mem_chars`: the characters of numbers.
* `Json.Alike`: the same but for numbers of one spelling.
* `Json.chars_append_inj`: what is written in front of a text is determined by the text.
* `Json.text_eq_iff`: values of the same text.
-/

namespace DocumentDb.Json

/-! ## The characters of numbers -/

/-- The characters that numbers are written with. -/
def isNumberChar (c : Char) : Bool := c.isDigit || c = '-' || c = '+' || c = '.' || c = 'e'

theorem all_digits (n : Nat) : (Numeral.digits n).all isNumberChar = true := by
  rw [List.all_eq_true]
  intro c hc
  simp [isNumberChar, Numeral.isDigit_of_mem_digits hc]

theorem all_replicate_zero (n : Nat) : (List.replicate n '0').all isNumberChar = true := by
  rw [List.all_replicate]
  split
  · rfl
  · decide

section
variable {ds : List Char} (hds : ds.all isNumberChar = true)
include hds

theorem all_take (n : Nat) : (ds.take n).all isNumberChar = true := by
  rw [List.all_eq_true] at hds ⊢
  exact fun c hc => hds c (List.mem_of_mem_take hc)

theorem all_drop (n : Nat) : (ds.drop n).all isNumberChar = true := by
  rw [List.all_eq_true] at hds ⊢
  exact fun c hc => hds c (List.mem_of_mem_drop hc)

theorem all_positionalText (pointZero : Bool) (lead : Int) :
    (Decimal.positionalText pointZero ds lead).all isNumberChar = true := by
  have hzero : isNumberChar '0' = true := by decide
  have hpoint : isNumberChar '.' = true := by decide
  have hend : (if pointZero = true then ['.', '0'] else []).all isNumberChar = true := by
    cases pointZero <;> decide
  unfold Decimal.positionalText
  dsimp only
  split
  · simp only [List.all_append, List.all_cons, all_replicate_zero, hzero, hpoint, hds,
      Bool.and_self]
  · split
    · simp only [List.all_append, all_replicate_zero, hds, hend, Bool.and_self]
    · simp only [List.all_append, List.all_cons, hpoint, all_take hds, all_drop hds, Bool.and_self]

theorem all_scientificText (lead : Int) :
    (Decimal.scientificText ds lead).all isNumberChar = true := by
  have hpoint : isNumberChar '.' = true := by decide
  have hfraction : (if ds.length ≤ 1 then [] else '.' :: ds.drop 1).all isNumberChar = true := by
    split
    · rfl
    · simp only [List.all_cons, hpoint, all_drop hds, Bool.and_self]
  have hsign : ['e', if lead < 0 then '-' else '+'].all isNumberChar = true := by
    split <;> decide
  unfold Decimal.scientificText
  dsimp only
  simp only [List.all_append, all_take hds, hfraction, hsign, all_digits, Bool.and_self]

end

theorem all_render (layout : Layout) (x : Binary64) :
    (x.render layout).all isNumberChar = true := by
  have hminus : isNumberChar '-' = true := by decide
  have hds := all_digits (Decimal.shortest layout.tie x).digits
  have hbody : ∀ (positional : Bool) (lead : Int),
      (if positional then Decimal.positionalText layout.pointZero
        (Numeral.digits (Decimal.shortest layout.tie x).digits) lead
      else Decimal.scientificText (Numeral.digits (Decimal.shortest layout.tie x).digits) lead).all
        isNumberChar = true := by
    intro positional lead
    cases positional
    · exact all_scientificText hds lead
    · exact all_positionalText hds layout.pointZero lead
  unfold Binary64.render
  dsimp only
  split
  · rw [List.all_cons, hminus, Bool.true_and]
    exact hbody _ _
  · exact hbody _ _

theorem render_ne_nil (layout : Layout) (x : Binary64) : x.render layout ≠ [] := by
  have hds : Numeral.digits (Decimal.shortest layout.tie x).digits ≠ [] := Numeral.digits_ne_nil _
  unfold Binary64.render Decimal.positionalText Decimal.scientificText
  dsimp only
  split_ifs <;> simp [hds]

theorem Number.all_chars (n : Number) : n.chars.all isNumberChar = true := by
  have hminus : isNumberChar '-' = true := by decide
  cases n with
  | nat n => exact all_digits n
  | neg n => simp only [chars, List.all_cons, hminus, all_digits, Bool.and_self]
  | float x => exact all_render numberLayout x

theorem Number.chars_ne_nil (n : Number) : n.chars ≠ [] := by
  cases n with
  | nat n => exact Numeral.digits_ne_nil n
  | neg n => exact List.cons_ne_nil _ _
  | float x => exact render_ne_nil numberLayout x

/-- A text does not go on with a character of a number. -/
def Stops (r : List Char) : Prop := ∀ c ∈ r.head?, isNumberChar c = false

theorem Number.chars_append_inj {n n' : Number} {r r' : List Char} (hr : Stops r) (hr' : Stops r')
    (h : n.chars ++ r = n'.chars ++ r') : n.chars = n'.chars ∧ r = r' := by
  have htake : ∀ (n : Number) {r : List Char}, Stops r →
      (n.chars ++ r).takeWhile isNumberChar = n.chars := by
    intro n r hr
    have hall := List.all_eq_true.1 n.all_chars
    rw [List.takeWhile_append_of_pos hall]
    cases r with
    | nil => simp
    | cons c r =>
      have hc : isNumberChar c = false := hr c rfl
      rw [List.takeWhile_cons_of_neg (by simp [hc]), List.append_nil]
  have hchars : n.chars = n'.chars := by
    rw [← htake n hr, h, htake n' hr']
  rw [hchars] at h
  exact ⟨hchars, List.append_cancel_left h⟩

/-! ## Values -/

mutual

/-- Two values are the same but for numbers, which are written the same. -/
inductive Alike : Json → Json → Prop
  | null : Alike null null
  | bool (b : Bool) : Alike (bool b) (bool b)
  | number {n n' : Number} (h : n.chars = n'.chars) : Alike (number n) (number n')
  | string (s : String) : Alike (string s) (string s)
  | array {vs ws : List Json} (h : AlikeItems vs ws) : Alike (array vs) (array ws)
  | members {es fs : List (String × Json)} (h : AlikeMembers es fs) :
      Alike (members es) (members fs)

/-- Two arrays have alike items. -/
inductive AlikeItems : List Json → List Json → Prop
  | nil : AlikeItems [] []
  | cons {v w : Json} {vs ws : List Json} (h : Alike v w) (hs : AlikeItems vs ws) :
      AlikeItems (v :: vs) (w :: ws)

/-- Two objects have alike members of the same names. -/
inductive AlikeMembers : List (String × Json) → List (String × Json) → Prop
  | nil : AlikeMembers [] []
  | cons (name : String) {v w : Json} {es fs : List (String × Json)} (h : Alike v w)
      (hs : AlikeMembers es fs) : AlikeMembers ((name, v) :: es) ((name, w) :: fs)

end

/-! ## Texts -/

/-- The texts of the items that follow the first one, each behind a comma. -/
def moreItems (vs : List Json) : List Char := vs.flatMap fun v => ',' :: v.chars

/-- The text of a member. -/
def memberText (e : String × Json) : List Char := quote e.1 ++ ':' :: e.2.chars

/-- The texts of the members that follow the first one, each behind a comma. -/
def moreMembers (es : List (String × Json)) : List Char := es.flatMap fun e => ',' :: memberText e

theorem moreItems_cons (v : Json) (vs : List Json) :
    moreItems (v :: vs) = ',' :: (v.chars ++ moreItems vs) := by
  simp [moreItems]

theorem moreMembers_cons (name : String) (v : Json) (es : List (String × Json)) :
    moreMembers ((name, v) :: es) = ',' :: (quote name ++ ':' :: (v.chars ++ moreMembers es)) := by
  simp [moreMembers, memberText]

theorem itemChars_cons (v : Json) (vs : List Json) :
    itemChars (v :: vs) = v.chars ++ moreItems vs := by
  induction vs generalizing v with
  | nil => simp [itemChars, moreItems]
  | cons w vs ih => simp only [itemChars, ih, moreItems_cons]

theorem memberChars_cons (name : String) (v : Json) (es : List (String × Json)) :
    memberChars ((name, v) :: es) = quote name ++ ':' :: (v.chars ++ moreMembers es) := by
  induction es generalizing name v with
  | nil => simp [memberChars, moreMembers]
  | cons e es ih =>
    obtain ⟨name', w⟩ := e
    simp only [memberChars, ih, moreMembers_cons]

/-- The first character of the text of a value, with zero for every number. -/
def lead : Json → Char
  | null => 'n'
  | bool true => 't'
  | bool false => 'f'
  | number _ => '0'
  | string _ => '"'
  | array _ => '['
  | members _ => '{'

theorem chars_eq_cons (v : Json) :
    ∃ c cs, v.chars = c :: cs ∧ (if isNumberChar c then '0' else c) = v.lead := by
  cases v with
  | null => exact ⟨_, _, rfl, by decide⟩
  | bool b => cases b <;> exact ⟨_, _, rfl, by decide⟩
  | number n =>
    cases hchars : n.chars with
    | nil => exact absurd hchars n.chars_ne_nil
    | cons c cs =>
      have hc : isNumberChar c = true := List.all_eq_true.1 n.all_chars c (by simp [hchars])
      exact ⟨c, cs, hchars, if_pos hc⟩
  | string s => exact ⟨_, _, rfl, if_neg (by decide)⟩
  | array vs => exact ⟨_, _, rfl, if_neg (by decide)⟩
  | members es => exact ⟨_, _, rfl, if_neg (by decide)⟩

theorem lead_eq {v w : Json} {r r' : List Char} (h : v.chars ++ r = w.chars ++ r') :
    v.lead = w.lead := by
  obtain ⟨c, cs, hv, hlead⟩ := v.chars_eq_cons
  obtain ⟨d, ds, hw, hlead'⟩ := w.chars_eq_cons
  rw [hv, hw] at h
  have hcd : c = d := (List.cons.inj h).1
  rw [← hlead, ← hlead', hcd]

theorem lead_ne_bracket (v : Json) : v.lead ≠ ']' := by
  unfold lead
  split <;> decide

/-- No text of a value begins with the bracket that closes an array. -/
theorem chars_append_ne_bracket {v : Json} {r r' : List Char} (h : v.chars ++ r = ']' :: r') :
    False := by
  obtain ⟨c, cs, hv, hlead⟩ := v.chars_eq_cons
  rw [hv] at h
  obtain rfl : c = ']' := (List.cons.inj h).1
  exact v.lead_ne_bracket (hlead.symm.trans (if_neg (by decide)))

theorem stops_cons {c : Char} (hc : isNumberChar c = false) (r : List Char) : Stops (c :: r) := by
  rintro _ ⟨⟩
  exact hc

theorem stops_moreItems (vs : List Json) (r : List Char) : Stops (moreItems vs ++ ']' :: r) := by
  cases vs with
  | nil => exact stops_cons (by decide) _
  | cons v vs => exact stops_cons (by decide) _

theorem stops_moreMembers (es : List (String × Json)) (r : List Char) :
    Stops (moreMembers es ++ '}' :: r) := by
  cases es with
  | nil => exact stops_cons (by decide) _
  | cons e es => exact stops_cons (by decide) _

/-- Items in brackets may be read as if a comma stood in front of the first one too. -/
theorem moreItems_of_itemChars {vs ws : List Json} {r r' : List Char}
    (h : itemChars vs ++ ']' :: r = itemChars ws ++ ']' :: r') :
    moreItems vs ++ ']' :: r = moreItems ws ++ ']' :: r' := by
  cases vs with
  | nil =>
    cases ws with
    | nil => exact h
    | cons w ws =>
      rw [itemChars_cons, List.append_assoc] at h
      exact (chars_append_ne_bracket h.symm).elim
  | cons v vs =>
    cases ws with
    | nil =>
      rw [itemChars_cons, List.append_assoc] at h
      exact (chars_append_ne_bracket h).elim
    | cons w ws =>
      rw [itemChars_cons, itemChars_cons] at h
      rw [moreItems_cons, moreItems_cons, List.cons_append, List.cons_append, h]

theorem moreMembers_of_memberChars {es fs : List (String × Json)} {r r' : List Char}
    (h : memberChars es ++ '\x7d' :: r = memberChars fs ++ '\x7d' :: r') :
    moreMembers es ++ '\x7d' :: r = moreMembers fs ++ '\x7d' :: r' := by
  cases es with
  | nil =>
    cases fs with
    | nil => exact h
    | cons f fs =>
      rw [memberChars_cons, List.append_assoc] at h
      cases (List.cons.inj h).1
  | cons e es =>
    cases fs with
    | nil =>
      rw [memberChars_cons, List.append_assoc] at h
      cases (List.cons.inj h).1
    | cons f fs =>
      rw [memberChars_cons, memberChars_cons] at h
      rw [moreMembers_cons, moreMembers_cons, List.cons_append, List.cons_append, h]

-- The induction follows the values as they nest. It needs the rest of the text, since a number in
-- front of it ends only where the rest begins with a character that no number has.
mutual

/-- What is written in front of a text is determined by the text, up to the spelling of numbers. -/
theorem chars_append_inj (v w : Json) {r r' : List Char} (hr : Stops r) (hr' : Stops r')
    (h : v.chars ++ r = w.chars ++ r') : Alike v w ∧ r = r' := by
  have hlead : w.lead = v.lead := (lead_eq h).symm
  cases v with
  | null =>
    cases w with
    | null => exact ⟨.null, List.append_cancel_left h⟩
    | bool b => cases b <;> cases hlead
    | _ => cases hlead
  | bool b =>
    cases w with
    | bool c =>
      obtain rfl : c = b := by cases b <;> cases c <;> first | rfl | cases hlead
      exact ⟨.bool c, List.append_cancel_left h⟩
    | _ => cases b <;> cases hlead
  | number n =>
    cases w with
    | number n' =>
      obtain ⟨hchars, hrest⟩ := Number.chars_append_inj hr hr' h
      exact ⟨.number hchars, hrest⟩
    | bool b => cases b <;> cases hlead
    | _ => cases hlead
  | string s =>
    cases w with
    | string t =>
      obtain ⟨rfl, hrest⟩ := quote_append_inj h
      exact ⟨.string s, hrest⟩
    | bool b => cases b <;> cases hlead
    | _ => cases hlead
  | array vs =>
    cases w with
    | array ws =>
      have hitems : itemChars vs ++ ']' :: r = itemChars ws ++ ']' :: r' := by
        simpa [chars] using h
      obtain ⟨hvs, hrest⟩ := moreItems_append_inj vs ws (moreItems_of_itemChars hitems)
      exact ⟨.array hvs, hrest⟩
    | bool b => cases b <;> cases hlead
    | _ => cases hlead
  | members es =>
    cases w with
    | members fs =>
      have hmembers : memberChars es ++ '}' :: r = memberChars fs ++ '}' :: r' := by
        simpa [chars] using h
      obtain ⟨hes, hrest⟩ := moreMembers_append_inj es fs (moreMembers_of_memberChars hmembers)
      exact ⟨.members hes, hrest⟩
    | bool b => cases b <;> cases hlead
    | _ => cases hlead

theorem moreItems_append_inj (vs ws : List Json) {r r' : List Char}
    (h : moreItems vs ++ ']' :: r = moreItems ws ++ ']' :: r') : AlikeItems vs ws ∧ r = r' := by
  cases vs with
  | nil =>
    cases ws with
    | nil => exact ⟨.nil, (List.cons.inj h).2⟩
    | cons w ws => cases (List.cons.inj h).1
  | cons v vs =>
    cases ws with
    | nil => cases (List.cons.inj h).1
    | cons w ws =>
      rw [moreItems_cons, moreItems_cons] at h
      have hfirst : v.chars ++ (moreItems vs ++ ']' :: r) =
          w.chars ++ (moreItems ws ++ ']' :: r') := by
        simpa using h
      obtain ⟨hv, hmore⟩ :=
        chars_append_inj v w (stops_moreItems vs r) (stops_moreItems ws r') hfirst
      obtain ⟨hvs, hrest⟩ := moreItems_append_inj vs ws hmore
      exact ⟨.cons hv hvs, hrest⟩

theorem moreMembers_append_inj (es fs : List (String × Json)) {r r' : List Char}
    (h : moreMembers es ++ '\x7d' :: r = moreMembers fs ++ '\x7d' :: r') :
    AlikeMembers es fs ∧ r = r' := by
  cases es with
  | nil =>
    cases fs with
    | nil => exact ⟨.nil, (List.cons.inj h).2⟩
    | cons f fs => cases (List.cons.inj h).1
  | cons e es =>
    cases fs with
    | nil => cases (List.cons.inj h).1
    | cons f fs =>
      obtain ⟨name, v⟩ := e
      obtain ⟨name', w⟩ := f
      rw [moreMembers_cons, moreMembers_cons] at h
      have hfirst : quote name ++ ':' :: (v.chars ++ (moreMembers es ++ '\x7d' :: r)) =
          quote name' ++ ':' :: (w.chars ++ (moreMembers fs ++ '\x7d' :: r')) := by
        simpa using h
      obtain ⟨rfl, hvalue⟩ := quote_append_inj hfirst
      obtain ⟨hv, hmore⟩ := chars_append_inj v w (stops_moreMembers es r) (stops_moreMembers fs r')
        (List.cons.inj hvalue).2
      obtain ⟨hes, hrest⟩ := moreMembers_append_inj es fs hmore
      exact ⟨.cons name hv hes, hrest⟩

end

/-! ## Values of the same text -/

mutual

theorem Alike.chars_eq {v w : Json} (h : Alike v w) : v.chars = w.chars := by
  cases h with
  | null => rfl
  | bool b => rfl
  | number h => exact h
  | string s => rfl
  | array h =>
    cases h with
    | nil => rfl
    | cons h hs => simp only [chars, itemChars_cons, h.chars_eq, hs.more_eq]
  | members h =>
    cases h with
    | nil => rfl
    | cons name h hs => simp only [chars, memberChars_cons, h.chars_eq, hs.more_eq]

theorem AlikeItems.more_eq {vs ws : List Json} (h : AlikeItems vs ws) :
    moreItems vs = moreItems ws := by
  cases h with
  | nil => rfl
  | cons h hs => rw [moreItems_cons, moreItems_cons, h.chars_eq, hs.more_eq]

theorem AlikeMembers.more_eq {es fs : List (String × Json)} (h : AlikeMembers es fs) :
    moreMembers es = moreMembers fs := by
  cases h with
  | nil => rfl
  | cons name h hs => rw [moreMembers_cons, moreMembers_cons, h.chars_eq, hs.more_eq]

end

/-- Two values have the same text exactly if they are alike. -/
theorem text_eq_iff {v w : Json} : v.text = w.text ↔ Alike v w := by
  constructor
  · intro h
    have hchars : v.chars ++ [] = w.chars ++ [] := by
      rw [List.append_nil, List.append_nil]
      exact String.ofList_injective h
    exact (chars_append_inj v w (by rintro _ ⟨⟩) (by rintro _ ⟨⟩) hchars).1
  · intro h
    exact congrArg String.ofList h.chars_eq

/-- Alike objects hold alike values under the same names. -/
theorem AlikeMembers.get? {es fs : List (String × Json)} (h : AlikeMembers es fs) (name : String) :
    Option.Rel Alike (Entries.get? name es) (Entries.get? name fs) := by
  induction es generalizing fs with
  | nil =>
    cases h
    exact .none
  | cons e es ih =>
    cases h with
    | cons other h hs =>
      rw [Entries.get?_cons, Entries.get?_cons]
      split
      · exact .some h
      · exact ih hs

end DocumentDb.Json
