import DocumentDb.Json.Parser
import DocumentDb.Proofs.Json.Alike
import Mathlib.Data.Nat.Digits.Defs

/-! # Values read back from their texts

A text is read from the front, and the value in front of a text is the one that was written there if
nothing follows that belongs to a number. Of the numbers this holds for the integers: a
floating-point number is written shortest, and that its text leads back to it is not shown here.

* `Json.Ends`: a text that does not go on with a part of a numeral.
* `Json.scanNumeral_digits`, `Json.scanNumber_whole`: integers.
* `Json.Reads`: what a value is read back as.
* `Json.scanValue_chars`, `Json.parse?_text`: the value in front of a text, and the whole text.
-/

namespace DocumentDb.Json

/-! ## Numerals -/

/-- A text does not go on with a part of a numeral. -/
def Ends (rest : List Char) : Prop :=
  ∀ c ∈ rest.head?, c.isDigit = false ∧ c ≠ '.' ∧ c ≠ 'e' ∧ c ≠ 'E'

section
variable {ds rest : List Char} {n : Nat}

theorem scanDigits_append (hne : ds ≠ []) (hds : ∀ c ∈ ds, c.isDigit = true)
    (hrest : ∀ c ∈ rest.head?, c.isDigit = false) : scanDigits (ds ++ rest) = some (ds, rest) := by
  have hnone : rest.takeWhile Char.isDigit = [] ∧ rest.dropWhile Char.isDigit = rest := by
    cases rest with
    | nil => exact ⟨rfl, rfl⟩
    | cons c rest =>
      have hc : ¬ c.isDigit = true := by simp [hrest c rfl]
      exact ⟨List.takeWhile_cons_of_neg hc, List.dropWhile_cons_of_neg hc⟩
  unfold scanDigits
  rw [List.takeWhile_append_of_pos hds, List.dropWhile_append_of_pos hds, hnone.1, hnone.2,
    List.append_nil]
  simp [hne]

theorem Ends.scanFraction (h : Ends rest) : scanFraction rest = some (none, rest) := by
  unfold Json.scanFraction
  split
  · exact absurd rfl (h '.' rfl).2.1
  · rfl

theorem Ends.scanExponent (h : Ends rest) : scanExponent rest = some (none, rest) := by
  cases rest with
  | nil => rfl
  | cons c rest =>
    obtain ⟨-, -, he, hE⟩ := h c rfl
    simp [Json.scanExponent, he, hE]

/-- Only zero is written with a zero in front. -/
theorem head?_digits (hn : 0 < n) : (Numeral.digits n).head? ≠ some '0' := by
  induction n using Nat.strongRecOn with
  | ind n ih =>
    unfold Numeral.digits
    by_cases hlt : n < 10
    · rw [Nat.toDigits_of_lt_base hlt]
      have hsmall : ∀ d < 10, 0 < d → [Nat.digitChar d].head? ≠ some '0' := by decide
      exact hsmall n hlt hn
    · have hhead := ih (n / 10) (by omega) (by omega)
      rw [Nat.toDigits_of_base_le (by decide) (by omega), List.head?_append]
      unfold Numeral.digits at hhead
      cases hd : (Nat.toDigits 10 (n / 10)).head? with
      | none => exact absurd (List.head?_eq_none_iff.1 hd) (Numeral.digits_ne_nil (n / 10))
      | some d =>
        rw [hd] at hhead
        exact hhead

theorem scanNumeral_digits (n : Nat) (h : Ends rest) :
    scanNumeral (Numeral.digits n ++ rest) = some (⟨Numeral.digits n, none, none⟩, rest) := by
  have hdigits : scanDigits (Numeral.digits n ++ rest) = some (Numeral.digits n, rest) :=
    scanDigits_append (Numeral.digits_ne_nil n) (fun _ => Numeral.isDigit_of_mem_digits)
      fun c hc => (h c hc).1
  have hfirst : (Numeral.digits n).head? ≠ some '0' ∨ (Numeral.digits n).length = 1 := by
    rcases Nat.eq_zero_or_pos n with rfl | hn
    · exact .inr (by decide)
    · exact .inl (head?_digits hn)
  unfold scanNumeral
  rw [hdigits]
  simp only [Option.bind_eq_bind, Option.bind_some, guard, if_pos hfirst, h.scanFraction,
    h.scanExponent]
  rfl

theorem le_ofDigitChars (cs : List Char) (m : Nat) : m ≤ Nat.ofDigitChars 10 cs m := by
  induction cs generalizing m with
  | nil => exact Nat.le_refl m
  | cons c cs ih =>
    rw [Nat.ofDigitChars_cons]
    exact Nat.le_trans (by omega) (ih _)

theorem takeFitting_eq {m : Nat} {cs : List Char} (h : Nat.ofDigitChars 10 cs m ≤ Numeral.max64) :
    Spelling.takeFitting m cs = (Nat.ofDigitChars 10 cs m, []) := by
  induction cs generalizing m with
  | nil => rfl
  | cons c cs ih =>
    rw [Nat.ofDigitChars_cons] at h ⊢
    have hfits : 10 * m + (c.toNat - '0'.toNat) ≤ Numeral.max64 :=
      Nat.le_trans (le_ofDigitChars cs _) h
    unfold Spelling.takeFitting
    dsimp only
    rw [if_pos hfits, ih h]

/-- An integer that is written with its sign in front is read without loss. -/
theorem scanNumber_whole (negative : Bool) (hn : n ≤ Numeral.max64) (h : Ends rest) :
    scanNumber .strict negative (Numeral.digits n ++ rest) =
      some (Spelling.whole negative n, rest) := by
  have hvalue : Nat.ofDigitChars 10 (Numeral.digits n) 0 = n := Nat.ofDigitChars_ten_toDigits
  have htake : Spelling.takeFitting 0 (Numeral.digits n) = (n, []) := by
    rw [takeFitting_eq (by rw [hvalue]; exact hn), hvalue]
  have hspelled : Spelling.value? negative ⟨Numeral.digits n, none, none⟩ =
      some (Spelling.whole negative n) := by
    unfold Spelling.value?
    rw [htake]
    rfl
  unfold scanNumber
  rw [scanNumeral_digits n h]
  simp only [Option.bind_eq_bind, Option.bind_some, Rules.strict, if_true, hspelled]
  rfl

end

/-! ## What values are read back as -/

mutual

/-- A value that nests so deep at most is written and read back as another one, whose members are in
order. -/
inductive Reads : Nat → Json → Json → Prop
  | null {depth : Nat} : Reads depth null null
  | bool {depth : Nat} (b : Bool) : Reads depth (bool b) (bool b)
  | nat {depth n : Nat} (h : n ≤ Numeral.max64) :
      Reads depth (number (.nat n)) (number (.nat n))
  | neg {depth n : Nat} (hpos : 0 < n) (h : n ≤ Numeral.maxSigned64 + 1) :
      Reads depth (number (.neg n)) (number (.neg n))
  | string {depth : Nat} (s : String) : Reads depth (string s) (string s)
  | array {depth : Nat} {vs ws : List Json} (h : ReadsItems depth vs ws) :
      Reads (depth + 1) (array vs) (array ws)
  | members {depth : Nat} {es fs : List (String × Json)}
      (hname : ∀ e ∈ es.head?, e.1 ≠ embeddingName) (h : ReadsMembers depth es fs) :
      Reads (depth + 1) (members es) (object fs)

/-- The items of an array are read back as others. -/
inductive ReadsItems : Nat → List Json → List Json → Prop
  | nil {depth : Nat} : ReadsItems depth [] []
  | cons {depth : Nat} {v w : Json} {vs ws : List Json} (h : Reads depth v w)
      (hs : ReadsItems depth vs ws) : ReadsItems depth (v :: vs) (w :: ws)

/-- The members of an object are read back as others, in the order in which they are written. -/
inductive ReadsMembers : Nat → List (String × Json) → List (String × Json) → Prop
  | nil {depth : Nat} : ReadsMembers depth [] []
  | cons {depth : Nat} (name : String) {v w : Json} {es fs : List (String × Json)}
      (h : Reads depth v w) (hs : ReadsMembers depth es fs) :
      ReadsMembers depth ((name, v) :: es) ((name, w) :: fs)

end

/-! ## Reading -/

section
variable {rules : Rules} {fuel depth : Nat} {c : Char} {cs rest : List Char}

theorem ends_cons (hdigit : c.isDigit = false) (hc : c ≠ '.' ∧ c ≠ 'e' ∧ c ≠ 'E')
    (cs : List Char) : Ends (c :: cs) := by
  rintro _ ⟨⟩
  exact ⟨hdigit, hc⟩

theorem skipBlank_cons (h : isBlank c = false) : skipBlank (c :: cs) = c :: cs :=
  List.dropWhile_cons_of_neg (by simp [h])

theorem scanValue_array : scanValue rules (fuel + 1) (depth + 1) ('[' :: cs) =
    (scanItems rules fuel depth true cs).map fun (vs, rest) => (array vs, rest) := by
  rfl

theorem scanValue_members (h : embeds rules cs = false) :
    scanValue rules (fuel + 1) (depth + 1) ('\x7b' :: cs) =
      (scanMembers rules fuel depth true cs).map fun (es, rest) => (object es, rest) := by
  unfold scanValue
  rw [skipBlank_cons (by decide)]
  simp [h]

theorem scanValue_string (s : String) :
    scanValue rules (fuel + 1) depth (quote s ++ rest) = some (string s, rest) := by
  have hquote : quote s ++ rest = '"' :: (s.toList.flatMap escape ++ '"' :: rest) := by
    simp [quote]
  rw [hquote]
  show (scanString rules _).map _ = _
  rw [scanString_quoted]
  rfl

theorem scanValue_digit (h : c.isDigit = true) :
    scanValue rules (fuel + 1) depth (c :: cs) =
      (scanNumber rules false (c :: cs)).map fun (n, rest) => (number n, rest) := by
  have hne : ∀ d : Char, d.isDigit = false → c ≠ d := by
    rintro d hd rfl
    rw [h] at hd
    cases hd
  have hblank : isBlank c = false := by
    simp [isBlank, hne ' ' (by decide), hne '\t' (by decide), hne '\n' (by decide),
      hne '\r' (by decide)]
  unfold scanValue
  rw [skipBlank_cons hblank]
  simp [h, hne '"' (by decide), hne '[' (by decide), hne '\x7b' (by decide), hne '-' (by decide)]

theorem scanValue_nat {n : Nat} (hn : n ≤ Numeral.max64) (h : Ends rest) :
    scanValue .strict (fuel + 1) depth (Numeral.digits n ++ rest) =
      some (number (.nat n), rest) := by
  have hscan := scanNumber_whole false hn h
  cases hd : Numeral.digits n with
  | nil => exact absurd hd (Numeral.digits_ne_nil n)
  | cons d ds =>
    have hdigit : d.isDigit = true := Numeral.isDigit_of_mem_digits (hd ▸ List.mem_cons_self)
    rw [hd, List.cons_append] at hscan
    rw [List.cons_append, scanValue_digit hdigit, hscan]
    rfl

theorem scanValue_neg {n : Nat} (hpos : 0 < n) (hn : n ≤ Numeral.maxSigned64 + 1)
    (h : Ends rest) :
    scanValue .strict (fuel + 1) depth ('-' :: (Numeral.digits n ++ rest)) =
      some (number (.neg n), rest) := by
  have hmax : n ≤ Numeral.max64 := Nat.le_trans hn (by decide)
  have hwhole : Spelling.whole true n = .neg n := by simp [Spelling.whole, hpos, hn]
  show (scanNumber .strict true (Numeral.digits n ++ rest)).map _ = _
  rw [scanNumber_whole true hmax h, hwhole]
  rfl

/-! ### Items and members -/

theorem lead_not_blank (v : Json) : isBlank v.lead = false := by
  unfold lead
  split <;> decide

/-- The text of a value begins with no blank, and not as an array ends. -/
theorem exists_first (v : Json) : ∃ c cs, v.chars = c :: cs ∧ isBlank c = false ∧ c ≠ ']' := by
  obtain ⟨c, cs, hchars, hlead⟩ := v.chars_eq_cons
  refine ⟨c, cs, hchars, ?_⟩
  split at hlead
  · next hnumber =>
    have hne : ∀ d : Char, isNumberChar d = false → c ≠ d := by
      rintro d hd rfl
      rw [hnumber] at hd
      cases hd
    refine ⟨?_, hne ']' (by decide)⟩
    simp [isBlank, hne ' ' (by decide), hne '\t' (by decide), hne '\n' (by decide),
      hne '\r' (by decide)]
  · rw [hlead]
    exact ⟨v.lead_not_blank, v.lead_ne_bracket⟩

section
variable {first : Bool} {v w : Json} {vs : List Json} {name : String}
  {es : List (String × Json)}

theorem scanItems_cons (hv : scanValue rules fuel depth (v.chars ++ cs) = some (w, cs)) :
    scanItems rules (fuel + 1) depth first (v.chars ++ cs) =
      match skipBlank cs with
      | ']' :: rest => some ([w], rest)
      | ',' :: rest => do
        let (vs, rest) ← scanItems rules fuel depth false rest
        some (w :: vs, rest)
      | _ => none := by
  obtain ⟨c, more, hchars, hblank, hbracket⟩ := v.exists_first
  rw [hchars, List.cons_append] at hv ⊢
  conv_lhs => unfold scanItems
  rw [skipBlank_cons hblank]
  split
  · next heq =>
    cases heq
    exact absurd rfl hbracket
  · show (scanValue rules fuel depth _).bind _ = _
    rw [hv]
    rfl

theorem scanItems_last (hv : scanValue rules fuel depth (v.chars ++ ']' :: rest) =
    some (w, ']' :: rest)) :
    scanItems rules (fuel + 1) depth first (v.chars ++ ']' :: rest) = some ([w], rest) := by
  rw [scanItems_cons hv]
  rfl

theorem scanItems_more {ws : List Json}
    (hv : scanValue rules fuel depth (v.chars ++ ',' :: cs) = some (w, ',' :: cs))
    (hmore : scanItems rules fuel depth false cs = some (ws, rest)) :
    scanItems rules (fuel + 1) depth first (v.chars ++ ',' :: cs) = some (w :: ws, rest) := by
  rw [scanItems_cons hv]
  show (scanItems rules fuel depth false cs).bind _ = _
  rw [hmore]
  rfl

theorem scanMembers_cons (hv : scanValue rules fuel depth (v.chars ++ cs) = some (w, cs)) :
    scanMembers rules (fuel + 1) depth first (quote name ++ ':' :: (v.chars ++ cs)) =
      match skipBlank cs with
      | '\x7d' :: rest => some ([(name, w)], rest)
      | ',' :: rest => do
        let (es, rest) ← scanMembers rules fuel depth false rest
        some ((name, w) :: es, rest)
      | _ => none := by
  have hquote : quote name ++ ':' :: (v.chars ++ cs) =
      '"' :: (name.toList.flatMap escape ++ '"' :: ':' :: (v.chars ++ cs)) := by
    simp [quote]
  have hcolon : dropWord [':'] (skipBlank (':' :: (v.chars ++ cs))) = some (v.chars ++ cs) := by
    rw [skipBlank_cons (by decide)]
    rfl
  rw [hquote]
  conv_lhs => unfold scanMembers
  rw [skipBlank_cons (by decide)]
  cases first
  all_goals
    show (scanString rules _).bind _ = _
    rw [scanString_quoted, Option.bind_some]
    show (dropWord [':'] _).bind _ = _
    rw [hcolon, Option.bind_some]
    show (scanValue rules fuel depth _).bind _ = _
    rw [hv]
    rfl

theorem scanMembers_last (hv : scanValue rules fuel depth (v.chars ++ '\x7d' :: rest) =
    some (w, '\x7d' :: rest)) :
    scanMembers rules (fuel + 1) depth first (quote name ++ ':' :: (v.chars ++ '\x7d' :: rest)) =
      some ([(name, w)], rest) := by
  rw [scanMembers_cons hv]
  rfl

theorem scanMembers_more (hv : scanValue rules fuel depth (v.chars ++ ',' :: cs) =
    some (w, ',' :: cs)) (hmore : scanMembers rules fuel depth false cs = some (es, rest)) :
    scanMembers rules (fuel + 1) depth first (quote name ++ ':' :: (v.chars ++ ',' :: cs)) =
      some ((name, w) :: es, rest) := by
  rw [scanMembers_cons hv]
  show (scanMembers rules fuel depth false cs).bind _ = _
  rw [hmore]
  rfl

end

/-- An object whose first member has another name does not embed a text. -/
theorem embeds_eq_false {es : List (String × Json)} (h : ∀ e ∈ es.head?, e.1 ≠ embeddingName) :
    embeds rules (memberChars es ++ '\x7d' :: rest) = false := by
  have hbrace : skipBlank ('\x7d' :: rest) = '\x7d' :: rest := skipBlank_cons (by decide)
  unfold embeds firstName?
  cases es with
  | nil =>
    show (rules.checked && (dropWord ['"'] (skipBlank ('\x7d' :: rest)) >>= _) == _) = false
    rw [hbrace]
    simp [dropWord]
  | cons e es =>
    obtain ⟨name, v⟩ := e
    have hquote : memberChars ((name, v) :: es) ++ '\x7d' :: rest = '"' ::
        (name.toList.flatMap escape ++
          '"' :: ':' :: (v.chars ++ (moreMembers es ++ '\x7d' :: rest))) := by
      simp [memberChars_cons, quote]
    rw [hquote, skipBlank_cons (by decide)]
    have hother : name ≠ embeddingName := h (name, v) rfl
    simp [dropWord, scanString_quoted, hother]

end

-- The induction follows the values as they nest, and the fuel is at least as long as what is read.
mutual

/-- The value in front of a text is read, with the rest of the text. -/
theorem scanValue_chars {depth fuel : Nat} {v w : Json} (h : Reads depth v w)
    (hfuel : v.chars.length ≤ fuel) {rest : List Char} (hrest : Ends rest) :
    scanValue .strict fuel depth (v.chars ++ rest) = some (w, rest) := by
  have hlen : 0 < v.chars.length := by
    obtain ⟨c, cs, hchars, -⟩ := v.exists_first
    rw [hchars]
    exact Nat.zero_lt_succ _
  obtain ⟨fuel, rfl⟩ : ∃ k, fuel = k + 1 := ⟨fuel - 1, by omega⟩
  cases h with
  | null => rfl
  | bool b => cases b <;> rfl
  | nat h => exact scanValue_nat h hrest
  | neg hpos h => exact scanValue_neg hpos h hrest
  | string s => exact scanValue_string s
  | @array depth vs ws h =>
    cases vs with
    | nil =>
      cases h
      cases fuel with
      | zero => simp [chars] at hfuel
      | succ fuel => rfl
    | cons v vs =>
      cases ws with
      | nil => cases h
      | cons w ws =>
        have htext : (array (v :: vs)).chars ++ rest =
            '[' :: (v.chars ++ (moreItems vs ++ ']' :: rest)) := by
          simp [chars, itemChars_cons]
        have hlong : v.chars.length + (moreItems vs).length + 1 ≤ fuel := by
          simp only [chars, itemChars_cons, List.length_append, List.length_cons,
            List.length_nil] at hfuel
          omega
        rw [htext, scanValue_array, scanItems_chars h true hlong]
        rfl
  | @members depth es fs hname h =>
    cases h with
    | nil =>
      cases fuel with
      | zero => simp [chars, memberChars] at hfuel
      | succ fuel => rfl
    | @cons _ name v w es fs h hs =>
      have htext : (members ((name, v) :: es)).chars ++ rest =
          '\x7b' :: (memberChars ((name, v) :: es) ++ '\x7d' :: rest) := by
        simp [chars]
      have hlong : (quote name).length + v.chars.length + (moreMembers es).length + 1 ≤ fuel := by
        simp only [chars, memberChars_cons, List.length_append, List.length_cons,
          List.length_nil] at hfuel
        omega
      have hread : scanMembers .strict fuel depth true
          (memberChars ((name, v) :: es) ++ '\x7d' :: rest) = some ((name, w) :: fs, rest) := by
        rw [memberChars_cons, List.append_assoc, List.cons_append, List.append_assoc]
        exact scanMembers_chars (.cons name h hs) true hlong
      rw [htext, scanValue_members (embeds_eq_false hname), hread]
      rfl
termination_by fuel

/-- The items in front of the bracket that closes an array are read. -/
theorem scanItems_chars {depth fuel : Nat} {v w : Json} {vs ws : List Json}
    (h : ReadsItems depth (v :: vs) (w :: ws)) (first : Bool)
    (hfuel : v.chars.length + (moreItems vs).length + 1 ≤ fuel) {rest : List Char} :
    scanItems .strict fuel depth first (v.chars ++ (moreItems vs ++ ']' :: rest)) =
      some (w :: ws, rest) := by
  obtain ⟨fuel, rfl⟩ : ∃ k, fuel = k + 1 := ⟨fuel - 1, by omega⟩
  cases h with
  | cons h hs =>
    cases vs with
    | nil =>
      cases hs
      exact scanItems_last (scanValue_chars h (by omega) (ends_cons (by decide) (by decide) _))
    | cons v' vs =>
      cases ws with
      | nil => cases hs
      | cons w' ws =>
        rw [moreItems_cons, List.length_cons, List.length_append] at hfuel
        have hmore : scanItems .strict fuel depth false
            (v'.chars ++ (moreItems vs ++ ']' :: rest)) = some (w' :: ws, rest) :=
          scanItems_chars hs false (by omega)
        have hv : scanValue .strict fuel depth
            (v.chars ++ ',' :: (v'.chars ++ (moreItems vs ++ ']' :: rest))) =
              some (w, ',' :: (v'.chars ++ (moreItems vs ++ ']' :: rest))) :=
          scanValue_chars h (by omega) (ends_cons (by decide) (by decide) _)
        rw [moreItems_cons, List.cons_append, List.append_assoc]
        exact scanItems_more hv hmore
termination_by fuel

/-- The members in front of the brace that closes an object are read. -/
theorem scanMembers_chars {depth fuel : Nat} {name : String} {v w : Json}
    {es fs : List (String × Json)} (h : ReadsMembers depth ((name, v) :: es) ((name, w) :: fs))
    (first : Bool)
    (hfuel : (quote name).length + v.chars.length + (moreMembers es).length + 1 ≤ fuel)
    {rest : List Char} :
    scanMembers .strict fuel depth first
        (quote name ++ ':' :: (v.chars ++ (moreMembers es ++ '\x7d' :: rest))) =
      some ((name, w) :: fs, rest) := by
  obtain ⟨fuel, rfl⟩ : ∃ k, fuel = k + 1 := ⟨fuel - 1, by omega⟩
  cases h with
  | cons _ h hs =>
    cases hs with
    | nil =>
      exact scanMembers_last (scanValue_chars h (by omega) (ends_cons (by decide) (by decide) _))
    | @cons _ name' v' w' es fs h' hs' =>
      rw [moreMembers_cons] at hfuel
      simp only [List.length_cons, List.length_append] at hfuel
      have hmore : scanMembers .strict fuel depth false
          (quote name' ++ ':' :: (v'.chars ++ (moreMembers es ++ '\x7d' :: rest))) =
            some ((name', w') :: fs, rest) :=
        scanMembers_chars (.cons name' h' hs') false (by omega)
      have hv : scanValue .strict fuel depth (v.chars ++ ',' ::
          (quote name' ++ ':' :: (v'.chars ++ (moreMembers es ++ '\x7d' :: rest)))) =
            some (w, ',' ::
              (quote name' ++ ':' :: (v'.chars ++ (moreMembers es ++ '\x7d' :: rest)))) :=
        scanValue_chars h (by omega) (ends_cons (by decide) (by decide) _)
      have htext : moreMembers ((name', v') :: es) ++ '\x7d' :: rest =
          ',' :: (quote name' ++ ':' :: (v'.chars ++ (moreMembers es ++ '\x7d' :: rest))) := by
        simp [moreMembers_cons]
      rw [htext]
      exact scanMembers_more hv hmore
termination_by fuel

end

/-- A whole text is read back. -/
theorem parse?_text {v w : Json} (h : Reads Rules.strict.depth v w) : parse? v.text = some w := by
  have hends : Ends [] := by rintro _ ⟨⟩
  have hfuel : v.chars.length ≤ fuelFor v.chars := by
    unfold fuelFor
    omega
  have hread := scanValue_chars h hfuel hends
  rw [List.append_nil] at hread
  unfold parse? parseChars? text
  rw [String.toList_ofList, hread]
  rfl

end DocumentDb.Json
