import DocumentDb.Auth.Basic

/-! # Which header fields hold a name and a password

A header field holds credentials in one way only, but for the case of the scheme and for blanks
around the encoded pair. The name ends at the first colon, so it has none; the password may.

* `Text.trimBlank_eq_iff`: what is left of a text without the blanks around it.
* `Credentials.InHeader`: the value of a header field that holds credentials.
* `Credentials.ofHeader?_eq_some_iff`: they are read exactly there.
-/

namespace DocumentDb

namespace Text

variable {cs before core after : List Char}

theorem dropWhile_append (hbefore : ∀ c ∈ before, isBlank c = true)
    (hcore : ∀ c ∈ core, isBlank c = false) (hne : core ≠ []) (after : List Char) :
    (before ++ core ++ after).dropWhile isBlank = core ++ after := by
  rw [List.append_assoc, List.dropWhile_append_of_pos hbefore]
  cases core with
  | nil => exact absurd rfl hne
  | cons c core =>
    have hc : ¬ isBlank c = true := by simp [hcore c List.mem_cons_self]
    rw [List.cons_append, List.dropWhile_cons_of_neg hc]

theorem trimBlank_append (hbefore : ∀ c ∈ before, isBlank c = true)
    (hafter : ∀ c ∈ after, isBlank c = true) (hcore : ∀ c ∈ core, isBlank c = false)
    (hne : core ≠ []) : trimBlank (before ++ core ++ after) = core := by
  have hreverse : (core ++ after).reverse.dropWhile isBlank = core.reverse := by
    have hdropped : (after.reverse ++ core.reverse ++ []).dropWhile isBlank = core.reverse ++ [] :=
      dropWhile_append (by simpa using hafter) (by simpa using hcore) (by simpa using hne) []
    simpa using hdropped
  unfold trimBlank
  rw [dropWhile_append hbefore hcore hne, hreverse, List.reverse_reverse]

theorem exists_trimBlank (cs : List Char) : ∃ before after, cs = before ++ trimBlank cs ++ after ∧
    (∀ c ∈ before, isBlank c = true) ∧ ∀ c ∈ after, isBlank c = true := by
  let rest := (cs.dropWhile isBlank).reverse
  refine ⟨cs.takeWhile isBlank, (rest.takeWhile isBlank).reverse, ?_, ?_, ?_⟩
  · have hrest : (rest.dropWhile isBlank).reverse ++ (rest.takeWhile isBlank).reverse =
        cs.dropWhile isBlank := by
      rw [← List.reverse_append, List.takeWhile_append_dropWhile, List.reverse_reverse]
    show cs = cs.takeWhile isBlank ++ (rest.dropWhile isBlank).reverse ++ _
    rw [List.append_assoc, hrest, List.takeWhile_append_dropWhile]
  · exact List.all_eq_true.1 List.all_takeWhile
  · intro c hc
    exact List.all_eq_true.1 List.all_takeWhile c (List.mem_reverse.1 hc)

theorem trimBlank_eq_iff (hcore : ∀ c ∈ core, isBlank c = false) (hne : core ≠ []) :
    trimBlank cs = core ↔ ∃ before after, cs = before ++ core ++ after ∧
      (∀ c ∈ before, isBlank c = true) ∧ ∀ c ∈ after, isBlank c = true := by
  constructor
  · rintro rfl
    exact exists_trimBlank cs
  · rintro ⟨before, after, rfl, hbefore, hafter⟩
    exact trimBlank_append hbefore hafter hcore hne

end Text

namespace Credentials

variable {c : Credentials} {value text : String} {x : Char} {bytes : List UInt8}

theorem ofPair?_eq_some_iff :
    ofPair? text = some c ↔ text = c.username ++ ":" ++ c.password ∧ ':' ∉ c.username.toList := by
  have hpair : ofPair? text = some c ↔
      Text.cut ':' text.toList = (c.username.toList, some c.password.toList) := by
    unfold ofPair?
    split
    · next part hcut => simp [hcut]
    · next name password hcut =>
      rw [hcut]
      constructor
      · intro h
        obtain rfl := Option.some.inj h
        simp
      · intro h
        obtain ⟨rfl, hpassword⟩ := Prod.mk.inj h
        obtain rfl := Option.some.inj hpassword
        simp
  have htext : text = c.username ++ ":" ++ c.password ↔
      text.toList = c.username.toList ++ ':' :: c.password.toList := by
    rw [← String.toList_inj]
    simp
  rw [hpair, Text.cut_eq_some_iff, htext]

theorem bind_guard_eq_some_iff {α : Type} {p : Prop} [Decidable p] {f : Unit → Option α} {a : α} :
    (guard p >>= f) = some a ↔ p ∧ f () = some a := by
  show ((if p then some () else none : Option Unit).bind f) = some a ↔ _
  by_cases hp : p <;> simp [hp]

theorem ofHeader?_eq_some : ofHeader? value = some c ↔
    value.toList.all isVisible = true ∧
      ∃ scheme encoded, Text.cut ' ' value.toList = (scheme, some encoded) ∧
        scheme.map Request.foldCase = "basic".toList ∧
        ∃ bytes, Base64.decode? (Text.trimBlank encoded) = some bytes ∧
        ∃ text, Utf8.decode? bytes = some text ∧ ofPair? text = some c := by
  unfold ofHeader?
  obtain ⟨scheme, encoded⟩ := Text.cut ' ' value.toList
  rw [bind_guard_eq_some_iff]
  refine and_congr_right fun _ => ?_
  cases encoded with
  | none =>
    constructor
    · intro h
      cases h
    · rintro ⟨scheme', encoded, h, -⟩
      cases h
  | some encoded =>
    have hrest : ∀ bytes : Option (List UInt8),
        (bytes.bind fun bytes => (Utf8.decode? bytes).bind ofPair?) = some c ↔
          ∃ b, bytes = some b ∧ ∃ text, Utf8.decode? b = some text ∧ ofPair? text = some c := by
      intro bytes
      simp only [Option.bind_eq_some_iff]
    refine (bind_guard_eq_some_iff.trans (and_congr_right fun _ => hrest _)).trans ?_
    constructor
    · rintro ⟨hscheme, hfound⟩
      exact ⟨scheme, encoded, rfl, hscheme, hfound⟩
    · rintro ⟨scheme', encoded', hcut, hscheme, hfound⟩
      cases hcut
      exact ⟨hscheme, hfound⟩

/-! ## Characters -/

theorem visible_of_foldCase (h : Request.foldCase x ∈ "basic".toList) :
    isVisible x = true ∧ x ≠ ' ' := by
  unfold Request.foldCase at h
  split at h
  · next hupper =>
    have hlow : 65 ≤ x.toNat := hupper.1
    have hhigh : x.toNat ≤ 90 := hupper.2
    refine ⟨?_, ?_⟩
    · have hrange : 0x20 ≤ x.toNat ∧ x.toNat < 0x7F := by omega
      simp [isVisible, hrange]
    · rintro rfl
      exact absurd hlow (by decide)
  · have hletters : ("basic".toList.all fun x => isVisible x && x != ' ') = true := by decide
    simpa using List.all_eq_true.1 hletters x h

theorem visible_and_blank_iff :
    isVisible x = true ∧ Text.isBlank x = true ↔ x = ' ' ∨ x = '\t' := by
  constructor
  · rintro ⟨hvisible, hblank⟩
    have hx : x = Char.ofNat x.toNat := (Char.ofNat_toNat x).symm
    unfold isVisible at hvisible
    rw [Bool.or_eq_true, beq_iff_eq] at hvisible
    rcases hvisible with hrange | htab
    · left
      have hspace : x.toNat = 0x20 := by
        simp only [Text.isBlank, Bool.and_eq_true, Bool.or_eq_true, decide_eq_true_eq,
          beq_iff_eq] at hrange hblank
        omega
      rw [hx, hspace]
    · exact .inr htab
  · rintro (rfl | rfl) <;> decide

/-- The characters of an encoding can be seen and are no blanks. -/
theorem visible_encode (bytes : List UInt8) :
    ∀ x ∈ Base64.encode bytes, isVisible x = true ∧ Text.isBlank x = false :=
  Base64.forall_mem_encode (by decide +kernel) (by decide) bytes

/-! ## The whole value -/

/-- The characters of a pair. -/
def payload (c : Credentials) : List Char :=
  Base64.encode (Utf8.encode (c.username ++ ":" ++ c.password))

/-- A value of a header field that holds credentials: the scheme in any case, a space, and the pair
in Base64 between spaces and tabs. The name has no colon. -/
def InHeader (c : Credentials) (value : String) : Prop :=
  ∃ scheme before after, value.toList = scheme ++ ' ' :: (before ++ c.payload ++ after) ∧
    scheme.map Request.foldCase = "basic".toList ∧
    (∀ x ∈ before, x = ' ' ∨ x = '\t') ∧ (∀ x ∈ after, x = ' ' ∨ x = '\t') ∧
    ':' ∉ c.username.toList

theorem payload_ne_nil (c : Credentials) : c.payload ≠ [] := by
  intro hnil
  have hbytes : some (Utf8.encode (c.username ++ ":" ++ c.password)) = some [] := by
    rw [← Base64.decode?_encode]
    exact congrArg Base64.decode? hnil
  have htext : some (c.username ++ ":" ++ c.password) = some "" := by
    rw [← Utf8.decode?_encode, Option.some.inj hbytes]
    rfl
  have hchars := congrArg String.toList (Option.some.inj htext)
  simp at hchars

theorem decode_trimBlank_iff {encoded : List Char} :
    (∃ bytes, Base64.decode? (Text.trimBlank encoded) = some bytes ∧
      ∃ text, Utf8.decode? bytes = some text ∧ ofPair? text = some c) ↔
    Text.trimBlank encoded = c.payload ∧ ':' ∉ c.username.toList := by
  simp only [Base64.decode?_eq_some_iff, Utf8.decode?_eq_some_iff, ofPair?_eq_some_iff]
  constructor
  · rintro ⟨bytes, hencoded, text, rfl, rfl, hcolon⟩
    exact ⟨hencoded, hcolon⟩
  · rintro ⟨hencoded, hcolon⟩
    exact ⟨_, hencoded, _, rfl, rfl, hcolon⟩

theorem ofHeader?_eq_some_iff : ofHeader? value = some c ↔ c.InHeader value := by
  have htrim : ∀ encoded, Text.trimBlank encoded = c.payload ↔ _ := fun encoded =>
    Text.trimBlank_eq_iff (fun x hx => (visible_encode _ x hx).2) c.payload_ne_nil
  rw [ofHeader?_eq_some]
  simp only [decode_trimBlank_iff, htrim, Text.cut_eq_some_iff]
  constructor
  · -- Other blanks than spaces and tabs cannot be seen, so the whole value is refused.
    rintro ⟨hvisible, scheme, encoded, ⟨hvalue, -⟩, hscheme, ⟨before, after, rfl, hbefore, hafter⟩,
      hcolon⟩
    rw [List.all_eq_true] at hvisible
    refine ⟨scheme, before, after, hvalue, hscheme, fun x hx => ?_, fun x hx => ?_, hcolon⟩
    · exact visible_and_blank_iff.1 ⟨hvisible x (by simp [hvalue, hx]), hbefore x hx⟩
    · exact visible_and_blank_iff.1 ⟨hvisible x (by simp [hvalue, hx]), hafter x hx⟩
  · rintro ⟨scheme, before, after, hvalue, hscheme, hbefore, hafter, hcolon⟩
    have hletters : ∀ x ∈ scheme, isVisible x = true ∧ x ≠ ' ' := fun x hx =>
      visible_of_foldCase (hscheme ▸ List.mem_map_of_mem hx)
    have hblank : ∀ {xs : List Char}, (∀ x ∈ xs, x = ' ' ∨ x = '\t') →
        ∀ x ∈ xs, isVisible x = true ∧ Text.isBlank x = true := fun h x hx =>
      visible_and_blank_iff.2 (h x hx)
    refine ⟨?_, scheme, _, ⟨hvalue, fun h => (hletters _ h).2 rfl⟩, hscheme,
      ⟨before, after, rfl, fun x hx => (hblank hbefore x hx).2,
        fun x hx => (hblank hafter x hx).2⟩, hcolon⟩
    rw [List.all_eq_true, hvalue]
    simp only [List.forall_mem_append, List.forall_mem_cons]
    exact ⟨fun x hx => (hletters x hx).1, by decide,
      ⟨fun x hx => (hblank hbefore x hx).1, fun x hx => (visible_encode _ x hx).1⟩,
      fun x hx => (hblank hafter x hx).1⟩

end Credentials

end DocumentDb
