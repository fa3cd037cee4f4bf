import DocumentDb.Proofs.Json.Plain
import DocumentDb.Revision.Hash

/-! # What a revision stands for

The hash of an edit is taken from three parts, which are put one after the other with a zero byte in
between. Nothing tells how long a part is, and the parent's text may hold zero bytes itself; but the
text of the body holds no control character, so the flag is the last one in the whole.

* `Revision.text_injective`: revisions are told apart by their texts.
* `Revision.preimage_eq_iff`: edits of the same bytes.
* `Revision.compute_unique`: edits of the same revision.
-/

namespace DocumentDb

theorem Utf8.encode_injective : Function.Injective Utf8.encode := by
  intro s t h
  have hs := Utf8.decode?_encode s
  rw [h, Utf8.decode?_encode] at hs
  exact (Option.some.inj hs).symm

namespace Revision

/-! ## Parents -/

theorem text_injective : Function.Injective text := by
  intro r r' h
  have hcut : ∀ r : Revision, Text.cut '-' r.text.toList =
      (Numeral.digits r.generation, some r.hash.toList) := by
    intro r
    rw [toList_text, Text.cut_append (dash_not_mem_digits _)]
  have hsame := hcut r
  rw [h, hcut r'] at hsame
  obtain ⟨hdigits, hhash⟩ := Prod.mk.inj hsame
  have hgeneration : some r'.generation = some r.generation := by
    rw [← Numeral.ofDigits?_digits, hdigits, Numeral.ofDigits?_digits]
  cases r with
  | mk generation hash =>
    cases r' with
    | mk generation' hash' =>
      cases hgeneration
      cases String.toList_injective (Option.some.inj hhash)
      rfl

/-- The characters of the parent's text; none for a first edit. -/
def parentChars (parent : Option Revision) : List Char :=
  (parent.map fun p => p.text.toList).getD []

theorem parentChars_injective : Function.Injective parentChars := by
  have hne : ∀ r : Revision, r.text.toList ≠ [] := by
    intro r
    simp [toList_text]
  intro p p' h
  cases p with
  | none =>
    cases p' with
    | none => rfl
    | some r' => exact absurd h.symm (hne r')
  | some r =>
    cases p' with
    | none => exact absurd h (hne r)
    | some r' => rw [text_injective (String.toList_injective h)]

/-! ## The whole -/

/-- The character of the flag. -/
def flagChar (deleted : Bool) : Char := if deleted then '\x01' else '\x00'

/-- The characters of the bytes that are hashed. -/
def written (parent : Option Revision) (deleted : Bool) (body : Json) : List Char :=
  parentChars parent ++ '\x00' :: flagChar deleted :: body.chars

theorem preimage_eq_encode (parent : Option Revision) (deleted : Bool) (body : Json) :
    preimage parent deleted body = Utf8.encode (String.ofList (written parent deleted body)) := by
  have hparent : (parent.map fun p => Utf8.encode p.text).getD [] =
      Utf8.encode (String.ofList (parentChars parent)) := by
    cases parent with
    | none => rfl
    | some p => simp [parentChars]
  have hflag : Utf8.encode (String.ofList ['\x00', flagChar deleted]) =
      [0, if deleted then 1 else 0] := by
    cases deleted <;> decide
  have hwhole : String.ofList (written parent deleted body) =
      String.ofList (parentChars parent) ++
        (String.ofList ['\x00', flagChar deleted] ++ body.text) := by
    rw [Json.text, ← String.ofList_append, ← String.ofList_append]
    rfl
  unfold preimage
  rw [hwhole, Utf8.encode_append, Utf8.encode_append, hflag, hparent]
  rfl

/-- The last of the marked characters in a text splits it in one way alone. -/
theorem append_cons_inj {α : Type} (marked : α → Bool) {x x' z z' : List α} {a a' : α}
    (ha : marked a = true) (ha' : marked a' = true) (hz : ∀ b ∈ z, marked b = false)
    (hz' : ∀ b ∈ z', marked b = false) (h : x ++ a :: z = x' ++ a' :: z') :
    x = x' ∧ a = a' ∧ z = z' := by
  have hnot : ∀ {a : α} {z y : List α}, marked a = true → (∀ b ∈ z, marked b = false) →
      ∀ c, z ≠ c ++ a :: y := by
    rintro a z y ha hz c rfl
    have hfalse := hz a (by simp)
    rw [ha] at hfalse
    cases hfalse
  obtain ⟨y, hx, hy⟩ | ⟨y, hx, hy⟩ := List.append_eq_append_iff.1 h
  · cases y with
    | nil =>
      obtain ⟨haa, hzz⟩ := List.cons.inj hy
      exact ⟨by rw [hx, List.append_nil], haa, hzz⟩
    | cons b y => exact absurd (List.cons.inj hy).2 (hnot ha' hz y)
  · cases y with
    | nil =>
      obtain ⟨haa, hzz⟩ := List.cons.inj hy
      exact ⟨by rw [hx, List.append_nil], haa.symm, hzz.symm⟩
    | cons b y => exact absurd (List.cons.inj hy).2 (hnot ha hz' y)

theorem written_inj {p p' : Option Revision} {d d' : Bool} {v v' : Json}
    (h : written p d v = written p' d' v') : p = p' ∧ d = d' ∧ v.chars = v'.chars := by
  -- The flag is the last character that is not plain, whatever the parent's text holds.
  have hcontrol : ∀ d, (!Json.isPlain (flagChar d)) = true := by decide
  have hplain : ∀ v : Json, ∀ c ∈ v.chars, (!Json.isPlain c) = false := by
    intro v c hc
    rw [List.all_eq_true.1 v.plain_chars c hc]
    rfl
  have hzero : (parentChars p ++ ['\x00']) ++ flagChar d :: v.chars =
      (parentChars p' ++ ['\x00']) ++ flagChar d' :: v'.chars := by
    simpa [written] using h
  obtain ⟨hparents, hflags, hbodies⟩ :=
    append_cons_inj (fun c => !Json.isPlain c) (hcontrol d) (hcontrol d') (hplain v) (hplain v')
      hzero
  have hd : d = d' := by
    cases d <;> cases d' <;> first | rfl | exact absurd hflags (by decide)
  exact ⟨parentChars_injective (List.append_cancel_right hparents), hd, hbodies⟩

/-- The same bytes are hashed exactly for the same parent, the same flag and alike bodies. -/
theorem preimage_eq_iff {p p' : Option Revision} {d d' : Bool} {v v' : Json} :
    preimage p d v = preimage p' d' v' ↔ p = p' ∧ d = d' ∧ v.Alike v' := by
  rw [preimage_eq_encode, preimage_eq_encode]
  constructor
  · intro h
    have hwritten := String.ofList_injective (Utf8.encode_injective h)
    obtain ⟨hp, hd, hchars⟩ := written_inj hwritten
    exact ⟨hp, hd, Json.text_eq_iff.1 (congrArg String.ofList hchars)⟩
  · rintro ⟨rfl, rfl, hv⟩
    rw [written, written, hv.chars_eq]

/-! ## The hash -/

theorem hex_ofBytes_injective : Function.Injective Hex.ofBytes := by
  have hdigit : ∀ m < 16, ∀ n < 16, Hex.digit m = Hex.digit n → m = n := by decide
  intro bs bs' h
  induction bs generalizing bs' with
  | nil =>
    cases bs' with
    | nil => rfl
    | cons b' bs' => cases h
  | cons b bs ih =>
    cases bs' with
    | nil => cases h
    | cons b' bs' =>
      have hcons : Hex.digit (b.toNat / 16) :: Hex.digit (b.toNat % 16) :: Hex.ofBytes bs =
          Hex.digit (b'.toNat / 16) :: Hex.digit (b'.toNat % 16) :: Hex.ofBytes bs' := h
      obtain ⟨hhigh, htail⟩ := List.cons.inj hcons
      obtain ⟨hlow, hrest⟩ := List.cons.inj htail
      have hb : b.toNat < 256 := b.toNat_lt
      have hb' : b'.toNat < 256 := b'.toNat_lt
      have hquotient := hdigit _ (by omega) _ (by omega) hhigh
      have hremainder := hdigit _ (by omega) _ (by omega) hlow
      have hbyte : b = b' := UInt8.toNat_inj.1 (by omega)
      rw [hbyte, ih hrest]

/-- The bytes of a digest that a hash keeps. -/
def kept (bytes : List UInt8) : List UInt8 := (Sha256.digest bytes).take hashBytes

theorem hashOf_eq_iff {x y : List UInt8} : hashOf x = hashOf y ↔ kept x = kept y := by
  constructor
  · intro h
    exact hex_ofBytes_injective (String.ofList_injective h)
  · intro h
    exact congrArg (fun bs => String.ofList (Hex.ofBytes bs)) h

/-- The bytes that are hashed determine the edit, so two edits get the same revision only if they
are the same, or if two different texts agree in the part of the digest that is kept. -/
theorem compute_unique (p p' : Option Revision) (d d' : Bool) (v v' : Json) :
    (preimage p d v = preimage p' d' v' ↔ p = p' ∧ d = d' ∧ v.Alike v') ∧
      ∀ r, compute p d v = .ok r → compute p' d' v' = .ok r →
        (p = p' ∧ d = d' ∧ v.Alike v') ∨
          (preimage p d v ≠ preimage p' d' v' ∧
            kept (preimage p d v) = kept (preimage p' d' v')) := by
  refine ⟨preimage_eq_iff, fun r h h' => ?_⟩
  have hhash : ∀ {p d v}, compute p d v = .ok r → hashOf (preimage p d v) = r.hash := by
    intro p d v h
    unfold compute at h
    cases hgeneration : childGeneration p with
    | error e =>
      rw [hgeneration] at h
      cases h
    | ok generation =>
      rw [hgeneration] at h
      cases h
      rfl
  have hkept : kept (preimage p d v) = kept (preimage p' d' v') := by
    rw [← hashOf_eq_iff, hhash h, hhash h']
  by_cases hsame : preimage p d v = preimage p' d' v'
  · exact .inl (preimage_eq_iff.1 hsame)
  · exact .inr ⟨hsame, hkept⟩

end Revision

end DocumentDb
