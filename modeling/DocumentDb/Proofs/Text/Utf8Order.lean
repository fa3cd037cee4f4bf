import DocumentDb.Text.Utf8
import Mathlib.Tactic.ByContra
import Mathlib.Tactic.SplitIfs

/-! # The order of texts and of their bytes

UTF-8 keeps the order: the bytes of a text are before those of another exactly if the text is. Where
two texts first differ, the bytes of the two characters differ too, and neither is the beginning of
the other.

* `Utf8.Diverges`: two lists differ at a common place, and how that orders them.
* `Utf8.diverges_encodeChar`: the bytes of two characters.
* `Utf8.encode_lt_encode_iff`: the bytes of two texts.
-/

namespace DocumentDb.Utf8

/-- Two lists have a first place where they differ, and the first list has the lesser element
there. -/
def Diverges {α : Type} [LT α] : List α → List α → Prop
  | a :: as, b :: bs => a < b ∨ a = b ∧ Diverges as bs
  | _, _ => False

theorem Diverges.append_lt {α : Type} [LT α] {as bs : List α} (h : Diverges as bs)
    (xs ys : List α) : as ++ xs < bs ++ ys := by
  induction as generalizing bs with
  | nil => cases h
  | cons a as ih =>
    cases bs with
    | nil => cases h
    | cons b bs => exact List.cons_lt_cons_iff.2 (h.imp_right fun h => ⟨h.1, ih h.2⟩)

/-! ## Characters -/

/-- The greater one of two numbers below has the greater digit where their digits to the base 64
first differ. -/
theorem digits_of_lt {m n : Nat} (h : m < n) :
    m / 262144 < n / 262144 ∨ m / 262144 = n / 262144 ∧
      (m / 4096 % 64 < n / 4096 % 64 ∨ m / 4096 % 64 = n / 4096 % 64 ∧
        (m / 64 % 64 < n / 64 % 64 ∨ m / 64 % 64 = n / 64 % 64 ∧ m % 64 < n % 64)) := by
  omega

theorem toNat_char_lt (c : Char) : c.val.toNat < 0x110000 := by
  have h := c.valid
  unfold UInt32.isValidChar Nat.isValidChar at h
  omega

/-- A longer form has the greater first byte, and forms of one length have the digits of their
characters. -/
theorem diverges_encodeChar {c d : Char} (h : c < d) :
    Diverges (String.utf8EncodeChar c) (String.utf8EncodeChar d) := by
  have hlt : c.val.toNat < d.val.toNat := h
  have hmax := toNat_char_lt d
  unfold String.utf8EncodeChar
  generalize c.val.toNat = m at hlt ⊢
  generalize d.val.toNat = n at hlt hmax ⊢
  have hdigits := digits_of_lt hlt
  dsimp only
  split_ifs
  all_goals
    simp (disch := omega) only [Diverges, UInt8.lt_iff_toNat_lt, ← UInt8.toNat_inj,
      UInt8.toNat_ofNat', Nat.reducePow, Nat.mod_eq_of_lt]
    omega

/-! ## Texts -/

theorem encode_eq (s : String) : encode s = s.toList.flatMap String.utf8EncodeChar := by
  unfold encode
  rw [String.toUTF8_eq_toByteArray, ← String.utf8Encode_toList, List.utf8Encode,
    List.data_toByteArray]

theorem flatMap_encodeChar_lt {cs ds : List Char} (h : cs < ds) :
    cs.flatMap String.utf8EncodeChar < ds.flatMap String.utf8EncodeChar := by
  induction h with
  | @nil d ds =>
    obtain ⟨b, bs, hb⟩ := List.exists_cons_of_ne_nil (String.utf8EncodeChar_ne_nil (c := d))
    rw [List.flatMap_cons, hb]
    exact List.nil_lt_cons b _
  | cons _ ih => exact List.append_left_lt ih
  | rel h => exact (diverges_encodeChar h).append_lt _ _

theorem encode_lt_encode {s t : String} (h : s < t) : encode s < encode t := by
  rw [encode_eq, encode_eq]
  exact flatMap_encodeChar_lt h

/-- The order of texts is that of their bytes. -/
theorem encode_lt_encode_iff {s t : String} : encode s < encode t ↔ s < t := by
  refine ⟨fun h => ?_, encode_lt_encode⟩
  by_contra hnot
  have hle : t ≤ s := String.not_lt.1 hnot
  by_cases hge : s ≤ t
  · rw [String.le_antisymm hge hle] at h
    exact List.lt_irrefl _ h
  · exact List.lt_asymm h (encode_lt_encode (not_not.1 (String.not_lt.not.1 hge)))

end DocumentDb.Utf8
