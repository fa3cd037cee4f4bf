/-! # Base64

The standard alphabet with padding. Only the canonical form is read: whole groups of four, padding
at the end alone, and no stray bits in the last symbol before it.

* `Base64.decode?_encode`: what is encoded reads back.
* `Base64.decode?_eq_some_iff`: nothing else is read.
-/

namespace DocumentDb.Base64

/-- The symbol of a value below sixty-four: the capital letters, the small letters, the digits, and
two signs. -/
def symbol (n : Nat) : Char :=
  if n < 26 then Char.ofNat (n + 65)
  else if n < 52 then Char.ofNat (n + 71)
  else if n < 62 then Char.ofNat (n - 4)
  else if n = 62 then '+'
  else '/'

/-- The value of a symbol. -/
def value? (c : Char) : Option Nat :=
  let n := c.toNat
  if 65 ≤ n ∧ n ≤ 90 then some (n - 65)
  else if 97 ≤ n ∧ n ≤ 122 then some (n - 71)
  else if 48 ≤ n ∧ n ≤ 57 then some (n + 4)
  else if n = 43 then some 62
  else if n = 47 then some 63
  else none

/-- The symbols of some bytes, padded to groups of four. -/
def encode : List UInt8 → List Char
  | [] => []
  | [a] => [symbol (a.toNat / 4), symbol (a.toNat % 4 * 16), '=', '=']
  | [a, b] =>
    [symbol (a.toNat / 4), symbol (a.toNat % 4 * 16 + b.toNat / 16), symbol (b.toNat % 16 * 4), '=']
  | a :: b :: c :: rest =>
    symbol (a.toNat / 4) :: symbol (a.toNat % 4 * 16 + b.toNat / 16) ::
      symbol (b.toNat % 16 * 4 + c.toNat / 64) :: symbol (c.toNat % 64) :: encode rest

/-- The bytes of a group of four symbols; `last` tells whether the group may be padded. -/
def group? (last : Bool) (a b c d : Char) : Option (List UInt8) := do
  let a ← value? a
  let b ← value? b
  let first := UInt8.ofNat (4 * a + b / 16)
  if last ∧ c = '=' ∧ d = '=' then
    if b % 16 = 0 then some [first] else none
  else
    let c ← value? c
    let second := UInt8.ofNat (b % 16 * 16 + c / 4)
    if last ∧ d = '=' then
      if c % 4 = 0 then some [first, second] else none
    else
      let d ← value? d
      some [first, second, UInt8.ofNat (c % 4 * 64 + d)]

/-- The bytes that a text in canonical form encodes. -/
def decode? : List Char → Option (List UInt8)
  | [] => some []
  | a :: b :: c :: d :: rest => do
    let bytes ← group? rest.isEmpty a b c d
    let more ← decode? rest
    some (bytes ++ more)
  | _ => none

/-! ## Reading back -/

theorem value?_symbol : ∀ n < 64, value? (symbol n) = some n := by decide +kernel

theorem symbol_ne_pad : ∀ n < 64, symbol n ≠ '=' := by decide +kernel

theorem eq_ofNat {a : UInt8} {n : Nat} (h : n = a.toNat) : UInt8.ofNat n = a := by
  rw [h, UInt8.ofNat_toNat]

theorem group?_three (last : Bool) (a b c : UInt8) :
    group? last (symbol (a.toNat / 4)) (symbol (a.toNat % 4 * 16 + b.toNat / 16))
      (symbol (b.toNat % 16 * 4 + c.toNat / 64)) (symbol (c.toNat % 64)) = some [a, b, c] := by
  have ha := a.toNat_lt
  have hb := b.toNat_lt
  have hc := c.toNat_lt
  unfold group?
  rw [value?_symbol _ (by omega), value?_symbol _ (by omega), value?_symbol _ (by omega),
    value?_symbol _ (by omega)]
  simp only [symbol_ne_pad _ (show b.toNat % 16 * 4 + c.toNat / 64 < 64 by omega),
    symbol_ne_pad _ (show c.toNat % 64 < 64 by omega), bind, Option.bind]
  simp only [and_false, if_false, Option.some.injEq, List.cons.injEq, and_true]
  exact ⟨eq_ofNat (by omega), eq_ofNat (by omega), eq_ofNat (by omega)⟩

theorem group?_two (a b : UInt8) :
    group? true (symbol (a.toNat / 4)) (symbol (a.toNat % 4 * 16 + b.toNat / 16))
      (symbol (b.toNat % 16 * 4)) '=' = some [a, b] := by
  have ha := a.toNat_lt
  have hb := b.toNat_lt
  unfold group?
  rw [value?_symbol _ (by omega), value?_symbol _ (by omega), value?_symbol _ (by omega)]
  simp only [symbol_ne_pad _ (show b.toNat % 16 * 4 < 64 by omega), bind, Option.bind]
  rw [if_neg (by simp), if_pos (by simp), if_pos (by omega)]
  simp only [Option.some.injEq, List.cons.injEq, and_true]
  exact ⟨eq_ofNat (by omega), eq_ofNat (by omega)⟩

theorem group?_one (a : UInt8) :
    group? true (symbol (a.toNat / 4)) (symbol (a.toNat % 4 * 16)) '=' '=' = some [a] := by
  have ha := a.toNat_lt
  unfold group?
  rw [value?_symbol _ (by omega), value?_symbol _ (by omega)]
  simp only [bind, Option.bind]
  rw [if_pos (by simp), if_pos (by omega)]
  simp only [Option.some.injEq, List.cons.injEq, and_true]
  exact eq_ofNat (by omega)

/-- What is encoded reads back. -/
theorem decode?_encode (bytes : List UInt8) : decode? (encode bytes) = some bytes := by
  fun_induction encode bytes with
  | case1 => rfl
  | case2 a => simp [decode?, group?_one]
  | case3 a b => simp [decode?, group?_two]
  | case4 a b c rest ih => simp [decode?, group?_three, ih]

/-! ## Canonical forms -/

theorem eq_symbol {c : Char} {n : Nat} (h : value? c = some n) : n < 64 ∧ c = symbol n := by
  have hchar : c = Char.ofNat c.toNat := (Char.ofNat_toNat c).symm
  unfold value? at h
  dsimp only at h
  split at h
  · have hn := Option.some.inj h
    have hc : c.toNat = n + 65 := by omega
    refine ⟨by omega, ?_⟩
    rw [symbol, if_pos (by omega), ← hc, ← hchar]
  split at h
  · have hn := Option.some.inj h
    have hc : c.toNat = n + 71 := by omega
    refine ⟨by omega, ?_⟩
    rw [symbol, if_neg (by omega), if_pos (by omega), ← hc, ← hchar]
  split at h
  · have hn := Option.some.inj h
    have hc : c.toNat = n - 4 := by omega
    refine ⟨by omega, ?_⟩
    rw [symbol, if_neg (by omega), if_neg (by omega), if_pos (by omega), ← hc, ← hchar]
  split at h
  · next hc =>
    obtain rfl := Option.some.inj h
    rw [hc] at hchar
    exact ⟨by omega, hchar⟩
  split at h
  · next hc =>
    obtain rfl := Option.some.inj h
    rw [hc] at hchar
    exact ⟨by omega, hchar⟩
  · cases h

theorem toNat_ofNat {n : Nat} (h : n < 256) : (UInt8.ofNat n).toNat = n := by
  rw [UInt8.toNat_ofNat', Nat.mod_eq_of_lt h]

/-- A group encodes the bytes that it is read as; only the last one may hold fewer than three. -/
theorem eq_encode_of_group? {last : Bool} {a b c d : Char} {bytes : List UInt8}
    (h : group? last a b c d = some bytes) :
    [a, b, c, d] = encode bytes ∧ (bytes.length = 3 ∨ last = true) := by
  unfold group? at h
  rw [Option.bind_eq_bind, Option.bind_eq_some_iff] at h
  obtain ⟨va, hva, h⟩ := h
  rw [Option.bind_eq_some_iff] at h
  obtain ⟨vb, hvb, h⟩ := h
  obtain ⟨hlta, rfl⟩ := eq_symbol hva
  obtain ⟨hltb, rfl⟩ := eq_symbol hvb
  have hfirst := toNat_ofNat (show 4 * va + vb / 16 < 256 by omega)
  have ha : (4 * va + vb / 16) / 4 = va := by omega
  dsimp only at h
  split at h
  · next hpads =>
    obtain ⟨hlast, rfl, rfl⟩ := hpads
    split at h
    · next hstray =>
      obtain rfl := Option.some.inj h
      refine ⟨?_, .inr hlast⟩
      rw [encode, hfirst, ha, show (4 * va + vb / 16) % 4 * 16 = vb by omega]
    · cases h
  · rw [Option.bind_eq_some_iff] at h
    obtain ⟨vc, hvc, h⟩ := h
    obtain ⟨hltc, rfl⟩ := eq_symbol hvc
    have hsecond := toNat_ofNat (show vb % 16 * 16 + vc / 4 < 256 by omega)
    have hb : (4 * va + vb / 16) % 4 * 16 + (vb % 16 * 16 + vc / 4) / 16 = vb := by omega
    split at h
    · next hpad =>
      obtain ⟨hlast, rfl⟩ := hpad
      split at h
      · next hstray =>
        obtain rfl := Option.some.inj h
        refine ⟨?_, .inr hlast⟩
        rw [encode, hfirst, hsecond, ha, hb, show (vb % 16 * 16 + vc / 4) % 16 * 4 = vc by omega]
      · cases h
    · rw [Option.bind_eq_some_iff] at h
      obtain ⟨vd, hvd, h⟩ := h
      obtain ⟨hltd, rfl⟩ := eq_symbol hvd
      have hthird := toNat_ofNat (show vc % 4 * 64 + vd < 256 by omega)
      obtain rfl := Option.some.inj h
      refine ⟨?_, .inl rfl⟩
      rw [encode, encode, hfirst, hsecond, hthird, ha, hb,
        show (vb % 16 * 16 + vc / 4) % 16 * 4 + (vc % 4 * 64 + vd) / 64 = vc by omega,
        show (vc % 4 * 64 + vd) % 64 = vd by omega]

theorem encode_append {bytes : List UInt8} (h : bytes.length = 3) (more : List UInt8) :
    encode (bytes ++ more) = encode bytes ++ encode more := by
  match bytes, h with
  | [a, b, c], _ => simp [encode]

/-- Decoding accepts exactly what encoding produces. -/
theorem decode?_eq_some_iff {cs : List Char} {bytes : List UInt8} :
    decode? cs = some bytes ↔ cs = encode bytes := by
  refine ⟨fun h => ?_, fun h => h ▸ decode?_encode bytes⟩
  fun_induction decode? cs generalizing bytes with
  | case1 =>
    obtain rfl := Option.some.inj h
    rfl
  | case2 a b c d rest ih =>
    rw [Option.bind_eq_bind, Option.bind_eq_some_iff] at h
    obtain ⟨group, hgroup, h⟩ := h
    rw [Option.bind_eq_some_iff] at h
    obtain ⟨more, hmore, h⟩ := h
    obtain rfl := Option.some.inj h
    obtain ⟨hsymbols, hlength | hlast⟩ := eq_encode_of_group? hgroup
    · rw [encode_append hlength, ← hsymbols, ← ih hmore]
      rfl
    · obtain rfl := List.isEmpty_iff.1 hlast
      obtain rfl : more = [] := (Option.some.inj hmore).symm
      rw [List.append_nil, ← hsymbols]
  | case3 cs => cases h

/-- What holds of all symbols and of the padding holds of all characters of an encoding. -/
theorem forall_mem_encode {p : Char → Prop} (hsymbol : ∀ n < 64, p (symbol n)) (hpad : p '=')
    (bytes : List UInt8) : ∀ c ∈ encode bytes, p c := by
  fun_induction encode bytes with
  | case1 => exact fun _ h => nomatch h
  | case2 a =>
    have ha := a.toNat_lt
    simp only [List.forall_mem_cons]
    exact ⟨hsymbol _ (by omega), hsymbol _ (by omega), hpad, hpad, fun _ h => nomatch h⟩
  | case3 a b =>
    have ha := a.toNat_lt
    have hb := b.toNat_lt
    simp only [List.forall_mem_cons]
    exact ⟨hsymbol _ (by omega), hsymbol _ (by omega), hsymbol _ (by omega), hpad,
      fun _ h => nomatch h⟩
  | case4 a b c rest ih =>
    have ha := a.toNat_lt
    have hb := b.toNat_lt
    have hc := c.toNat_lt
    simp only [List.forall_mem_cons]
    exact ⟨hsymbol _ (by omega), hsymbol _ (by omega), hsymbol _ (by omega), hsymbol _ (by omega),
      ih⟩

end DocumentDb.Base64
