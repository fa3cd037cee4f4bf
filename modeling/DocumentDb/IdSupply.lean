import DocumentDb.Text.Hex

/-! # Fresh ids

A supply numbers the ids that it gives out, from a number on that is chosen where the supply is
made. An id has 32 lower-case hexadecimal digits: the number in thirty of them, and the version and
variant digits of a random identifier at their places.

* `IdSupply.next`, `IdSupply.take`: the ids that are given out next.
* `IdSupply.id_inj`, `IdSupply.nodup_take`: no id is given out twice.
-/

namespace DocumentDb

/-- A supply of ids. -/
structure IdSupply where
  /-- The number of the next id. -/
  start : Nat
deriving DecidableEq

namespace IdSupply

/-- The supply that begins with number zero. -/
def initial : IdSupply := ⟨0⟩

/-- The id with a number. -/
def id (n : Nat) : String :=
  let ds := Hex.padded 30 n
  String.ofList (ds.take 12 ++ '4' :: (ds.drop 12).take 3 ++ '8' :: ds.drop 15)

/-- The next id, and the supply without it. -/
def next (s : IdSupply) : String × IdSupply := (id s.start, ⟨s.start + 1⟩)

/-- Some ids, and the supply without them. -/
def take (s : IdSupply) (count : Nat) : List String × IdSupply :=
  ((List.range count).map fun i => id (s.start + i), ⟨s.start + count⟩)

theorem id_inj {m n : Nat} : id m = id n ↔ m = n := by
  constructor
  · intro h
    have hm := Hex.le_length_padded 30 m
    have hn := Hex.le_length_padded 30 n
    rw [← @Hex.padded_inj 30]
    -- The two digits that are not of the number stand at the same places in every id.
    obtain ⟨hfront, hback⟩ := List.append_inj (String.ofList_inj.1 h) (by simp; omega)
    obtain ⟨hfirst, hmiddle⟩ := List.append_inj hfront (by simp; omega)
    have hrest : ((Hex.padded 30 m).drop 12).drop 3 = ((Hex.padded 30 n).drop 12).drop 3 := by
      rw [List.drop_drop, List.drop_drop]
      exact (List.cons.inj hback).2
    rw [← List.take_append_drop 12 (Hex.padded 30 m), ← List.take_append_drop 12 (Hex.padded 30 n),
      ← List.take_append_drop 3 ((Hex.padded 30 m).drop 12),
      ← List.take_append_drop 3 ((Hex.padded 30 n).drop 12), hfirst, (List.cons.inj hmiddle).2,
      hrest]
  · rintro rfl
    rfl

theorem take_succ (s : IdSupply) (count : Nat) :
    s.take (count + 1) = (s.next.1 :: (s.next.2.take count).1, (s.next.2.take count).2) := by
  simp [take, next, List.range_succ_eq_map, Function.comp_def, Nat.add_assoc, Nat.add_comm 1]

theorem nodup_take (s : IdSupply) (count : Nat) : (s.take count).1.Nodup := by
  refine List.pairwise_map.2 (List.nodup_range.imp fun hne h => hne ?_)
  exact Nat.add_left_cancel (id_inj.1 h)

end IdSupply

end DocumentDb
