import DocumentDb.SortedMap.Entries

/-! # Finite maps in key order

A `SortedMap` lists its entries in ascending order of the keys, so equal contents are equal values
and `toList` is the order of enumeration.

* `SortedMap.get?_insert`, `SortedMap.get?_erase_self`, `SortedMap.get?_erase_of_ne`,
  `SortedMap.get?_layer`: what each change does to look-ups.
* `SortedMap.ext_get?`: maps that answer every look-up alike are equal.
-/

namespace DocumentDb

/-- A finite map with its entries in ascending order of the keys. -/
structure SortedMap (κ α : Type) [Ord κ] where
  /-- The entries. -/
  toList : List (κ × α)
  ordered : Entries.Ordered toList

namespace SortedMap

variable {κ α β : Type} [Ord κ]

/-! ## Observers -/

@[ext] theorem ext {m n : SortedMap κ α} (h : m.toList = n.toList) : m = n := by
  cases m; cases n; cases h; rfl

instance [DecidableEq κ] [DecidableEq α] : DecidableEq (SortedMap κ α) := fun m n =>
  decidable_of_iff (m.toList = n.toList) ⟨ext, fun h => h ▸ rfl⟩

/-- The value under a key. -/
def get? (m : SortedMap κ α) (k : κ) : Option α := Entries.get? k m.toList

/-- Whether the map holds the key. -/
def contains (m : SortedMap κ α) (k : κ) : Bool := (m.get? k).isSome

/-- The number of keys. -/
def size (m : SortedMap κ α) : Nat := m.toList.length

/-- Whether the map holds no key. -/
def isEmpty (m : SortedMap κ α) : Bool := m.toList.isEmpty

/-- The keys in ascending order. -/
def keys (m : SortedMap κ α) : List κ := m.toList.map (·.1)

/-- The values in ascending order of their keys. -/
def values (m : SortedMap κ α) : List α := m.toList.map (·.2)

/-! ## Construction -/

/-- The map without keys. -/
def empty : SortedMap κ α := ⟨[], Entries.ordered_nil⟩

instance : Inhabited (SortedMap κ α) := ⟨empty⟩

/-- The same keys with every value passed through a function. -/
def map (f : α → β) (m : SortedMap κ α) : SortedMap κ β where
  toList := m.toList.map fun e => (e.1, f e.2)
  ordered := by
    have h := m.ordered
    unfold Entries.Ordered at h ⊢
    exact List.pairwise_map.2 h

section Change
variable [Std.TransOrd κ] [Std.LawfulEqOrd κ]

/-- The map with a value put under a key. -/
def insert (m : SortedMap κ α) (k : κ) (v : α) : SortedMap κ α :=
  ⟨Entries.insert k v m.toList, m.ordered.insert k v⟩

/-- The map without a key. -/
def erase (m : SortedMap κ α) (k : κ) : SortedMap κ α :=
  ⟨Entries.erase k m.toList, m.ordered.erase k⟩

/-- The map of some pairs, in which a later pair replaces an earlier one of the same key. -/
def ofList (pairs : List (κ × α)) : SortedMap κ α :=
  ⟨Entries.ofList pairs, Entries.ordered_ofList pairs⟩

/-- The map with all entries of another put on top. -/
def layer (m top : SortedMap κ α) : SortedMap κ α :=
  top.toList.foldl (fun m e => m.insert e.1 e.2) m

/-! ## Look-up laws -/

section Lookup
variable [DecidableEq κ]

omit [Std.TransOrd κ] [Std.LawfulEqOrd κ] [DecidableEq κ] in
@[simp] theorem get?_empty (k : κ) : (empty : SortedMap κ α).get? k = none := rfl

@[simp] theorem get?_insert_self (m : SortedMap κ α) (k : κ) (v : α) :
    (m.insert k v).get? k = some v :=
  Entries.get?_insert_self k v m.toList

theorem get?_insert_of_ne (m : SortedMap κ α) {k k' : κ} (h : k' ≠ k) (v : α) :
    (m.insert k v).get? k' = m.get? k' :=
  Entries.get?_insert_of_ne h v m.toList

theorem get?_insert (m : SortedMap κ α) (k k' : κ) (v : α) :
    (m.insert k v).get? k' = if k' = k then some v else m.get? k' :=
  Entries.get?_insert k k' v m.toList

omit [Std.TransOrd κ] in
@[simp] theorem get?_erase_self (m : SortedMap κ α) (k : κ) : (m.erase k).get? k = none :=
  m.ordered.get?_erase_self k

omit [Std.TransOrd κ] in
theorem get?_erase_of_ne (m : SortedMap κ α) {k k' : κ} (h : k' ≠ k) :
    (m.erase k).get? k' = m.get? k' :=
  Entries.get?_erase_of_ne h m.toList

omit [Std.TransOrd κ] in
theorem get?_eq_some_iff (m : SortedMap κ α) {k : κ} {v : α} :
    m.get? k = some v ↔ (k, v) ∈ m.toList :=
  m.ordered.get?_eq_some_iff

omit [DecidableEq κ] in
theorem toList_layer (m top : SortedMap κ α) :
    (m.layer top).toList =
      top.toList.foldl (fun es e => Entries.insert e.1 e.2 es) m.toList := by
  unfold layer
  generalize top.toList = es
  induction es generalizing m with
  | nil => rfl
  | cons e es ih => exact ih (m.insert e.1 e.2)

/-- The upper map answers for its keys, the lower one for all others. -/
theorem get?_layer (m top : SortedMap κ α) (k : κ) :
    (m.layer top).get? k = (top.get? k).or (m.get? k) := by
  unfold get?
  rw [toList_layer]
  exact top.ordered.get?_foldl_insert m.toList k

omit [Std.TransOrd κ] in
theorem mem_keys (m : SortedMap κ α) {k : κ} : k ∈ m.keys ↔ ∃ v, m.get? k = some v := by
  simp only [keys, List.mem_map, get?_eq_some_iff]
  exact ⟨fun ⟨e, he, hk⟩ => ⟨e.2, hk ▸ he⟩, fun ⟨v, hv⟩ => ⟨_, hv, rfl⟩⟩

omit [Std.TransOrd κ] in
theorem mem_values (m : SortedMap κ α) {v : α} : v ∈ m.values ↔ ∃ k, m.get? k = some v := by
  simp only [values, List.mem_map, get?_eq_some_iff]
  exact ⟨fun ⟨e, he, hv⟩ => ⟨e.1, hv ▸ he⟩, fun ⟨k, hk⟩ => ⟨_, hk, rfl⟩⟩

/-- Maps that answer every look-up alike are equal. -/
theorem ext_get? {m n : SortedMap κ α} (h : ∀ k, m.get? k = n.get? k) : m = n :=
  ext (Entries.ext m.ordered n.ordered h)

end Lookup

end Change

end SortedMap

end DocumentDb
