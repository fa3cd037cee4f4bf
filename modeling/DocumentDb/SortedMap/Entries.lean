/-! # Entry lists ordered by key

A finite map is kept as a list of key and value pairs in strictly ascending order of the keys. The
functions here act on bare lists, because a recursive data type may hold such a list but not a list
bundled with a proof about it.

* `Entries.get?`, `Entries.insert`, `Entries.erase`: the operations.
* `Entries.Ordered`: keys strictly ascend, so no key occurs twice.
* `Entries.ext`: ordered lists that answer every look-up alike are equal.
-/

namespace DocumentDb.Entries

variable {κ α β : Type} [Ord κ]

/-! ## Operations -/

/-- The value under a key. -/
def get? (k : κ) : List (κ × α) → Option α
  | [] => none
  | (k', v) :: rest => if compare k k' = .eq then some v else get? k rest

/-- The list with the value put under the key, in the place of an older value of that key. -/
def insert (k : κ) (v : α) : List (κ × α) → List (κ × α)
  | [] => [(k, v)]
  | (k', v') :: rest =>
    match compare k k' with
    | .lt => (k, v) :: (k', v') :: rest
    | .eq => (k, v) :: rest
    | .gt => (k', v') :: insert k v rest

/-- The list without the key. -/
def erase (k : κ) : List (κ × α) → List (κ × α)
  | [] => []
  | (k', v') :: rest => if compare k k' = .eq then rest else (k', v') :: erase k rest

/-- The ordered list of some pairs, in which a later pair replaces an earlier one of the same
key. -/
def ofList (pairs : List (κ × α)) : List (κ × α) :=
  pairs.foldl (fun es p => insert p.1 p.2 es) []

/-- Keys strictly ascend. -/
def Ordered (es : List (κ × α)) : Prop :=
  es.Pairwise fun a b => compare a.1 b.1 = .lt

instance (es : List (κ × α)) : Decidable (Ordered es) :=
  inferInstanceAs (Decidable (es.Pairwise _))

theorem ordered_nil : Ordered ([] : List (κ × α)) := List.Pairwise.nil

@[simp] theorem get?_nil (k : κ) : get? k ([] : List (κ × α)) = none := rfl

/-! ## Look-up after a change -/

section Lookup
variable [Std.LawfulEqOrd κ] [DecidableEq κ]

theorem get?_cons (k k' : κ) (v : α) (es : List (κ × α)) :
    get? k ((k', v) :: es) = if k = k' then some v else get? k es := by
  simp [get?, Std.LawfulEqCmp.compare_eq_iff_eq]

@[simp] theorem get?_insert_self (k : κ) (v : α) (es : List (κ × α)) :
    get? k (insert k v es) = some v := by
  induction es with
  | nil => simp [insert, get?_cons]
  | cons e es ih =>
    obtain ⟨k', v'⟩ := e
    unfold insert
    split
    · simp [get?_cons]
    · simp [get?_cons]
    · rename_i h
      have hne : k ≠ k' := by
        rintro rfl
        simp at h
      simp [get?_cons, hne, ih]

theorem get?_insert_of_ne {k k' : κ} (h : k' ≠ k) (v : α) (es : List (κ × α)) :
    get? k' (insert k v es) = get? k' es := by
  induction es with
  | nil => simp [insert, get?_cons, h]
  | cons e es ih =>
    obtain ⟨k₀, v₀⟩ := e
    unfold insert
    split
    · simp [get?_cons, h]
    · rename_i hc
      obtain rfl := Std.LawfulEqCmp.compare_eq_iff_eq.1 hc
      simp [get?_cons, h]
    · simp [get?_cons, ih]

theorem get?_insert (k k' : κ) (v : α) (es : List (κ × α)) :
    get? k' (insert k v es) = if k' = k then some v else get? k' es := by
  split
  · next h => subst h; exact get?_insert_self _ v es
  · next h => exact get?_insert_of_ne h v es

theorem get?_erase_of_ne {k k' : κ} (h : k' ≠ k) (es : List (κ × α)) :
    get? k' (erase k es) = get? k' es := by
  induction es with
  | nil => rfl
  | cons e es ih =>
    obtain ⟨k₀, v₀⟩ := e
    unfold erase
    split
    · rename_i hc
      obtain rfl := Std.LawfulEqCmp.compare_eq_iff_eq.1 hc
      simp [get?_cons, h]
    · simp [get?_cons, ih]

end Lookup

/-! ## Membership and order -/

theorem mem_insert {k : κ} {v : α} {e : κ × α} {es : List (κ × α)} (h : e ∈ insert k v es) :
    e = (k, v) ∨ e ∈ es := by
  induction es with
  | nil => simpa [insert] using h
  | cons e' es ih =>
    obtain ⟨k', v'⟩ := e'
    unfold insert at h
    split at h
    · simpa using h
    · rcases List.mem_cons.1 h with h | h
      · exact .inl h
      · exact .inr (List.mem_cons_of_mem _ h)
    · rcases List.mem_cons.1 h with h | h
      · exact .inr (h ▸ List.mem_cons_self)
      · rcases ih h with h | h
        · exact .inl h
        · exact .inr (List.mem_cons_of_mem _ h)

theorem mem_of_mem_erase {k : κ} {e : κ × α} {es : List (κ × α)} (h : e ∈ erase k es) : e ∈ es := by
  induction es with
  | nil => exact h
  | cons e' es ih =>
    obtain ⟨k', v'⟩ := e'
    unfold erase at h
    split at h
    · exact List.mem_cons_of_mem _ h
    · rcases List.mem_cons.1 h with h | h
      · exact h ▸ List.mem_cons_self
      · exact List.mem_cons_of_mem _ (ih h)

section Order
variable [Std.TransOrd κ] [Std.LawfulEqOrd κ]

theorem Ordered.insert {es : List (κ × α)} (h : Ordered es) (k : κ) (v : α) :
    Ordered (insert k v es) := by
  induction es with
  | nil => exact List.pairwise_singleton _ _
  | cons e es ih =>
    obtain ⟨k', v'⟩ := e
    obtain ⟨hhead, htail⟩ := List.pairwise_cons.1 h
    unfold Entries.insert
    split
    · rename_i hc
      refine List.pairwise_cons.2 ⟨fun e he => ?_, h⟩
      rcases List.mem_cons.1 he with rfl | he
      · exact hc
      · exact Std.TransCmp.lt_trans hc (hhead e he)
    · rename_i hc
      obtain rfl := Std.LawfulEqCmp.compare_eq_iff_eq.1 hc
      exact List.pairwise_cons.2 ⟨hhead, htail⟩
    · rename_i hc
      refine List.pairwise_cons.2 ⟨fun e he => ?_, ih htail⟩
      rcases mem_insert he with rfl | he
      · exact Std.OrientedCmp.gt_iff_lt.1 hc
      · exact hhead e he

omit [Std.TransOrd κ] [Std.LawfulEqOrd κ] in
theorem Ordered.erase {es : List (κ × α)} (h : Ordered es) (k : κ) : Ordered (erase k es) := by
  induction es with
  | nil => exact h
  | cons e es ih =>
    obtain ⟨k', v'⟩ := e
    obtain ⟨hhead, htail⟩ := List.pairwise_cons.1 h
    unfold Entries.erase
    split
    · exact htail
    · exact List.pairwise_cons.2 ⟨fun e he => hhead e (mem_of_mem_erase he), ih htail⟩

theorem ordered_ofList (pairs : List (κ × α)) : Ordered (ofList pairs) := by
  suffices h : ∀ (ps es : List (κ × α)), Ordered es →
      Ordered (ps.foldl (fun es p => Entries.insert p.1 p.2 es) es) from h pairs [] ordered_nil
  intro ps
  induction ps with
  | nil => exact fun es h => h
  | cons p ps ih => exact fun es h => ih _ (h.insert p.1 p.2)

variable [DecidableEq κ]

omit [Std.TransOrd κ] in
theorem Ordered.get?_eq_some_iff {es : List (κ × α)} (h : Ordered es) {k : κ} {v : α} :
    get? k es = some v ↔ (k, v) ∈ es := by
  induction es with
  | nil => simp
  | cons e es ih =>
    obtain ⟨k', v'⟩ := e
    obtain ⟨hhead, htail⟩ := List.pairwise_cons.1 h
    rw [get?_cons]
    split
    · next heq =>
      subst heq
      constructor
      · rintro ⟨rfl⟩
        exact List.mem_cons_self
      · intro hm
        rcases List.mem_cons.1 hm with hm | hm
        · simp only [Prod.mk.injEq, true_and] at hm
          rw [hm]
        · have := hhead _ hm
          simp at this
    · next hne =>
      rw [ih htail]
      constructor
      · exact List.mem_cons_of_mem _
      · intro hm
        rcases List.mem_cons.1 hm with hm | hm
        · simp only [Prod.mk.injEq] at hm
          exact absurd hm.1 hne
        · exact hm

omit [Std.TransOrd κ] in
/-- The head's key does not come again. -/
theorem Ordered.get?_tail {k : κ} {v : α} {es : List (κ × α)} (h : Ordered ((k, v) :: es)) :
    get? k es = none := by
  obtain ⟨hhead, htail⟩ := List.pairwise_cons.1 h
  cases hg : get? k es with
  | none => rfl
  | some v' =>
    have := hhead _ ((Ordered.get?_eq_some_iff htail).1 hg)
    simp at this

omit [Std.TransOrd κ] in
theorem Ordered.get?_erase_self {es : List (κ × α)} (h : Ordered es) (k : κ) :
    get? k (Entries.erase k es) = none := by
  induction es with
  | nil => rfl
  | cons e es ih =>
    obtain ⟨k', v'⟩ := e
    unfold Entries.erase
    split
    · rename_i hc
      obtain rfl := Std.LawfulEqCmp.compare_eq_iff_eq.1 hc
      exact h.get?_tail
    · rename_i hc
      have hne : k ≠ k' := fun h => hc (Std.LawfulEqCmp.compare_eq_iff_eq.2 h)
      simp [get?_cons, hne, ih (List.Pairwise.of_cons h)]

omit [Std.TransOrd κ] in
/-- Entries put one after another hide what was there before under their keys. -/
theorem Ordered.get?_foldl_insert {top : List (κ × α)} (h : Ordered top) (es : List (κ × α))
    (k : κ) :
    get? k (top.foldl (fun es e => Entries.insert e.1 e.2 es) es) =
      (get? k top).or (get? k es) := by
  induction top generalizing es with
  | nil => rfl
  | cons e top ih =>
    obtain ⟨k', v'⟩ := e
    rw [List.foldl_cons, ih (List.pairwise_cons.1 h).2, get?_insert, get?_cons]
    split
    · next heq =>
      subst heq
      simp [h.get?_tail]
    · rfl

omit [DecidableEq κ] in
/-- Ordered lists with the same members are equal. -/
theorem Ordered.eq_of_mem_iff {es fs : List (κ × α)} (he : Ordered es) (hf : Ordered fs)
    (h : ∀ e, e ∈ es ↔ e ∈ fs) : es = fs := by
  induction es generalizing fs with
  | nil =>
    cases fs with
    | nil => rfl
    | cons f fs => exact absurd ((h f).2 List.mem_cons_self) (by simp)
  | cons e es ih =>
    cases fs with
    | nil => exact absurd ((h e).1 List.mem_cons_self) (by simp)
    | cons f fs =>
      obtain ⟨hehead, hetail⟩ := List.pairwise_cons.1 he
      obtain ⟨hfhead, hftail⟩ := List.pairwise_cons.1 hf
      have hef : e = f := by
        rcases List.mem_cons.1 ((h e).1 List.mem_cons_self) with h₁ | h₁
        · exact h₁
        · rcases List.mem_cons.1 ((h f).2 List.mem_cons_self) with h₂ | h₂
          · exact h₂.symm
          · have hlt := Std.TransCmp.lt_trans (hehead f h₂) (hfhead e h₁)
            simp at hlt
      subst hef
      congr 1
      refine ih hetail hftail fun x => ⟨fun hx => ?_, fun hx => ?_⟩
      · rcases List.mem_cons.1 ((h x).1 (List.mem_cons_of_mem _ hx)) with rfl | hx'
        · have := hehead _ hx
          simp at this
        · exact hx'
      · rcases List.mem_cons.1 ((h x).2 (List.mem_cons_of_mem _ hx)) with rfl | hx'
        · have := hfhead _ hx
          simp at this
        · exact hx'

/-- Ordered lists that answer every look-up alike are equal. -/
theorem ext {es fs : List (κ × α)} (he : Ordered es) (hf : Ordered fs)
    (h : ∀ k, get? k es = get? k fs) : es = fs :=
  he.eq_of_mem_iff hf fun e => by
    rw [← he.get?_eq_some_iff, ← hf.get?_eq_some_iff, h]

end Order

end DocumentDb.Entries
