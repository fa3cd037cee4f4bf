/-! # Cutting a list of characters at a separator

* `Text.cut_eq_some_iff`: what stands before the first occurrence of the separator, and behind it.
-/

namespace DocumentDb.Text

/-- The characters before the first occurrence of one, and those behind it, if it occurs. -/
def cut (sep : Char) (cs : List Char) : List Char × Option (List Char) :=
  match cs.dropWhile (· ≠ sep) with
  | [] => (cs, none)
  | _ :: rest => (cs.takeWhile (· ≠ sep), some rest)

/-- The pieces of a list between the occurrences of a separator. -/
def pieces (sep : Char) : List Char → List (List Char)
  | [] => [[]]
  | c :: rest =>
    if c = sep then [] :: pieces sep rest
    else
      match pieces sep rest with
      | [] => [[c]]
      | p :: ps => (c :: p) :: ps

/-- A part without the separator is what stands before the first occurrence. -/
theorem cut_append {sep : Char} {part : List Char} (h : sep ∉ part) (rest : List Char) :
    cut sep (part ++ sep :: rest) = (part, some rest) := by
  have hp : ∀ c ∈ part, (decide (c ≠ sep)) = true := fun c hc => by
    simp only [ne_eq, decide_eq_true_eq]
    rintro rfl
    exact h hc
  have hsep : (decide (sep ≠ sep)) = false := by simp
  unfold cut
  rw [List.dropWhile_append_of_pos hp, List.takeWhile_append_of_pos hp]
  simp

theorem cut_cons (sep c : Char) (cs : List Char) :
    cut sep (c :: cs) =
      if c = sep then ([], some cs) else (c :: (cut sep cs).1, (cut sep cs).2) := by
  unfold cut
  by_cases hc : c = sep
  · simp [hc]
  · rw [if_neg hc, List.dropWhile_cons_of_pos (by simpa using hc),
      List.takeWhile_cons_of_pos (by simpa using hc)]
    split <;> rfl

theorem cut_eq_some_iff {sep : Char} {cs part rest : List Char} :
    cut sep cs = (part, some rest) ↔ cs = part ++ sep :: rest ∧ sep ∉ part := by
  constructor
  · intro h
    induction cs generalizing part with
    | nil => cases h
    | cons c cs ih =>
      rw [cut_cons] at h
      split at h
      · next hc =>
        obtain ⟨rfl, hrest⟩ := Prod.mk.inj h
        obtain rfl := Option.some.inj hrest
        exact ⟨congrArg (· :: cs) hc, List.not_mem_nil⟩
      · next hc =>
        obtain ⟨rfl, hrest⟩ := Prod.mk.inj h
        obtain ⟨hcs, hpart⟩ := ih (Prod.ext rfl hrest)
        refine ⟨congrArg (c :: ·) hcs, ?_⟩
        rw [List.mem_cons, not_or]
        exact ⟨fun h => hc h.symm, hpart⟩
  · rintro ⟨rfl, hpart⟩
    exact cut_append hpart rest

end DocumentDb.Text
