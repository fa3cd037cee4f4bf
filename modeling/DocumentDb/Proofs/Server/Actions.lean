import DocumentDb.Proofs.Call.Within
import DocumentDb.Server.Basic

/-! # Actions in terms of their outcomes

* `Action.outcome_bind`: an action that follows another one.
* `Action.bind_eq_ok`, `Action.ofCall_eq_ok`, `Action.ofExcept_eq_ok`: actions that succeed.
-/

namespace DocumentDb

theorem Backend.outcome_onMemory {α : Type} (c : Call Memory α) (m : Memory) :
    (Backend.onMemory c).outcome (.memory m) = ((c.outcome m).1, .memory (c.outcome m).2) := rfl

namespace Action

variable {α β : Type}

section
variable (b : Backend)

theorem outcome_ofCall (c : Call Backend α) :
    (ofCall c).outcome b = ((c.outcome b).1.mapError .call, (c.outcome b).2) := rfl

theorem outcome_ofExcept (r : Except Error α) :
    (ofExcept r).outcome b = (r.mapError .call, b) := rfl

theorem outcome_ofRequest (r : Except Failure α) : (ofRequest r).outcome b = (r, b) := rfl

theorem outcome_bind (a : Action α) (f : α → Action β) :
    (a >>= f).outcome b =
      match a.outcome b with
      | (.ok x, b') => (f x).outcome b'
      | (.error e, b') => (.error e, b') := by
  refine (run_run_bind a f b).trans ?_
  rw [show a.run.run b = a.outcome b from rfl]
  obtain ⟨x | x, b'⟩ := a.outcome b
  · rfl
  · rfl

end

/-! ## Success -/

section
variable {b b' : Backend} {x : α}

theorem ofCall_eq_ok {c : Call Backend α} :
    (ofCall c).outcome b = (.ok x, b') ↔ c.outcome b = (.ok x, b') := by
  rw [outcome_ofCall]
  generalize c.outcome b = answer
  obtain ⟨e | y, b₁⟩ := answer
  · constructor <;> rintro ⟨⟩
  · constructor <;> (rintro ⟨⟩; rfl)

theorem ofExcept_eq_ok {r : Except Error α} :
    (ofExcept r).outcome b = (.ok x, b') ↔ r = .ok x ∧ b = b' := by
  unfold ofExcept
  rw [ofCall_eq_ok, Call.outcome_ofExcept, Prod.mk.injEq]

theorem bind_eq_ok {a : Action α} {f : α → Action β} {y : β} :
    (a >>= f).outcome b = (.ok y, b') ↔
      ∃ x b₁, a.outcome b = (.ok x, b₁) ∧ (f x).outcome b₁ = (.ok y, b') := by
  rw [outcome_bind]
  generalize a.outcome b = answer
  obtain ⟨e | x, b₁⟩ := answer
  · simp
  · constructor
    · exact fun h => ⟨x, b₁, rfl, h⟩
    · rintro ⟨_, _, ⟨⟩, h⟩
      exact h

end

end Action

end DocumentDb
