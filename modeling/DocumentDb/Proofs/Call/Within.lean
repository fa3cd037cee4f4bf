import DocumentDb.Call
import Mathlib.Order.Defs.Unbundled

/-! # What actions do to a state

Calls on databases and actions of a server are of one kind: they act on a state and may fail. A
relation between states bounds what they do to it.

* `Within`: the state afterwards is related to the one before.
* `FailsWithin`: it is if the action fails.
* `Within.bind`, `FailsWithin.bind`, `FailsWithin.bind_pure`: one action after the other.
-/

namespace DocumentDb

variable {ε σ α β : Type}

/-- An action leads from every state to a related one. -/
def Within (R : σ → σ → Prop) (c : ExceptT ε (StateM σ) α) : Prop := ∀ s, R s (c.run.run s).2

/-- An action that fails leads to a state that is related to the one before. -/
def FailsWithin (R : σ → σ → Prop) (c : ExceptT ε (StateM σ) α) : Prop :=
  ∀ s e, (c.run.run s).1 = .error e → R s (c.run.run s).2

theorem within_of_outcome {R : σ → σ → Prop} {c : Call σ α} (h : ∀ s, R s (c.outcome s).2) :
    Within R c := h

theorem failsWithin_of_outcome {R : σ → σ → Prop} {c : Call σ α}
    (h : ∀ s e, (c.outcome s).1 = .error e → R s (c.outcome s).2) : FailsWithin R c := h

theorem run_run_bind (c : ExceptT ε (StateM σ) α) (f : α → ExceptT ε (StateM σ) β) (s : σ) :
    (c >>= f).run.run s =
      match c.run.run s with
      | (.ok a, s') => (f a).run.run s'
      | (.error e, s') => (.error e, s') := by
  show ExceptT.bindCont f (c.run.run s).1 (c.run.run s).2 = _
  generalize c.run.run s = r
  obtain ⟨x, s'⟩ := r
  cases x <;> rfl

section
variable {R : σ → σ → Prop} [IsPreorder σ R] {c : ExceptT ε (StateM σ) α}

omit [IsPreorder σ R] in
theorem Within.failsWithin (h : Within R c) : FailsWithin R c := fun s _ _ => h s

theorem within_of_unmoved (h : ∀ s, (c.run.run s).2 = s) : Within R c := by
  intro s
  rw [h s]
  exact Std.Refl.refl s

theorem within_pure (a : α) : Within R (pure a : ExceptT ε (StateM σ) α) :=
  within_of_unmoved fun _ => rfl

theorem within_throw (e : ε) : Within R (throw e : ExceptT ε (StateM σ) α) :=
  within_of_unmoved fun _ => rfl

theorem Within.bind {f : α → ExceptT ε (StateM σ) β} (hc : Within R c)
    (hf : ∀ a, Within R (f a)) : Within R (c >>= f) := by
  intro s
  have hfirst := hc s
  rw [run_run_bind]
  generalize c.run.run s = r at hfirst
  obtain ⟨x, s'⟩ := r
  cases x with
  | error e => exact hfirst
  | ok a => exact IsTrans.trans _ _ _ hfirst (hf a s')

/-- What comes first may not touch the state at all, since it may succeed before the rest fails. -/
theorem FailsWithin.bind {f : α → ExceptT ε (StateM σ) β} (hc : Within R c)
    (hf : ∀ a, FailsWithin R (f a)) : FailsWithin R (c >>= f) := by
  intro s e h
  have hfirst := hc s
  rw [run_run_bind] at h ⊢
  generalize c.run.run s = r at hfirst h
  obtain ⟨x, s'⟩ := r
  cases x with
  | error e => exact hfirst
  | ok a => exact IsTrans.trans _ _ _ hfirst (hf a s' e h)

omit [IsPreorder σ R] in
theorem FailsWithin.bind_pure (hc : FailsWithin R c) (g : α → β) :
    FailsWithin R (c >>= fun a => pure (g a)) := by
  intro s e h
  have hfirst := hc s
  rw [run_run_bind] at h ⊢
  generalize c.run.run s = r at hfirst h
  obtain ⟨x, s'⟩ := r
  cases x with
  | error e => exact hfirst e rfl
  | ok a => cases h

end

end DocumentDb
