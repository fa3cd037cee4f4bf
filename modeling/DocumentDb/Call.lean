import DocumentDb.Error

/-! # Calls

A call acts on a state and may fail. What it has changed before it fails stays changed.
-/

namespace DocumentDb

/-- A call that acts on a state. -/
abbrev Call (σ α : Type) := ExceptT Error (StateM σ) α

namespace Call

variable {σ τ α : Type}

/-- The call that a function from states to outcomes describes. -/
def ofStep (f : σ → Except Error α × σ) : Call σ α := f

/-- The outcome of a call and the state afterwards. -/
def outcome (c : Call σ α) (s : σ) : Except Error α × σ := c s

/-- The call that only looks at the state. -/
def look (f : σ → Except Error α) : Call σ α := ofStep fun s => (f s, s)

/-- The call that fails or yields a value without regard to the state. -/
def ofExcept (r : Except Error α) : Call σ α := look fun _ => r

/-- The call that fails if its token has been cancelled. -/
def ensureLive (cancelled : Bool) : Call σ Unit :=
  ofExcept (if cancelled then .error .cancelled else .ok ())

@[simp] theorem outcome_ofStep (f : σ → Except Error α × σ) (s : σ) :
    (ofStep f).outcome s = f s := rfl

@[simp] theorem outcome_look (f : σ → Except Error α) (s : σ) : (look f).outcome s = (f s, s) := rfl

@[simp] theorem outcome_ofExcept (r : Except Error α) (s : σ) :
    (ofExcept r).outcome s = (r, s) := rfl

@[simp] theorem outcome_pure (a : α) (s : σ) : outcome (pure a) s = (.ok a, s) := rfl

theorem outcome_bind {β : Type} (c : Call σ α) (f : α → Call σ β) (s : σ) :
    outcome (c >>= f) s =
      match c.outcome s with
      | (.ok a, s') => (f a).outcome s'
      | (.error e, s') => (.error e, s') := by
  show ExceptT.bindCont f ((c s : Except Error α × σ).1) (c s).2 = _
  unfold outcome
  generalize c s = r
  obtain ⟨x, s'⟩ := r
  cases x <;> rfl

end Call

end DocumentDb
