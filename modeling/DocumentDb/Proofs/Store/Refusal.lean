import DocumentDb.Proofs.Store.LostUpdate

/-! # A refused write leaves no trace

A put makes room for a new document before its edit is made, and the edit may still fail, for want
of a generation above that of its parent. It cannot fail where the room is new, since a first edit
has no parent.

* `Store.Result.refused_eq`: a result that is a failure has the store from before.
* `Store.after_accepted`: refused writes may be left out of a sequence.
* `Store.refused_changes_nothing`: both for every store and every write.
-/

namespace DocumentDb.Store

section
variable {s : Store} {id : String} {expected : Option Revision}

theorem Result.refused_eq {r : Except Error Revision × Store} {e : Error}
    (hr : s.Result id expected r) (h : r.1 = .error e) : r.2 = s := by
  cases hr with
  | refused e => rfl
  | accepted hstep hrev hexpected => cases h

/-- The accepted ones of some writes lead to the same store. -/
theorem after_accepted (s : Store) (ws : List Write) : s.after (s.accepted ws) = s.after ws := by
  induction ws generalizing s with
  | nil => rfl
  | cons w ws ih =>
    have hrest : (w.run s).2.after ((w.run s).2.accepted ws) = s.after (w :: ws) := ih (w.run s).2
    unfold accepted
    cases hout : (w.run s).1 with
    | ok rev => exact hrest
    | error e =>
      have hsame : (w.run s).2 = s := (w.result s).refused_eq hout
      rw [hsame] at hrest ⊢
      exact hrest

end

/-- Whatever a put, a deletion, a graft or an edit is asked for, on any store: if it fails, for any
reason, every document, every revision and the log are as before; and the store that a sequence of
writes leads to is that of its accepted ones. -/
theorem refused_changes_nothing (s : Store) :
    (∀ (w : Write) (e : Error), (w.run s).1 = .error e → (w.run s).2 = s) ∧
    ∀ ws, s.after (s.accepted ws) = s.after ws :=
  ⟨fun w _ h => (w.result s).refused_eq h, s.after_accepted⟩

/-- A document whose winner has the greatest generation. -/
def atLastGeneration : Store :=
  empty.after [.graft "a" [⟨Numeral.max64, "x"⟩] false .emptyObject]

/-- The update fails after the checks of the document, in the computation of its revision. -/
theorem overflow_changes_nothing :
    let w := Write.put "a" .emptyObject (some ⟨Numeral.max64, "x"⟩)
    (w.run atLastGeneration).1 = .error (.badRequest "revision generation overflow") ∧
      (w.run atLastGeneration).2 = atLastGeneration := by
  intro w
  have hfails : (w.run atLastGeneration).1 =
      .error (.badRequest "revision generation overflow") := by rfl
  exact ⟨hfails, (refused_changes_nothing atLastGeneration).1 w _ hfails⟩

end DocumentDb.Store
