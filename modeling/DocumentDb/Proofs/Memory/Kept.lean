import DocumentDb.Proofs.Call.Within
import DocumentDb.Proofs.Memory.Access
import DocumentDb.Proofs.Store.Refusal

/-! # Calls that leave the databases as they are

Reading leaves everything as it is but for ids that are given out, and so does every call that
fails.

* `Memory.Kept`: two memories are the same but for the supply of ids.
* `Memory.kept_get`, `Memory.kept_openFeed` and others: calls that read.
* `Memory.kept_put`, `Memory.kept_bulk` and others: calls that write, where they fail.
-/

namespace DocumentDb.Memory

/-- The databases, each with its documents and its log, and their names are the same. -/
def Kept (m m' : Memory) : Prop := ∃ ids, m' = { m with ids := ids }

instance : IsPreorder Memory Kept where
  refl m := ⟨m.ids, rfl⟩
  trans m m' m'' := by
    rintro ⟨ids, rfl⟩ ⟨ids', rfl⟩
    exact ⟨ids', rfl⟩

variable {α : Type} (cancelled : Bool) (name : String)

/-! ## Reading -/

theorem kept_look (f : Memory → Except Error α) : Within Kept (Call.look f) :=
  within_of_unmoved fun _ => rfl

theorem kept_ofExcept (r : Except Error α) : Within Kept (Call.ofExcept r : Call Memory α) :=
  kept_look _

theorem kept_ensureLive : Within Kept (Call.ensureLive cancelled : Call Memory Unit) :=
  kept_ofExcept _

theorem kept_read (f : Store → α) : Within Kept (read cancelled name f) := kept_look _

theorem kept_allDbs : Within Kept (allDbs cancelled) :=
  (kept_ensureLive cancelled).bind fun _ => kept_look _

theorem kept_dbExists : Within Kept (dbExists cancelled name) :=
  (kept_ensureLive cancelled).bind fun _ => kept_look _

theorem kept_openDb : Within Kept (openDb cancelled name) :=
  (kept_ensureLive cancelled).bind fun _ => kept_look _

theorem kept_info : Within Kept (info cancelled name) := kept_read cancelled name _

theorem kept_get (id : String) (rev : Option Revision) (o : Options) :
    Within Kept (get cancelled name id rev o) :=
  (kept_ofExcept _).bind fun _ => (kept_read cancelled name _).bind fun _ => kept_ofExcept _

theorem kept_list (o : Options) : Within Kept (list cancelled name o) :=
  (kept_ofExcept _).bind fun _ => kept_read cancelled name _

theorem kept_openFeed (now : Nat) (o : Options) :
    Within Kept (openFeed cancelled now name o) :=
  (kept_ofExcept _).bind fun _ => kept_look _

/-! ## Fresh ids -/

theorem kept_uuids (count : Nat) : Within Kept (uuids cancelled count) :=
  (kept_ensureLive cancelled).bind fun _ m => ⟨(m.ids.take count).2, rfl⟩

theorem kept_freshId : Within Kept freshId := fun m => ⟨m.ids.next.2, rfl⟩

theorem kept_assign (newEdits : Bool) (edits : List Edit) :
    Within Kept (assign newEdits edits) :=
  fun m => ⟨(Bulk.assign newEdits edits m.ids).2, rfl⟩

/-! ## Writes that fail -/

theorem kept_createDb : FailsWithin Kept (createDb cancelled name) := by
  refine .bind (kept_ensureLive cancelled) fun _ => failsWithin_of_outcome fun m e h => ?_
  rw [Call.outcome_ofStep] at h ⊢
  split at h
  · next hknown =>
    rw [if_pos hknown]
    exact Std.Refl.refl m
  · cases h

theorem kept_destroyDb : FailsWithin Kept (destroyDb cancelled name) := by
  refine .bind (kept_ensureLive cancelled) fun _ => failsWithin_of_outcome fun m e h => ?_
  rw [Call.outcome_ofStep] at h ⊢
  cases hfound : m.lookup name with
  | error e => exact Std.Refl.refl m
  | ok found =>
    rw [hfound] at h
    cases h

theorem kept_write {f : Store → Except Error α × Store}
    (hf : ∀ s e, (f s).1 = .error e → (f s).2 = s) :
    FailsWithin Kept (write cancelled name f) := by
  refine failsWithin_of_outcome fun m e h => ?_
  rw [outcome_write_of_refused hf h]
  exact Std.Refl.refl m

theorem kept_run (w : Store.Write) : FailsWithin Kept (write cancelled name fun s => w.run s) :=
  kept_write cancelled name fun s _ h => (w.result s).refused_eq h

theorem kept_put (id : String) (body : Json) (rev : Option Revision) :
    FailsWithin Kept (put cancelled name id body rev) :=
  kept_run cancelled name (.put id body rev)

theorem kept_delete (id : String) (rev : Revision) :
    FailsWithin Kept (delete cancelled name id rev) :=
  kept_run cancelled name (.delete id rev)

theorem kept_createDoc (body : Json) : FailsWithin Kept (createDoc cancelled name body) :=
  .bind kept_freshId fun id => (kept_put cancelled name id body none).bind_pure _

/-- Edits that are refused one by one do not fail the whole. -/
theorem kept_bulk (edits : List Edit) (o : Options) :
    FailsWithin Kept (bulk cancelled name edits o) :=
  .bind (kept_ofExcept _) fun _ => .bind (kept_assign _ edits) fun _ =>
    kept_write cancelled name fun _ _ h => nomatch h

end DocumentDb.Memory
