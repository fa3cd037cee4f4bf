import DocumentDb.Client.Basic
import DocumentDb.Proofs.Memory.Kept

/-! # Calls of a client that leave the databases as they are

A client reaches its databases through a backend. What holds of the calls on databases in memory
holds of its calls: reading keeps the databases, and so does every call that fails.

* `Backend.Kept`: the same but for the supply of ids.
* `Client.kept_openDb`, `Handle.kept_get` and others: calls that read.
* `Client.kept_createDb`, `Handle.kept_put` and others: calls that write, where they fail.
-/

namespace DocumentDb

namespace Backend

/-- The backend with another supply of ids. -/
def withIds (ids : IdSupply) : Backend → Backend
  | memory m => memory { m with ids }
  | answering a => answering a

/-- Two backends are the same but for the supply of ids. -/
def Kept (b b' : Backend) : Prop := ∃ ids, b' = b.withIds ids

instance : IsPreorder Backend Kept where
  refl b := ⟨match b with | memory m => m.ids | answering _ => .initial, by cases b <;> rfl⟩
  trans b b' b'' := by
    rintro ⟨ids, rfl⟩ ⟨ids', rfl⟩
    exact ⟨ids', by cases b <;> rfl⟩

variable {α : Type}

theorem kept_run {c : Call Memory α} (hc : Within Memory.Kept c)
    (answer : Answers → Except Error α) : Within Kept (run c answer) := by
  intro b
  cases b with
  | memory m =>
    obtain ⟨ids, hids⟩ := hc m
    exact ⟨ids, congrArg memory hids⟩
  | answering a => exact Std.Refl.refl _

theorem kept_run_of_fails {c : Call Memory α} (hc : FailsWithin Memory.Kept c)
    (answer : Answers → Except Error α) : FailsWithin Kept (run c answer) := by
  intro b e h
  cases b with
  | memory m =>
    obtain ⟨ids, hids⟩ := hc m e h
    exact ⟨ids, congrArg memory hids⟩
  | answering a => exact Std.Refl.refl _

theorem kept_capability (name : String) {c : Option (Call Memory α)}
    (hc : ∀ c' ∈ c, Within Memory.Kept c') (answer : Answers → Option (Except Error α)) :
    Within Kept (capability name c answer) := by
  cases c with
  | none => exact kept_run (Memory.kept_ofExcept _) _
  | some c => exact kept_run (hc c rfl) _

theorem kept_ofExcept (r : Except Error α) : Within Kept (Call.ofExcept r : Call Backend α) :=
  within_of_unmoved fun _ => rfl

end Backend

open Backend (kept_run kept_run_of_fails kept_capability)

/-! ## Calls -/

namespace Client

variable (c : Client) (cancelled : Bool)

theorem kept_serverInfo (o : Options) : Within Backend.Kept (c.serverInfo cancelled o) :=
  kept_run ((Memory.kept_ensureLive cancelled).bind fun _ => within_pure _) _

theorem kept_allDbs (o : Options) : Within Backend.Kept (c.allDbs cancelled o) :=
  kept_run (Memory.kept_allDbs cancelled) _

theorem kept_openDb (name : String) (o : Options) :
    Within Backend.Kept (c.openDb cancelled name o) :=
  (kept_run (Memory.kept_openDb cancelled name) _).bind fun _ => within_pure _

theorem kept_uuids (count : Nat) : Within Backend.Kept (c.uuids cancelled count) := by
  have hgiven : Within Backend.Kept (Backend.uuids cancelled count) :=
    kept_capability _ (by rintro _ ⟨⟩; exact Memory.kept_uuids cancelled count) _
  unfold uuids
  split
  · exact (within_throw _).bind fun _ => hgiven
  · exact hgiven

theorem kept_membership : Within Backend.Kept (c.membership cancelled) := by
  refine kept_capability _ ?_ _
  rintro _ ⟨⟩
  exact (Memory.kept_ensureLive cancelled).bind fun _ => within_pure _

theorem kept_log (length offset : Nat) : Within Backend.Kept (c.log cancelled length offset) :=
  kept_capability _ (by rintro _ ⟨⟩) _

theorem kept_createDb (name : String) (o : Options) :
    FailsWithin Backend.Kept (c.createDb cancelled name o) :=
  .bind (Backend.kept_ofExcept _) fun _ =>
    kept_run_of_fails (Memory.kept_createDb cancelled name) _

theorem kept_destroyDb (name : String) (o : Options) :
    FailsWithin Backend.Kept (c.destroyDb cancelled name o) :=
  kept_run_of_fails (Memory.kept_destroyDb cancelled name) _

end Client

namespace Handle

variable (h : Handle) (cancelled : Bool)

theorem kept_info : Within Backend.Kept (h.info cancelled) :=
  kept_run (Memory.kept_info cancelled h.name) _

theorem kept_get (id : String) (rev : Option Revision) (o : Options) :
    Within Backend.Kept (h.get cancelled id rev o) :=
  kept_run (Memory.kept_get cancelled h.name id rev _) _

theorem kept_list (o : Options) : Within Backend.Kept (h.list cancelled o) :=
  kept_run (Memory.kept_list cancelled h.name _) _

theorem kept_openFeed (now : Nat) (o : Options) :
    Within Backend.Kept (h.openFeed cancelled now o) :=
  kept_run (Memory.kept_openFeed cancelled h.name now _) _

theorem kept_put (id : String) (body : Json) (rev : Option Revision) :
    FailsWithin Backend.Kept (h.put cancelled id body rev) :=
  kept_run_of_fails (Memory.kept_put cancelled h.name id body rev) _

theorem kept_delete (id : String) (rev : Revision) :
    FailsWithin Backend.Kept (h.delete cancelled id rev) :=
  kept_run_of_fails (Memory.kept_delete cancelled h.name id rev) _

theorem kept_createDoc (body : Json) : FailsWithin Backend.Kept (h.createDoc cancelled body) :=
  kept_run_of_fails (Memory.kept_createDoc cancelled h.name body) _

theorem kept_bulk (edits : List Edit) (o : Options) :
    FailsWithin Backend.Kept (h.bulk cancelled edits o) :=
  kept_run_of_fails (Memory.kept_bulk cancelled h.name edits _) _

end Handle

end DocumentDb
