import DocumentDb.Database.Basic
import DocumentDb.Proofs.Store.Log
import DocumentDb.Store.Bulk
import Mathlib.Logic.Relation

/-! # What happens to a database

Everything that happens to a database is one of four events: a store is committed, the update
sequence is announced, the database is marked as destroyed, or its observers are alerted.

* `Database.Event`, `Database.Reachable`: the events, and the databases that they lead to.
* `Database.events_write`, `Database.events_close`: calls are made of events.
* `Database.applyAll_after`: a bulk write is made of writes.
* `Database.Reachable.sound`, `Database.Reachable.logged`, `Database.Event.log`,
  `Database.Event.closed`: what holds of a reachable database, that its log only ever gets longer,
  and that it stays destroyed.
-/

namespace DocumentDb.Database

/-- Something that happens to a database. -/
inductive Event (db : Database) : Database → Prop where
  | commit (ws : List Store.Write) : Event db (db.commit (db.store.after ws))
  | announce : Event db db.announce
  | markClosed : Event db db.markClosed
  | alert : Event db db.alert

/-- A database to which any events have happened since it was created. -/
inductive Reachable : Database → Prop where
  | create (name : String) : Reachable (create name)
  | event {db db' : Database} (h : Reachable db) (e : db.Event db') : Reachable db'

/-! ## Calls -/

theorem read_eq_ok {α : Type} {db : Database} {cancelled : Bool} {f : Store → α} {a : α} :
    db.read cancelled f = .ok a ↔ cancelled = false ∧ db.closed = false ∧ f db.store = a := by
  unfold read check
  cases cancelled with
  | true => simp [Except.map]
  | false => cases db.closed <;> simp [Except.map]

theorem read_eq_error {α : Type} {db : Database} {cancelled : Bool} {f : Store → α} {e : Error}
    (h : db.read cancelled f = .error e) :
    e = .cancelled ∧ cancelled = true ∨ e = .missing ∧ db.closed = true := by
  unfold read check at h
  cases cancelled with
  | true =>
    cases h
    exact .inl ⟨rfl, rfl⟩
  | false =>
    cases hclosed : db.closed with
    | true =>
      rw [hclosed] at h
      cases h
      exact .inr ⟨rfl, rfl⟩
    | false =>
      rw [hclosed] at h
      cases h

/-- A call that makes some writes to the store is made of events. -/
theorem events_write {α : Type} (db : Database) (cancelled : Bool)
    {f : Store → Except Error α × Store} (hf : ∀ s, ∃ ws, (f s).2 = s.after ws) :
    Relation.ReflTransGen Event db (db.write cancelled f).2 := by
  unfold write
  cases db.check cancelled with
  | error e => exact .refl
  | ok u =>
    obtain ⟨ws, hws⟩ := hf db.store
    have hcommit : db.Event (db.commit (f db.store).2) := by
      rw [hws]
      exact .commit ws
    dsimp only
    split
    · exact .single hcommit
    · exact .tail (.single hcommit) .announce

theorem applyItem_after (newEdits : Bool) (s : Store) (item : Bulk.Item) :
    ∃ ws, (Bulk.applyItem newEdits s item).2 = s.after ws := by
  unfold Bulk.applyItem
  cases item.id with
  | none => exact ⟨[], rfl⟩
  | some id => exact ⟨[.apply id item.edit newEdits], rfl⟩

theorem applyAll_after (newEdits : Bool) (s : Store) (items : List Bulk.Item) :
    ∃ ws, (Bulk.applyAll newEdits s items).2 = s.after ws := by
  induction items generalizing s with
  | nil => exact ⟨[], rfl⟩
  | cons item items ih =>
    obtain ⟨ws, hws⟩ := applyItem_after newEdits s item
    obtain ⟨ws', hws'⟩ := ih (Bulk.applyItem newEdits s item).2
    refine ⟨ws ++ ws', ?_⟩
    rw [Store.after_append, ← hws, ← hws']
    rfl

theorem events_close (db : Database) : Relation.ReflTransGen Event db db.close :=
  .tail (.single .markClosed) .alert

/-! ## Reachable databases -/

theorem Event.store {db db' : Database} (e : db.Event db') :
    ∃ ws, db'.store = db.store.after ws := by
  cases e with
  | commit ws => exact ⟨ws, rfl⟩
  | announce => exact ⟨[], rfl⟩
  | markClosed => exact ⟨[], rfl⟩
  | alert => exact ⟨[], rfl⟩

theorem Reachable.store {db : Database} (h : db.Reachable) :
    ∃ ws, db.store = Store.empty.after ws := by
  induction h with
  | create name => exact ⟨[], rfl⟩
  | event _ e ih =>
    obtain ⟨ws, hws⟩ := ih
    obtain ⟨ws', hws'⟩ := e.store
    exact ⟨ws ++ ws', by rw [Store.after_append, ← hws, hws']⟩

theorem Reachable.sound {db : Database} (h : db.Reachable) : db.store.Sound := by
  obtain ⟨ws, hws⟩ := h.store
  rw [hws]
  exact Store.sound_after ws

theorem Reachable.logged {db : Database} (h : db.Reachable) : db.store.Logged := by
  obtain ⟨ws, hws⟩ := h.store
  rw [hws]
  exact Store.logged_after ws

/-- Nothing brings a destroyed database back. -/
theorem Event.closed {db db' : Database} (e : db.Event db') (h : db.closed = true) :
    db'.closed = true := by
  cases e with
  | commit | announce | alert => exact h
  | markClosed => rfl

theorem Event.log {db db' : Database} (e : db.Event db') (h : db.Reachable) :
    db.store.log <+: db'.store.log := by
  obtain ⟨ws, hws⟩ := e.store
  rw [hws]
  exact h.sound.log_after ws

end DocumentDb.Database
