import DocumentDb.Memory
import DocumentDb.Proofs.Call.Within
import DocumentDb.Proofs.Database.Events

/-! # What happens to the databases of a client

A database comes into being under a name that is free, and it keeps its position for good. Its name
may be taken away from it and given to another one, and a call that has found it before may still
act on it.

* `Memory.Event`, `Memory.Reachable`: the events, and the memories that they lead to.
* `Memory.Evolves`: a call is made of events. `Memory.evolves_createDb`, `Memory.evolves_destroyDb`,
  `Memory.evolves_put`, `Memory.evolves_createDoc`, `Memory.evolves_delete`, `Memory.evolves_bulk`:
  so are those of the client.
* `Memory.Event.database_at`, `Memory.Reachable.database_at`: what happens to the database at one
  position are events of this database.
-/

namespace DocumentDb.Memory

/-- Something that happens to the databases of a client. -/
inductive Event (m : Memory) : Memory → Prop where
  | create {name : String} (hfree : m.catalog.contains name = false) :
      Event m { m with
        databases := m.databases ++ [.create name]
        catalog := m.catalog.insert name m.databases.length }
  /-- A name is taken away from its database. -/
  | release (name : String) : Event m { m with catalog := m.catalog.erase name }
  /-- Something happens to a database, with or without a name. -/
  | database {i : Nat} {db db' : Database} (hdb : m.databases[i]? = some db)
      (e : db.Event db') : Event m (m.setAt i db')
  | supply (ids : IdSupply) : Event m { m with ids := ids }

/-- A memory to which any events have happened since it was empty. -/
inductive Reachable : Memory → Prop where
  | empty (ids : IdSupply) : Reachable (empty ids)
  | event {m m' : Memory} (h : Reachable m) (e : m.Event m') : Reachable m'

/-! ## Positions -/

section
variable {m m' : Memory} {i j : Nat} {db db' : Database}

theorem lookup_eq_ok {name : String} :
    m.lookup name = .ok (i, db) ↔ m.catalog.get? name = some i ∧ m.databases[i]? = some db := by
  unfold lookup
  constructor
  · intro h
    split at h
    · cases h
    · next j hname =>
      split at h
      · cases h
      · next found hdb =>
        cases h
        exact ⟨hname, hdb⟩
  · rintro ⟨hname, hdb⟩
    simp only [hname, hdb]

theorem setAt_self (h : m.databases[i]? = some db) : m.setAt i db = m := by
  obtain ⟨hi, rfl⟩ := List.getElem?_eq_some_iff.1 h
  rw [setAt, List.set_getElem_self]

theorem setAt_setAt : (m.setAt i db).setAt i db' = m.setAt i db' := by
  simp [setAt, List.set_set]

theorem database_setAt (h : m.databases[i]? = some db) :
    (m.setAt i db').databases[i]? = some db' := by
  have hi : i < m.databases.length := (List.getElem?_eq_some_iff.1 h).1
  simp [setAt, hi]

theorem database_setAt_of_ne (h : j ≠ i) :
    (m.setAt i db').databases[j]? = m.databases[j]? := by
  simp [setAt, List.getElem?_set_ne h.symm]

/-- A database stays at its position, and what happens there is an event of it. -/
theorem Event.database_at (e : m.Event m') (h : m.databases[i]? = some db) :
    ∃ db', m'.databases[i]? = some db' ∧ (db' = db ∨ db.Event db') := by
  cases e with
  | create hfree =>
    have hi : i < m.databases.length := (List.getElem?_eq_some_iff.1 h).1
    exact ⟨db, by rw [List.getElem?_append_left hi, h], .inl rfl⟩
  | release name => exact ⟨db, h, .inl rfl⟩
  | @database j old new hold e =>
    by_cases hij : i = j
    · subst hij
      rw [h] at hold
      cases hold
      exact ⟨new, database_setAt h, .inr e⟩
    · exact ⟨db, by rw [database_setAt_of_ne hij, h], .inl rfl⟩
  | supply ids => exact ⟨db, h, .inl rfl⟩

/-- Where the database at a position comes from. -/
theorem Event.origin (e : m.Event m') (h : m'.databases[i]? = some db') :
    (∃ db, m.databases[i]? = some db ∧ (db' = db ∨ db.Event db')) ∨
      ∃ name, db' = .create name := by
  cases hold : m.databases[i]? with
  | some db =>
    obtain ⟨db'', h', hdb⟩ := e.database_at hold
    rw [h] at h'
    cases h'
    exact .inl ⟨db, rfl, hdb⟩
  | none =>
    right
    cases e with
    | @create name hfree =>
      have hi : m.databases.length ≤ i := List.getElem?_eq_none_iff.1 hold
      rw [List.getElem?_append_right hi] at h
      exact ⟨name, List.mem_singleton.1 (List.mem_of_getElem? h)⟩
    | release name =>
      have hsame : m.databases[i]? = some db' := h
      rw [hsame] at hold
      cases hold
    | @database j old new hj e =>
      have hij : i ≠ j := by
        rintro rfl
        rw [hj] at hold
        cases hold
      rw [database_setAt_of_ne hij, hold] at h
      cases h
    | supply ids =>
      have hsame : m.databases[i]? = some db' := h
      rw [hsame] at hold
      cases hold

theorem Reachable.database_at (hm : m.Reachable) (h : m.databases[i]? = some db) :
    db.Reachable := by
  induction hm generalizing db with
  | empty ids => cases h
  | event _ e ih =>
    obtain ⟨old, hold, rfl | hevent⟩ | ⟨name, rfl⟩ := e.origin h
    · exact ih hold
    · exact (ih hold).event hevent
    · exact .create name

/-- Events of a database are events of the memory that it is in. -/
theorem events_setAt (h : m.databases[i]? = some db)
    (hevents : Relation.ReflTransGen Database.Event db db') :
    Relation.ReflTransGen Event m (m.setAt i db') := by
  induction hevents with
  | refl => rw [setAt_self h]
  | @tail old new _ e ih =>
    have hstep : (m.setAt i old).Event ((m.setAt i old).setAt i new) :=
      .database (database_setAt h) e
    rw [setAt_setAt] at hstep
    exact ih.tail hstep

end

/-! ## Calls -/

/-- A call is made of events. -/
def Evolves {α : Type} (c : Call Memory α) : Prop :=
  ∀ m, Relation.ReflTransGen Event m (c.outcome m).2

section
variable {α β : Type} (cancelled : Bool)

theorem evolves_bind {c : Call Memory α} {f : α → Call Memory β} (hc : Evolves c)
    (hf : ∀ a, Evolves (f a)) : Evolves (c >>= f) := by
  have hpreorder : IsPreorder Memory (Relation.ReflTransGen Event) :=
    { refl := fun _ => .refl, trans := fun _ _ _ h h' => h.trans h' }
  have hfirst : Within (Relation.ReflTransGen Event) c := hc
  exact hfirst.bind hf

theorem evolves_pure (a : α) : Evolves (pure a) := fun _ => .refl

theorem evolves_ofExcept (r : Except Error α) : Evolves (Call.ofExcept r) := fun _ => .refl

theorem evolves_ensureLive : Evolves (Call.ensureLive cancelled) := fun _ => .refl

theorem evolves_createDb (name : String) : Evolves (createDb cancelled name) := by
  refine evolves_bind (evolves_ensureLive cancelled) fun _ m => ?_
  rw [Call.outcome_ofStep]
  split
  · exact .refl
  · next hfree => exact .single (.create (by simpa using hfree))

theorem evolves_destroyDb (name : String) : Evolves (destroyDb cancelled name) := by
  refine evolves_bind (evolves_ensureLive cancelled) fun _ m => ?_
  rw [Call.outcome_ofStep]
  split
  · exact .refl
  · next i db hfound =>
    obtain ⟨-, hdb⟩ := lookup_eq_ok.1 hfound
    -- The name is gone before anybody is told that the database is closed.
    have hrelease : m.Event { m with catalog := m.catalog.erase name } := .release name
    have hclose := events_setAt (m := { m with catalog := m.catalog.erase name }) hdb
      db.events_close
    exact (Relation.ReflTransGen.single hrelease).trans hclose

/-- A call that makes some writes to the store of a database is made of events. -/
theorem evolves_write (name : String) {f : Store → Except Error α × Store}
    (hf : ∀ s, ∃ ws, (f s).2 = s.after ws) : Evolves (write cancelled name f) := by
  intro m
  show Relation.ReflTransGen Event m ((Call.ofStep _).outcome m).2
  rw [Call.outcome_ofStep]
  cases hfound : m.lookup name with
  | error e => exact .refl
  | ok found =>
    obtain ⟨i, db⟩ := found
    obtain ⟨-, hdb⟩ := lookup_eq_ok.1 hfound
    exact events_setAt hdb (db.events_write cancelled hf)

theorem evolves_put (name id : String) (body : Json) (rev : Option Revision) :
    Evolves (put cancelled name id body rev) :=
  evolves_write cancelled name fun _ => ⟨[.put id body rev], rfl⟩

theorem evolves_freshId : Evolves freshId := fun m => .single (.supply m.ids.next.2)

theorem evolves_createDoc (name : String) (body : Json) :
    Evolves (createDoc cancelled name body) :=
  evolves_bind evolves_freshId fun id =>
    evolves_bind (evolves_put cancelled name id body none) fun _ => evolves_pure _

theorem evolves_delete (name id : String) (rev : Revision) :
    Evolves (delete cancelled name id rev) :=
  evolves_write cancelled name fun _ => ⟨[.delete id rev], rfl⟩

theorem evolves_bulk (name : String) (edits : List Edit) (o : Options) :
    Evolves (bulk cancelled name edits o) := by
  refine evolves_bind (evolves_ofExcept _) fun newEdits => ?_
  refine evolves_bind (fun m => .single (.supply _)) fun items => ?_
  exact evolves_write cancelled name fun s => Database.applyAll_after _ s items

end

end DocumentDb.Memory
