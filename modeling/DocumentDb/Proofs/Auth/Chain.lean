import DocumentDb.Auth.Basic

/-! # Whom a chain of authenticators lets in

A chain asks its authenticators in order and stops at the first one that does not decline. Where all
of them decline, the last one tells why.

* `AuthChain.Asks`: a chain comes to one of its authenticators.
* `AuthChain.Admits`, `AuthChain.Rejects`: a chain finds a user, or fails.
* `AuthChain.authenticate_eq_ok_iff`, `AuthChain.authenticate_eq_error_iff`: the search does what
  they say.
* `AuthChain.authenticate_of_accepted`: nothing depends on what stands behind one that accepts.
-/

namespace DocumentDb

/-- An authenticator declines a request. -/
def Authenticator.Declines (a : Authenticator) (r : Request) (users : UserStore) : Prop :=
  ∃ reason, a.accept r users false = .error (.unauthorized reason)

namespace AuthChain

variable {chain rest : AuthChain} {r : Request} {users : UserStore} {a b : Authenticator}
  {who : Authenticated} {last e : Error}

/-- The chain comes to an authenticator: all before it decline. -/
def Asks (chain : AuthChain) (r : Request) (users : UserStore) (a : Authenticator) : Prop :=
  ∃ before after, chain = before ++ a :: after ∧ ∀ b ∈ before, b.Declines r users

/-- An authenticator that the chain comes to accepts the request. -/
def Admits (chain : AuthChain) (r : Request) (users : UserStore) (who : Authenticated) : Prop :=
  ∃ a user, chain.Asks r users a ∧ a.accept r users false = .ok user ∧ who = ⟨user, a.name⟩

/-- The chain is empty and the failure is the given one, or all its authenticators decline and the
failure is that of the last one, or one that it comes to fails otherwise than by declining. -/
def RejectsFrom (last : Error) (chain : AuthChain) (r : Request) (users : UserStore)
    (e : Error) : Prop :=
  (chain = [] ∧ e = last) ∨
  (∃ before a, chain = before ++ [a] ∧ (∀ b ∈ chain, b.Declines r users) ∧
    a.accept r users false = .error e) ∨
  ∃ a, chain.Asks r users a ∧ a.accept r users false = .error e ∧
    ∀ reason, e ≠ .unauthorized reason

/-- The chain fails on the request. -/
def Rejects (chain : AuthChain) (r : Request) (users : UserStore) (e : Error) : Prop :=
  RejectsFrom (.unauthorized "authentication required") chain r users e

theorem asks_cons :
    Asks (b :: rest) r users a ↔ b = a ∨ (b.Declines r users ∧ Asks rest r users a) := by
  constructor
  · rintro ⟨before, after, hchain, hbefore⟩
    obtain ⟨rfl, hsame⟩ | ⟨before', rfl, hrest⟩ := List.cons_eq_append_iff.1 hchain
    · exact .inl (List.cons.inj hsame).1.symm
    · obtain ⟨hb, hbefore'⟩ := List.forall_mem_cons.1 hbefore
      exact .inr ⟨hb, before', after, hrest, hbefore'⟩
  · rintro (rfl | ⟨hb, before, after, rfl, hbefore⟩)
    · exact ⟨[], rest, rfl, fun _ h => nomatch h⟩
    · exact ⟨b :: before, after, rfl, List.forall_mem_cons.2 ⟨hb, hbefore⟩⟩

theorem not_asks_nil : ¬ Asks [] r users a := by
  rintro ⟨before, after, hchain, -⟩
  simp at hchain

theorem not_admits_nil : ¬ Admits [] r users who := by
  rintro ⟨a, user, hasks, -⟩
  exact not_asks_nil hasks

theorem admits_cons : Admits (b :: rest) r users who ↔
    (∃ user, b.accept r users false = .ok user ∧ who = ⟨user, b.name⟩) ∨
      (b.Declines r users ∧ Admits rest r users who) := by
  unfold Admits
  simp only [asks_cons]
  constructor
  · rintro ⟨a, user, rfl | ⟨hb, hasks⟩, haccept⟩
    · exact .inl ⟨user, haccept⟩
    · exact .inr ⟨hb, a, user, hasks, haccept⟩
  · rintro (⟨user, haccept⟩ | ⟨hb, a, user, hasks, haccept⟩)
    · exact ⟨b, user, .inl rfl, haccept⟩
    · exact ⟨a, user, .inr ⟨hb, hasks⟩, haccept⟩

theorem rejectsFrom_nil : RejectsFrom last [] r users e ↔ e = last := by
  simp [RejectsFrom, not_asks_nil]

theorem rejectsFrom_cons : RejectsFrom last (b :: rest) r users e ↔
    (b.accept r users false = .error e ∧ ∀ reason, e ≠ .unauthorized reason) ∨
      ∃ reason, b.accept r users false = .error (.unauthorized reason) ∧
        RejectsFrom (.unauthorized reason) rest r users e := by
  constructor
  · rintro (⟨hempty, -⟩ | ⟨before, a, hchain, hall, hfails⟩ | ⟨a, hasks, hfails⟩)
    · cases hempty
    · obtain ⟨⟨reason, hb⟩, hrest⟩ := List.forall_mem_cons.1 hall
      obtain ⟨rfl, hsame⟩ | ⟨before', rfl, hsplit⟩ := List.cons_eq_append_iff.1 hchain
      · obtain ⟨rfl, rfl⟩ := List.cons.inj hsame
        cases hb.symm.trans hfails
        exact .inr ⟨reason, hb, .inl ⟨rfl, rfl⟩⟩
      · exact .inr ⟨reason, hb, .inr (.inl ⟨before', a, hsplit, hrest, hfails⟩)⟩
    · obtain rfl | ⟨⟨reason, hb⟩, hasks⟩ := asks_cons.1 hasks
      · exact .inl hfails
      · exact .inr ⟨reason, hb, .inr (.inr ⟨a, hasks, hfails⟩)⟩
  · rintro (hfails | ⟨reason, hb, hrest⟩)
    · exact .inr (.inr ⟨b, asks_cons.2 (.inl rfl), hfails⟩)
    obtain ⟨rfl, rfl⟩ | ⟨before, a, rfl, hall, hfails⟩ | ⟨a, hasks, hfails⟩ := hrest
    · exact .inr (.inl ⟨[], b, rfl, List.forall_mem_cons.2 ⟨⟨reason, hb⟩, fun _ h => nomatch h⟩, hb⟩)
    · exact .inr (.inl ⟨b :: before, a, rfl, List.forall_mem_cons.2 ⟨⟨reason, hb⟩, hall⟩, hfails⟩)
    · exact .inr (.inr ⟨a, asks_cons.2 (.inr ⟨⟨reason, hb⟩, hasks⟩), hfails⟩)

/-! ## The search -/

theorem search_eq_ok_iff :
    search r users false last chain = .ok who ↔ chain.Admits r users who := by
  induction chain generalizing last with
  | nil => simp [search, not_admits_nil]
  | cons b rest ih =>
    rw [admits_cons, Authenticator.Declines, search]
    split
    · next user haccept => simp [haccept, eq_comm]
    · next reason haccept => simp [haccept, ih]
    · next e hother haccept =>
      have hno : ∀ reason, e ≠ .unauthorized reason := fun reason h => hother reason h
      simp [haccept, hno]

theorem search_eq_error_iff :
    search r users false last chain = .error e ↔ RejectsFrom last chain r users e := by
  -- For all failures at hand: whoever declines replaces the failure with its own.
  induction chain generalizing last with
  | nil => simp [search, rejectsFrom_nil, eq_comm]
  | cons b rest ih =>
    rw [rejectsFrom_cons, search]
    split
    · next user haccept => simp [haccept]
    · next reason haccept =>
      simp only [haccept, ih]
      constructor
      · exact fun h => .inr ⟨reason, rfl, h⟩
      · rintro (⟨hsame, hno⟩ | ⟨reason', hsame, hrest⟩)
        · cases hsame
          exact absurd rfl (hno reason)
        · cases hsame
          exact hrest
    · next e' hother haccept =>
      have hno : ∀ reason, e' ≠ .unauthorized reason := fun reason h => hother reason h
      simp only [haccept, Except.error.injEq, hno, false_and, exists_false, or_false]
      constructor
      · rintro rfl
        exact ⟨rfl, hno⟩
      · exact And.left

theorem authenticate_eq_ok_iff :
    chain.authenticate r users false = .ok who ↔ chain.Admits r users who := search_eq_ok_iff

theorem authenticate_eq_error_iff :
    chain.authenticate r users false = .error e ↔ chain.Rejects r users e := search_eq_error_iff

/-- What stands behind an authenticator that accepts is not asked. -/
theorem authenticate_of_accepted {before : AuthChain} {user : UserContext}
    (hbefore : ∀ b ∈ before, b.Declines r users) (haccept : a.accept r users false = .ok user)
    (after : AuthChain) :
    authenticate (before ++ a :: after) r users false = .ok ⟨user, a.name⟩ :=
  authenticate_eq_ok_iff.2 ⟨a, user, ⟨before, after, rfl, hbefore⟩, haccept, rfl⟩

end AuthChain

end DocumentDb
