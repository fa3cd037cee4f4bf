import DocumentDb.Proofs.RevTree.Accounts
import DocumentDb.Proofs.RevTree.Winner
import Mathlib.Data.List.Perm.Basic

/-! # Grafts in any order

Paths of one edit set never contradict each other: they agree on the parent of a revision, and on
its flag and body where they give them. Merging their accounts then loses nothing and adds nothing,
so the tree that they build is their union and does not depend on the order in which they come.

* `RevTree.Branch`: a path that can be grafted.
* `RevTree.EditSet`: an assignment of a parent, a flag and a body to every revision.
* `RevTree.EditSet.Conforms`, `RevTree.EditSet.Additive`: accounts that agree with the assignment,
  and properties of which merging such accounts makes the union. `RevTree.EditSet.says_after`: what
  a tree says after grafts.
* `RevTree.Unites`: the tree is the union of some branches.
* `RevTree.graft_order_irrelevant`: the result for every list of branches and every permutation.
-/

namespace DocumentDb.RevTree

/-! ## Branches -/

/-- A path of revisions that exists elsewhere, newest first, with the flag and the body of its
head. -/
structure Branch where
  history : List Revision
  deleted : Bool
  body : Json

namespace Branch

/-- The change that grafts a branch. -/
def change (b : Branch) : Change := .graft b.history b.deleted b.body

/-- The history of a branch can be grafted. -/
def Accepted (b : Branch) : Prop := checkHistory b.history = .ok ()

/-- The accounts that a branch gives of its revisions. -/
def accounts (b : Branch) : List (Revision × Node) :=
  RevTree.accounts b.deleted b.body b.history

end Branch

theorem change_of_accepted (t : RevTree) {b : Branch} (h : b.Accepted) :
    t.change b.change = t.absorbAll b.accounts := by
  have hgraft : (t.graft b.history b.deleted b.body).2 =
      t.absorbPath b.deleted b.body b.history := by
    unfold graft
    rw [h]
  show (t.graft b.history b.deleted b.body).2 = _
  rw [hgraft, absorbPath_eq]
  rfl

theorem change_of_not_accepted (t : RevTree) {b : Branch} (h : ¬ b.Accepted) :
    t.change b.change = t := by
  show (t.graft b.history b.deleted b.body).2 = t
  unfold graft
  cases hc : checkHistory b.history with
  | error e => rfl
  | ok u => exact absurd hc h

/-! ## Edit sets -/

/-- One parent at most, one flag and one body for every revision. -/
structure EditSet where
  parent : Revision → Option Revision
  deleted : Revision → Bool
  body : Revision → Json

namespace EditSet

/-- A branch follows the parents of an edit set, though it may stop early, and its head has the flag
and the body of the edit set. -/
structure Admits (E : EditSet) (b : Branch) : Prop where
  parents : b.history.IsChain fun rev parent => E.parent rev = some parent
  head : ∀ {rev : Revision}, b.history.head? = some rev →
    b.deleted = E.deleted rev ∧ b.body = E.body rev

/-- What is known of a revision agrees with an edit set, and it is no deletion while its body is
unknown. -/
structure Conforms (E : EditSet) (rev : Revision) (node : Node) : Prop where
  parent : ∀ {p : Revision}, node.parent = some p → E.parent rev = some p
  body : ∀ {v : Json}, node.body = some v → E.body rev = v ∧ node.deleted = E.deleted rev
  bare : node.body = none → node.deleted = false

section
variable {E : EditSet} {rev : Revision} {a b node : Node}

theorem Conforms.merge (ha : E.Conforms rev a) (hb : E.Conforms rev b) :
    E.Conforms rev (a.merge b) where
  parent h := by
    rcases Node.parent_merge h with h | h
    · exact ha.parent h
    · exact hb.parent h
  body {v} h := by
    cases hav : a.body with
    | some w =>
      have hw : w = v := by simpa [Node.merge, hav] using h
      have hdeleted : (a.merge b).deleted = a.deleted := by simp [Node.merge, hav]
      rw [hdeleted, ← hw]
      exact ha.body hav
    | none =>
      have hbv : b.body = some v := by simpa [Node.merge, hav] using h
      have hdeleted : (a.merge b).deleted = b.deleted := by simp [Node.merge, hav, hbv]
      rw [hdeleted]
      exact hb.body hbv
  bare h := by
    obtain ⟨hav, hbv⟩ := Node.body_merge_eq_none h
    have hdeleted : (a.merge b).deleted = a.deleted := by simp [Node.merge, hav, hbv]
    rw [hdeleted]
    exact ha.bare hav

theorem Admits.conforms {x : Branch} (hx : E.Admits x) (h : (rev, node) ∈ x.accounts) :
    E.Conforms rev node := by
  have hnext : ∀ newer older, x.history = newer ++ rev :: older →
      ∀ p, older.head? = some p → E.parent rev = some p := by
    intro newer older hsplit p hp
    obtain ⟨more, rfl⟩ := List.head?_eq_some_iff.1 hp
    have hinfix : [rev, p] <:+: x.history := ⟨newer, more, by simp [hsplit]⟩
    have hpair := List.IsChain.infix hx.parents hinfix
    exact hpair.rel
  obtain ⟨older, hsplit, rfl⟩ | ⟨first, newer, older, hsplit, rfl⟩ := mem_accounts.1 h
  · have hhead : x.history.head? = some rev := by rw [hsplit]; rfl
    obtain ⟨hdeleted, hbody⟩ := hx.head hhead
    constructor
    · exact hnext [] older hsplit _
    · intro v hv
      cases hv
      exact ⟨hbody.symm, hdeleted⟩
    · intro hnone
      cases hnone
  · constructor
    · exact hnext (first :: newer) older hsplit _
    · intro v hv
      cases hv
    · exact fun _ => rfl

/-- A property of accounts of which merging makes the union. -/
def Additive (E : EditSet) (rev : Revision) (φ : Node → Prop) : Prop :=
  ∀ a b, E.Conforms rev a → E.Conforms rev b → (φ (a.merge b) ↔ φ a ∨ φ b)

theorem additive_true (rev : Revision) : E.Additive rev fun _ => True := by
  intro a b _ _
  simp

theorem additive_parent (rev p : Revision) :
    E.Additive rev fun node => node.parent = some p := by
  intro a b ha hb
  constructor
  · exact Node.parent_merge
  · rintro (h | h)
    · simp [Node.merge, h]
    · cases hap : a.parent with
      | none => simp [Node.merge, hap, h]
      | some q =>
        have hq : some q = some p := (ha.parent hap).symm.trans (hb.parent h)
        simp [Node.merge, hap, Option.some.inj hq]

theorem additive_body (rev : Revision) (v : Json) :
    E.Additive rev fun node => node.body = some v := by
  intro a b ha hb
  cases hav : a.body with
  | none => simp [Node.merge, hav]
  | some w =>
    have hkeep : (a.merge b).body = a.body := by simp [Node.merge, hav]
    show (a.merge b).body = some v ↔ a.body = some v ∨ b.body = some v
    rw [hkeep]
    constructor
    · exact .inl
    · rintro (h | h)
      · exact h
      · rw [hav, ← (ha.body hav).1, (hb.body h).1]

theorem additive_deleted (rev : Revision) : E.Additive rev fun node => node.deleted = true := by
  intro a b ha hb
  cases hav : a.body with
  | none =>
    have hbare : a.deleted = false := ha.bare hav
    cases hbv : b.body with
    | none => simp [Node.merge, hav, hbv, hbare, hb.bare hbv]
    | some v => simp [Node.merge, hav, hbv, hbare]
  | some w =>
    have hkeep : (a.merge b).deleted = a.deleted := by simp [Node.merge, hav]
    show (a.merge b).deleted = true ↔ a.deleted = true ∨ b.deleted = true
    rw [hkeep]
    constructor
    · exact .inl
    · rintro (h | h)
      · exact h
      -- The second account has a flag to lose only if it has a body, and then the flags agree.
      · cases hbv : b.body with
        | none =>
          rw [hb.bare hbv] at h
          cases h
        | some v => rw [(ha.body hav).2, ← (hb.body hbv).2, h]

end

/-! ## Merging in the accounts of branches -/

/-- All that a tree knows agrees with an edit set. -/
def Covers (E : EditSet) (t : RevTree) : Prop :=
  ∀ {rev : Revision} {node : Node}, t.get? rev = some node → E.Conforms rev node

section
variable {E : EditSet} {t : RevTree} {rev : Revision} {φ : Node → Prop}

theorem covers_empty : E.Covers empty := fun h => by cases h

theorem Covers.absorb (ht : E.Covers t) {offered : Node} (hoffered : E.Conforms rev offered) :
    E.Covers (t.absorb rev offered) := by
  intro other node h
  rcases get?_absorb_cases h with ⟨rfl, rfl | ⟨known, hknown, rfl⟩⟩ | hother
  · exact hoffered
  · exact (ht hknown).merge hoffered
  · exact ht hother

theorem Covers.absorbAll (ht : E.Covers t) {accs : List (Revision × Node)}
    (haccs : ∀ a ∈ accs, E.Conforms a.1 a.2) (hφ : E.Additive rev φ) :
    E.Covers (t.absorbAll accs) ∧
      ((t.absorbAll accs).Says rev φ ↔
        t.Says rev φ ∨ ∃ node, (rev, node) ∈ accs ∧ φ node) := by
  induction accs generalizing t with
  | nil => exact ⟨ht, by simp [RevTree.absorbAll]⟩
  | cons a accs ih =>
    obtain ⟨other, offered⟩ := a
    have hoffered : E.Conforms other offered := haccs _ List.mem_cons_self
    obtain ⟨hcovers, htold⟩ :=
      ih (ht.absorb hoffered) fun a ha => haccs a (List.mem_cons_of_mem _ ha)
    refine ⟨hcovers, ?_⟩
    have hstep : (t.absorb other offered).Says rev φ ↔
        t.Says rev φ ∨ rev = other ∧ φ offered := by
      apply says_absorb
      rintro rfl known hknown
      exact hφ known offered (ht hknown) hoffered
    show ((t.absorb other offered).absorbAll accs).Says rev φ ↔ _
    rw [htold, hstep, or_assoc, exists_mem_cons]

/-- A tree says after grafts what it said before or what an accepted branch says. -/
theorem Covers.after (ht : E.Covers t) {bs : List Branch} (hbs : ∀ b ∈ bs, E.Admits b)
    (hφ : E.Additive rev φ) :
    (t.after (bs.map Branch.change)).Says rev φ ↔
      t.Says rev φ ∨ ∃ b ∈ bs, b.Accepted ∧ ∃ node, (rev, node) ∈ b.accounts ∧ φ node := by
  induction bs generalizing t with
  | nil => simp [RevTree.after]
  | cons b bs ih =>
    have hrest : ∀ x ∈ bs, E.Admits x := fun x hx => hbs x (List.mem_cons_of_mem _ hx)
    show ((t.change b.change).after (bs.map Branch.change)).Says rev φ ↔ _
    by_cases hb : b.Accepted
    · have hconforms : ∀ a ∈ b.accounts, E.Conforms a.1 a.2 :=
        fun a ha => (hbs b List.mem_cons_self).conforms ha
      obtain ⟨hcovers, htold⟩ := ht.absorbAll hconforms hφ
      rw [change_of_accepted t hb, ih hcovers hrest, htold, or_assoc]
      simp [hb]
    · rw [change_of_not_accepted t hb, ih ht hrest]
      simp [hb]

theorem says_after {bs : List Branch} (hbs : ∀ b ∈ bs, E.Admits b) (hφ : E.Additive rev φ) :
    (empty.after (bs.map Branch.change)).Says rev φ ↔
      ∃ b ∈ bs, b.Accepted ∧ ∃ node, (rev, node) ∈ b.accounts ∧ φ node := by
  rw [covers_empty.after hbs hφ]
  simp [not_says_empty]

end

end EditSet

/-! ## Unions of branches -/

/-- A tree holds what the accepted ones of some branches tell, and nothing else: the revisions on
them, the parents that come next on them, and the flags and the bodies of their heads. -/
structure Unites (t : RevTree) (bs : List Branch) : Prop where
  revision : ∀ {rev : Revision}, t.contains rev = true ↔ ∃ b ∈ bs, b.Accepted ∧ rev ∈ b.history
  parent : ∀ {rev : Revision} {node : Node}, t.get? rev = some node → ∀ {p : Revision},
    node.parent = some p ↔ ∃ b ∈ bs, b.Accepted ∧ [rev, p] <:+: b.history
  deleted : ∀ {rev : Revision} {node : Node}, t.get? rev = some node →
    (node.deleted = true ↔
      ∃ b ∈ bs, b.Accepted ∧ b.history.head? = some rev ∧ b.deleted = true)
  body : ∀ {rev : Revision} {node : Node}, t.get? rev = some node → ∀ {v : Json},
    node.body = some v ↔ ∃ b ∈ bs, b.Accepted ∧ b.history.head? = some rev ∧ b.body = v

theorem EditSet.unites_after {E : EditSet} {bs : List Branch} (hbs : ∀ b ∈ bs, E.Admits b) :
    (empty.after (bs.map Branch.change)).Unites bs where
  revision {rev} := by
    have hcontains : (empty.after (bs.map Branch.change)).contains rev = true ↔
        (empty.after (bs.map Branch.change)).Says rev fun _ => True := by
      simp [contains_iff, Says]
    rw [hcontains, EditSet.says_after hbs (EditSet.additive_true rev)]
    simp only [and_true, Branch.accounts, exists_account]
  parent {rev node} hnode {p} := by
    have h := EditSet.says_after hbs (EditSet.additive_parent rev p)
    rw [says_of_get? hnode] at h
    simpa only [Branch.accounts, exists_account_parent] using h
  deleted {rev node} hnode := by
    have h := EditSet.says_after hbs (EditSet.additive_deleted rev)
    rw [says_of_get? hnode] at h
    simpa only [Branch.accounts, exists_account_deleted] using h
  body {rev node} hnode {v} := by
    have h := EditSet.says_after hbs (EditSet.additive_body rev v)
    rw [says_of_get? hnode] at h
    simpa only [Branch.accounts, exists_account_body] using h

section
variable {t u : RevTree} {bs bs' : List Branch}

theorem Unites.perm (ht : t.Unites bs) (h : bs.Perm bs') : t.Unites bs' where
  revision := by
    simp only [← h.mem_iff]
    exact ht.revision
  parent hnode := by
    simp only [← h.mem_iff]
    exact ht.parent hnode
  deleted hnode := by
    simp only [← h.mem_iff]
    exact ht.deleted hnode
  body hnode := by
    simp only [← h.mem_iff]
    exact ht.body hnode

/-- Branches have one union. -/
theorem Unites.unique (ht : t.Unites bs) (hu : u.Unites bs) : t = u := by
  have hheld : ∀ rev, t.contains rev = true ↔ u.contains rev = true := by
    intro rev
    rw [ht.revision, hu.revision]
  apply ext_get?
  intro rev
  cases htn : t.get? rev with
  | none =>
    have hnot : ¬ u.contains rev = true := by
      rw [← hheld, Bool.not_eq_true, contains_eq_false]
      exact htn
    rw [Bool.not_eq_true, contains_eq_false] at hnot
    exact hnot.symm
  | some a =>
    obtain ⟨b, hun⟩ := contains_iff.1 ((hheld rev).1 (contains_iff.2 ⟨a, htn⟩))
    have hparent : a.parent = b.parent := by
      apply Option.ext
      intro p
      rw [ht.parent htn, hu.parent hun]
    have hdeleted : a.deleted = b.deleted := by
      rw [Bool.eq_iff_iff, ht.deleted htn, hu.deleted hun]
    have hbody : a.body = b.body := by
      apply Option.ext
      intro v
      rw [ht.body htn, hu.body hun]
    rw [hun]
    cases a
    cases b
    simp_all

end

/-- Branches that come from one edit set, invalid ones included, build the same tree in every order,
and that tree is their union. Winner, leaves, conflicts and deletion are read off the tree, so they
are the same too. -/
theorem graft_order_irrelevant (E : EditSet) {bs bs' : List Branch} (hbs : ∀ b ∈ bs, E.Admits b)
    (h : bs.Perm bs') :
    empty.after (bs.map Branch.change) = empty.after (bs'.map Branch.change) ∧
      (empty.after (bs.map Branch.change)).Unites bs := by
  have hbs' : ∀ b ∈ bs', E.Admits b := fun b hb => hbs b (h.mem_iff.2 hb)
  have hunites := E.unites_after hbs
  exact ⟨hunites.unique ((E.unites_after hbs').perm h.symm), hunites⟩

/-- A chain of three revisions, with a fourth that skips a generation. -/
def chainEdits : EditSet where
  parent rev :=
    if rev = ⟨3, "c"⟩ then some ⟨2, "b"⟩
    else if rev = ⟨2, "b"⟩ ∨ rev = ⟨3, "d"⟩ then some ⟨1, "a"⟩
    else none
  deleted rev := rev = ⟨2, "b"⟩
  body _ := .emptyObject

/-- The middle of the chain is first known by its name, then filled in by a branch that also tells
its parent. The last branch is refused. -/
def chainBranches : List Branch :=
  [⟨[⟨3, "c"⟩, ⟨2, "b"⟩], false, .emptyObject⟩, ⟨[⟨2, "b"⟩, ⟨1, "a"⟩], true, .emptyObject⟩,
    ⟨[⟨3, "d"⟩, ⟨1, "a"⟩], false, .emptyObject⟩]

theorem chainBranches_reversed :
    (∀ b ∈ chainBranches, chainEdits.Admits b) ∧ chainBranches.Perm chainBranches.reverse ∧
      empty.after (chainBranches.map Branch.change) =
        empty.after (chainBranches.reverse.map Branch.change) ∧
      (empty.after (chainBranches.map Branch.change)).Unites chainBranches := by
  have hadmits : ∀ b ∈ chainBranches, chainEdits.Admits b := by
    intro b hb
    simp only [chainBranches, List.mem_cons, List.not_mem_nil, or_false] at hb
    rcases hb with rfl | rfl | rfl
    all_goals
      constructor
      · decide
      · intro rev hrev
        cases hrev
        exact ⟨rfl, rfl⟩
  have hperm : chainBranches.Perm chainBranches.reverse := (List.reverse_perm _).symm
  exact ⟨hadmits, hperm, graft_order_irrelevant chainEdits hadmits hperm⟩

end DocumentDb.RevTree
