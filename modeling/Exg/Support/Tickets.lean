import Mathlib.Data.List.Nodup
import Mathlib.Data.Set.Basic
import Mathlib.Logic.Function.Basic

/-!
# Tickets

Owners draw tickets that nobody has drawn before.  An owner holds at most one ticket at a time,
and spends it or drops it.  Whatever the order of their steps, no ticket is spent twice.
-/

namespace Support

universe u v

variable {Owner : Type u} {κ : Type v}

/-- What each owner holds, the tickets that have been drawn and those that have been spent. -/
structure Tickets (held : Owner → Option κ) (drawn : Set κ) (spent : List κ) : Prop where
  spentOnce : spent.Nodup
  spentDrawn : ∀ ticket ∈ spent, ticket ∈ drawn
  heldDrawn : ∀ owner, ∀ ticket ∈ held owner, ticket ∈ drawn
  heldUnspent : ∀ owner, ∀ ticket ∈ held owner, ticket ∉ spent
  heldOnce : ∀ owner other, ∀ ticket ∈ held owner, ticket ∈ held other → owner = other

namespace Tickets

variable {held : Owner → Option κ} {drawn later : Set κ} {spent : List κ}

theorem start (nothing : ∀ owner, held owner = none) : Tickets held drawn [] where
  spentOnce := List.nodup_nil
  spentDrawn _ member := absurd member List.not_mem_nil
  heldDrawn owner _ holds := by simp [nothing owner] at holds
  heldUnspent _ _ _ := List.not_mem_nil
  heldOnce owner _ _ holds := by simp [nothing owner] at holds

theorem mono (tickets : Tickets held drawn spent) (grows : drawn ⊆ later) :
    Tickets held later spent where
  spentOnce := tickets.spentOnce
  spentDrawn ticket member := grows (tickets.spentDrawn ticket member)
  heldDrawn owner ticket holds := grows (tickets.heldDrawn owner ticket holds)
  heldUnspent := tickets.heldUnspent
  heldOnce := tickets.heldOnce

theorem perm {reordered : List κ} (tickets : Tickets held drawn spent)
    (same : spent.Perm reordered) : Tickets held drawn reordered where
  spentOnce := same.nodup_iff.1 tickets.spentOnce
  spentDrawn ticket member := tickets.spentDrawn ticket (same.mem_iff.2 member)
  heldDrawn := tickets.heldDrawn
  heldUnspent owner ticket holds member :=
    tickets.heldUnspent owner ticket holds (same.mem_iff.2 member)
  heldOnce := tickets.heldOnce

variable [DecidableEq Owner] (owner : Owner) {ticket : κ}

/-- An owner keeps what it holds or drops it. -/
theorem keep (tickets : Tickets held drawn spent) {next : Option κ}
    (fewer : ∀ ticket ∈ next, ticket ∈ held owner) :
    Tickets (Function.update held owner next) drawn spent := by
  have had : ∀ tested, ∀ ticket ∈ Function.update held owner next tested,
      ticket ∈ held tested := by
    intro tested ticket holds
    by_cases same : tested = owner
    · subst same
      rw [Function.update_self] at holds
      exact fewer ticket holds
    · rwa [Function.update_of_ne same] at holds
  exact {
    spentOnce := tickets.spentOnce
    spentDrawn := tickets.spentDrawn
    heldDrawn := fun tested ticket holds =>
      tickets.heldDrawn tested ticket (had tested ticket holds)
    heldUnspent := fun tested ticket holds =>
      tickets.heldUnspent tested ticket (had tested ticket holds)
    heldOnce := fun tested other ticket holds otherHolds =>
      tickets.heldOnce tested other ticket (had tested ticket holds) (had other ticket otherHolds) }

/-- An owner draws a ticket that was not drawn before. -/
theorem draw (tickets : Tickets held drawn spent) (fresh : ticket ∉ drawn) (grows : drawn ⊆ later)
    (drawnNow : ticket ∈ later) :
    Tickets (Function.update held owner (some ticket)) later spent := by
  have cases_held : ∀ tested, ∀ found ∈ Function.update held owner (some ticket) tested,
      tested = owner ∧ found = ticket ∨ found ∈ held tested ∧ found ≠ ticket := by
    intro tested found holds
    by_cases same : tested = owner
    · subst same
      rw [Function.update_self] at holds
      exact Or.inl ⟨rfl, (Option.some.inj holds).symm⟩
    · rw [Function.update_of_ne same] at holds
      refine Or.inr ⟨holds, fun isTicket => fresh ?_⟩
      rw [← isTicket]
      exact tickets.heldDrawn tested found holds
  refine {
    spentOnce := tickets.spentOnce
    spentDrawn := fun found member => grows (tickets.spentDrawn found member)
    heldDrawn := fun tested found holds => ?_
    heldUnspent := fun tested found holds member => ?_
    heldOnce := fun tested other found holds otherHolds => ?_ }
  · rcases cases_held tested found holds with ⟨-, rfl⟩ | ⟨had, -⟩
    · exact drawnNow
    · exact grows (tickets.heldDrawn tested found had)
  · rcases cases_held tested found holds with ⟨-, rfl⟩ | ⟨had, -⟩
    · exact fresh (tickets.spentDrawn found member)
    · exact tickets.heldUnspent tested found had member
  · rcases cases_held tested found holds with ⟨here, isTicket⟩ | ⟨had, other_ticket⟩
    · rcases cases_held other found otherHolds with ⟨there, -⟩ | ⟨-, different⟩
      · rw [here, there]
      · exact absurd isTicket different
    · rcases cases_held other found otherHolds with ⟨-, isTicket⟩ | ⟨otherHad, -⟩
      · exact absurd isTicket other_ticket
      · exact tickets.heldOnce tested other found had otherHad

/-- An owner spends the ticket it holds, if it holds one. -/
theorem spend (tickets : Tickets held drawn spent) :
    Tickets (Function.update held owner none) drawn (spent ++ (held owner).toList) := by
  have kept := tickets.keep owner (show ∀ found ∈ none, found ∈ held owner by simp)
  cases holds : held owner with
  | none => simpa using kept
  | some ticket =>
      have unspent := tickets.heldUnspent owner ticket holds
      refine {
        spentOnce := List.nodup_append_comm.1 (List.nodup_cons.2 ⟨unspent, tickets.spentOnce⟩)
        spentDrawn := fun found member => ?_
        heldDrawn := kept.heldDrawn
        heldUnspent := fun tested found had member => ?_
        heldOnce := kept.heldOnce }
      · rcases List.mem_append.1 member with earlier | now
        · exact tickets.spentDrawn found earlier
        · rw [List.mem_singleton.1 now]
          exact tickets.heldDrawn owner ticket holds
      · rcases List.mem_append.1 member with earlier | now
        · exact kept.heldUnspent tested found had earlier
        · rw [List.mem_singleton.1 now] at had
          by_cases same : tested = owner
          · subst same
            simp at had
          · rw [Function.update_of_ne same] at had
            exact same (tickets.heldOnce tested owner ticket had holds)

end Tickets
end Support
