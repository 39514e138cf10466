import Mathlib.Algebra.BigOperators.Group.List.Basic
import Mathlib.Algebra.Order.Group.Defs
import Mathlib.Tactic.Abel
import Mathlib.Tactic.Common

/-!
# Postings

An operation on a set of accounts is described by its postings: how much it adds to which
account.  The lemmas say what a list of postings changes at one account and in total, and
when no account ends below zero.
-/

namespace Support

universe u v

variable {κ : Type u} {α : Type v} [AddCommGroup α]

/-- What the postings add up to, over all accounts. -/
def netTotal (postings : List (κ × α)) : α := (postings.map Prod.snd).sum

@[simp]
theorem netTotal_nil : netTotal ([] : List (κ × α)) = 0 := rfl

@[simp]
theorem netTotal_cons (posting : κ × α) (postings : List (κ × α)) :
    netTotal (posting :: postings) = posting.2 + netTotal postings := by
  simp [netTotal]

@[simp]
theorem netTotal_append (first second : List (κ × α)) :
    netTotal (first ++ second) = netTotal first + netTotal second := by
  simp [netTotal]

section NetAt

variable [DecidableEq κ]

/-- What the postings change at one account. -/
def netAt (postings : List (κ × α)) (account : κ) : α :=
  (postings.map fun posting => if posting.1 = account then posting.2 else 0).sum

@[simp]
theorem netAt_nil (account : κ) : netAt ([] : List (κ × α)) account = 0 := rfl

@[simp]
theorem netAt_cons (posting : κ × α) (postings : List (κ × α)) (account : κ) :
    netAt (posting :: postings) account =
      (if posting.1 = account then posting.2 else 0) + netAt postings account := by
  simp [netAt]

@[simp]
theorem netAt_append (first second : List (κ × α)) (account : κ) :
    netAt (first ++ second) account = netAt first account + netAt second account := by
  simp [netAt]

theorem netAt_of_not_mem {postings : List (κ × α)} {account : κ}
    (untouched : account ∉ postings.map Prod.fst) : netAt postings account = 0 := by
  induction postings with
  | nil => rfl
  | cons posting rest inductionHypothesis =>
      rw [List.map_cons, List.mem_cons, not_or] at untouched
      rw [netAt_cons, if_neg (Ne.symm untouched.1), inductionHypothesis untouched.2, add_zero]

variable [PartialOrder α] [IsOrderedAddMonoid α]

theorem netAt_nonneg {postings : List (κ × α)} (credits : ∀ posting ∈ postings, 0 ≤ posting.2)
    (account : κ) : 0 ≤ netAt postings account := by
  induction postings with
  | nil => exact le_refl 0
  | cons posting rest inductionHypothesis =>
      have later := inductionHypothesis fun other member =>
        credits other (List.mem_cons_of_mem posting member)
      rw [netAt_cons]
      split
      · exact add_nonneg (credits posting List.mem_cons_self) later
      · rwa [zero_add]

/-- One covered debit, beside credits. -/
theorem covered_debit {postings : List (κ × α)} {from_ account : κ} {amount held : α}
    (nonneg : 0 ≤ held) (covered : from_ = account → amount ≤ held)
    (credits : ∀ posting ∈ postings, 0 ≤ posting.2) :
    0 ≤ held + netAt ((from_, -amount) :: postings) account := by
  have later := netAt_nonneg credits account
  rw [netAt_cons]
  split
  · rename_i here
    have left : 0 ≤ held - amount := sub_nonneg.2 (covered here)
    calc (0 : α) ≤ (held - amount) + netAt postings account := add_nonneg left later
      _ = held + (-amount + netAt postings account) := by abel
  · rw [zero_add]
    exact add_nonneg nonneg later

end NetAt
end Support
