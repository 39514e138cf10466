import Mathlib.Data.List.Basic
import Mathlib.Tactic.Common

/-!
# Cutting an ordered list

A condition that fails from some point of a list on, or holds from some point on, cuts the list
in two: there the first part up to the cut, or the rest from it, is a filter.
-/

namespace Support

universe u

variable {α : Type u} {relation : α → α → Prop} {test : α → Bool} {items : List α}

/-- A prefix that ends where a condition first fails is everything that meets it, when
the condition fails from some point on. -/
theorem takeWhile_eq_filter_of_pairwise
    (antitone : ∀ earlier later, relation earlier later → test later = true → test earlier = true)
    (ordered : items.Pairwise relation) :
    items.takeWhile test = items.filter test := by
  induction items with
  | nil => rfl
  | cons head tail inductionHypothesis =>
      rw [List.pairwise_cons] at ordered
      by_cases passes : test head = true
      · rw [List.takeWhile_cons_of_pos passes, List.filter_cons_of_pos passes,
          inductionHypothesis ordered.2]
      · rw [List.takeWhile_cons_of_neg passes, List.filter_cons_of_neg passes]
        refine (List.filter_eq_nil_iff.2 fun later member => ?_).symm
        exact fun laterPasses => passes (antitone head later (ordered.1 later member) laterPasses)

/-- The rest from there on is everything that does not meet it. -/
theorem dropWhile_eq_filter_of_pairwise
    (antitone : ∀ earlier later, relation earlier later → test later = true → test earlier = true)
    (ordered : items.Pairwise relation) :
    items.dropWhile test = items.filter fun item => !test item := by
  induction items with
  | nil => rfl
  | cons head tail inductionHypothesis =>
      rw [List.pairwise_cons] at ordered
      by_cases passes : test head = true
      · rw [List.dropWhile_cons_of_pos passes, List.filter_cons_of_neg (by simpa using passes),
          inductionHypothesis ordered.2]
      · rw [List.dropWhile_cons_of_neg passes]
        refine (List.filter_eq_self.2 fun later member => ?_).symm
        rcases List.mem_cons.1 member with rfl | inTail
        · simpa using passes
        · have fails : ¬ test later = true := fun laterPasses =>
            passes (antitone head later (ordered.1 later inTail) laterPasses)
          simpa using fails

end Support
