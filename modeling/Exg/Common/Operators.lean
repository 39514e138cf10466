import Exg.Common.CheckedDecimal
import Exg.Support.Definedness
import Mathlib.Algebra.Order.BigOperators.Group.List

/-!
# The operators of decimals, with their panics

`+` and `-` compute on the raw values, which with overflow checks panics outside `i128`.  `*` and
`/` expect that the checked product or quotient exists.  Nothing is the outcome of a panic.  Where
overflow is not checked, `+` and `-` wrap; what follows then is not modelled.
-/

namespace Exg

open Support

/-- `+` on the source's `u64`. -/
def addWord? (left right : Nat) : Option Nat :=
  if left + right < 2 ^ 64 then some (left + right) else none

theorem agrees_addWord (left right : Nat) : Agrees (addWord? left right) (left + right) := by
  rw [addWord?]
  split
  · exact .pure _
  · exact .none _

namespace Decimal128

/-- `Add`. -/
def add? (left right : Decimal128) : Option Decimal128 :=
  (I128.checked (left.raw + right.raw)).map Decimal128.mk

/-- `Sub`. -/
def sub? (left right : Decimal128) : Option Decimal128 :=
  (I128.checked (left.raw - right.raw)).map Decimal128.mk

/-- `Mul`: the checked product, or the panic "Decimal128 multiplication overflow". -/
def mul? (left right : Decimal128) : Option Decimal128 :=
  match checkedMul left right with
  | .ok product => product
  | .error _ => none

/-- `Div`: the checked quotient, or the panic "Decimal128 division by zero or overflow". -/
def div? (left right : Decimal128) : Option Decimal128 :=
  match checkedDiv left right with
  | .ok quotient => quotient
  | .error _ => none

/-- `Neg`. -/
def neg? (value : Decimal128) : Option Decimal128 :=
  (I128.checked (-value.raw)).map Decimal128.mk

/-- `abs` of the raw value. -/
def abs? (value : Decimal128) : Option Decimal128 :=
  (I128.checked value.raw.natAbs).map Decimal128.mk

/-- `Sum`: a fold that starts at zero. -/
def sum? (values : List Decimal128) : Option Decimal128 := values.foldlM add? 0

variable {left right : Decimal128}

theorem computes_add (left right : Decimal128) :
    Computes (left.add? right) (left + right).InRange (left + right) :=
  (Computes.guarded (left.raw + right.raw)).map Decimal128.mk

theorem computes_sub (left right : Decimal128) :
    Computes (left.sub? right) (left - right).InRange (left - right) :=
  (Computes.guarded (left.raw - right.raw)).map Decimal128.mk

theorem computes_neg (value : Decimal128) : Computes value.neg? (-value).InRange (-value) :=
  (Computes.guarded (-value.raw)).map Decimal128.mk

private theorem agrees_foldlM (total : Decimal128) (values : List Decimal128) :
    Agrees (values.foldlM add? total) (total + values.sum) := by
  induction values generalizing total with
  | nil =>
      rw [List.sum_nil, add_zero]
      exact .pure total
  | cons value rest inductionHypothesis =>
      rw [List.foldlM_cons, List.sum_cons, ← add_assoc]
      exact (computes_add total value).agrees.bind (inductionHypothesis (total + value))

theorem agrees_sum (values : List Decimal128) : Agrees (sum? values) values.sum := by
  have folded := agrees_foldlM 0 values
  rwa [zero_add] at folded

theorem computes_mul (leftInRange : left.InRange) (rightInRange : right.InRange) :
    Computes (left.mul? right) (left * right).InRange (left * right) := by
  rw [mul?, checkedMul_eq leftInRange rightInRange]
  exact Computes.guarded (left * right)

theorem computes_div (leftInRange : left.InRange) (rightInRange : right.InRange) :
    Computes (left.div? right) (right.raw ≠ 0 ∧ (left / right).InRange) (left / right) := by
  rw [div?, checkedDiv_eq leftInRange rightInRange]
  exact Computes.guarded (left / right)

theorem inRange_zero : InRange 0 := by decide

/-- What lies between two values in range is in range. -/
theorem InRange.between {value : Decimal128} (leftInRange : left.InRange)
    (rightInRange : right.InRange) (lower : left ≤ value) (upper : value ≤ right) :
    value.InRange :=
  ⟨leftInRange.1.trans (le_iff_raw.1 lower), (le_iff_raw.1 upper).trans rightInRange.2⟩

theorem InRange.of_le (inRange : right.InRange) (nonneg : 0 ≤ left) (upper : left ≤ right) :
    left.InRange :=
  inRange_zero.between inRange nonneg upper

/-- Subtracting no more than there is stays in range. -/
theorem computes_sub_of_le (inRange : left.InRange) (nonneg : 0 ≤ right) (enough : right ≤ left) :
    Computes (left.sub? right) True (left - right) := by
  refine (computes_sub left right).congr (iff_true_intro ?_)
  exact inRange.of_le (sub_nonneg.2 enough) (sub_le_self left nonneg)

/-- A sum is there if all its partial sums are in range. -/
theorem computes_partialSums {total : Decimal128} {values : List Decimal128}
    (inRange : total.InRange) :
    Computes (values.foldlM add? total)
      (∀ part, part <+: values → (total + part.sum).InRange) (total + values.sum) := by
  induction values generalizing total with
  | nil =>
      rw [List.sum_nil, add_zero]
      refine (Computes.pure total).congr (iff_of_true trivial fun part isPrefix => ?_)
      rwa [List.prefix_nil.1 isPrefix, List.sum_nil, add_zero]
  | cons value rest inductionHypothesis =>
      rw [List.foldlM_cons, List.sum_cons, ← add_assoc]
      refine ((computes_add total value).bind fun within => inductionHypothesis within).congr ?_
      constructor
      · rintro ⟨-, later⟩ part isPrefix
        rcases List.prefix_cons_iff.1 isPrefix with rfl | ⟨others, rfl, shorter⟩
        · rwa [List.sum_nil, add_zero]
        · rw [List.sum_cons, ← add_assoc]
          exact later others shorter
      · intro sums
        have sumsOf : ∀ part, part <+: rest → (total + value + part.sum).InRange := by
          intro part isPrefix
          have longer := sums (value :: part) ((List.prefix_cons_inj value).2 isPrefix)
          rwa [List.sum_cons, ← add_assoc] at longer
        refine ⟨?_, sumsOf⟩
        have first := sumsOf [] List.nil_prefix
        rwa [List.sum_nil, add_zero] at first

/-- A sum of nonnegative values is in range together with all its partial sums. -/
theorem computes_sum {total : Decimal128} {values : List Decimal128} (start : 0 ≤ total)
    (inRange : total.InRange) (nonneg : ∀ value ∈ values, 0 ≤ value) :
    Computes (values.foldlM add? total) (total + values.sum).InRange (total + values.sum) := by
  induction values generalizing total with
  | nil =>
      rw [List.sum_nil, add_zero]
      exact (Computes.pure total).congr (iff_true_intro inRange).symm
  | cons value rest inductionHypothesis =>
      have first := nonneg value List.mem_cons_self
      have others : ∀ other ∈ rest, 0 ≤ other := fun other member =>
        nonneg other (List.mem_cons_of_mem value member)
      have next : 0 ≤ total + value := add_nonneg start first
      rw [List.foldlM_cons, List.sum_cons, ← add_assoc]
      refine ((computes_add total value).bind fun within =>
        inductionHypothesis next within others).congr (and_iff_right_of_imp fun whole => ?_)
      exact whole.of_le next (le_add_of_nonneg_right (List.sum_nonneg others))

end Decimal128
end Exg
