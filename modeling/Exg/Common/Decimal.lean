import Mathlib.Algebra.BigOperators.Group.List.Basic
import Mathlib.Algebra.Group.InjSurj
import Mathlib.Algebra.Order.Group.Int
import Mathlib.Algebra.Order.Monoid.Basic
import Mathlib.Tactic.Common

/-!
# Fixed-point decimals

`Decimal128` is the exchange's only number format: eighteen fractional digits over a
signed integer.  The source stores the integer in an `i128`; its sums and differences
panic (or wrap, without overflow checks) once they leave that range, and its products
and quotients panic.  The operators of this module keep the integer unbounded and compute
exactly, so a function over them follows the code on every run in which no such overflow
occurs.  The operators as the source has them are `add?` to `div?`: the functions over
these have no result where the source panics, and agree with the exact ones elsewhere.
-/

namespace Exg

/-- A decimal, stored as `raw = value * 10 ^ 18`. -/
@[ext]
structure Decimal128 where
  raw : Int
  deriving DecidableEq, Repr

namespace Decimal128

def scale : Int := 1000000000000000000

def one : Decimal128 := ⟨scale⟩

/-- `Decimal128::MAX`, the price sentinel of a market buy. -/
def maxValue : Decimal128 := ⟨170141183460469231731687303715884105727⟩

def ofInt (value : Int) : Decimal128 := ⟨value * scale⟩

instance : Zero Decimal128 := ⟨⟨0⟩⟩
instance : Inhabited Decimal128 := ⟨0⟩
instance : Add Decimal128 := ⟨fun left right => ⟨left.raw + right.raw⟩⟩
instance : Sub Decimal128 := ⟨fun left right => ⟨left.raw - right.raw⟩⟩
instance : Neg Decimal128 := ⟨fun value => ⟨-value.raw⟩⟩
instance : SMul Nat Decimal128 := ⟨fun count value => ⟨(count : Int) * value.raw⟩⟩
instance : SMul Int Decimal128 := ⟨fun count value => ⟨count * value.raw⟩⟩

/-- `checked_mul`: the product is scaled back, truncating toward zero. -/
instance : Mul Decimal128 := ⟨fun left right => ⟨(left.raw * right.raw).tdiv scale⟩⟩

/-- `checked_div`: the dividend is scaled up, truncating toward zero.  The source panics over
a zero divisor, for which there is no `div?`. -/
instance : Div Decimal128 := ⟨fun left right => ⟨(left.raw * scale).tdiv right.raw⟩⟩

theorem raw_injective : Function.Injective raw := by
  intro left right equality
  exact Decimal128.ext equality

instance : AddCommGroup Decimal128 :=
  raw_injective.addCommGroup raw rfl (fun _ _ => rfl) (fun _ => rfl) (fun _ _ => rfl)
    (fun _ _ => rfl) (fun _ _ => rfl)

instance : LinearOrder Decimal128 := LinearOrder.lift' raw raw_injective

theorem le_iff_raw {left right : Decimal128} : left ≤ right ↔ left.raw ≤ right.raw :=
  Iff.rfl

theorem lt_iff_raw {left right : Decimal128} : left < right ↔ left.raw < right.raw :=
  Iff.rfl

instance : IsOrderedAddMonoid Decimal128 where
  add_le_add_left left right bound offset := by
    exact add_le_add_left (α := Int) bound offset.raw

@[simp] theorem raw_zero : (0 : Decimal128).raw = 0 := rfl
@[simp] theorem raw_add (left right : Decimal128) : (left + right).raw = left.raw + right.raw := rfl
@[simp] theorem raw_sub (left right : Decimal128) : (left - right).raw = left.raw - right.raw := rfl
@[simp] theorem raw_neg (value : Decimal128) : (-value).raw = -value.raw := rfl

def isZero (value : Decimal128) : Bool := decide (value = 0)
def isPositive (value : Decimal128) : Bool := decide (0 < value)
def isNegative (value : Decimal128) : Bool := decide (value < 0)
def abs (value : Decimal128) : Decimal128 := ⟨(value.raw.natAbs : Int)⟩

@[simp] theorem isZero_iff {value : Decimal128} : value.isZero = true ↔ value = 0 := by
  simp [isZero]

@[simp] theorem isPositive_iff {value : Decimal128} : value.isPositive = true ↔ 0 < value := by
  simp [isPositive]

@[simp] theorem isNegative_iff {value : Decimal128} : value.isNegative = true ↔ value < 0 := by
  simp [isNegative]

end Decimal128
end Exg
