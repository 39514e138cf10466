import Exg.Common.DecimalValue
import Exg.Common.Operators
import Mathlib.Data.List.MinMax

/-!
# The impact price

The average price at which a notional is filled from a list of levels.  The functions here have
the panics of the source: the outer option is a panic, the inner one insufficient liquidity.  Of
the level at which the notional is reached a truncated quantity is taken, which may be zero, and
what it costs is truncated again.
-/

namespace Exg

open Support
open Decimal128

/-- A price and a quantity. -/
abbrev BookLevel := Decimal128 × Decimal128

/-- The loop of `calc_impact_price`. -/
def impactPriceLoop? : List BookLevel → Decimal128 → Decimal128 → Decimal128 →
    Option (Option Decimal128)
  | [], _, _, _ => some none
  | (price, qty) :: rest, remainingNotional, weightedSum, totalQty => do
      let levelNotional ← price.mul? qty
      if levelNotional ≥ remainingNotional then
        -- This level has enough to fill the rest.
        let fillQty ← remainingNotional.div? price
        let fillNotional ← fillQty.mul? price
        let filledSum ← weightedSum.add? fillNotional
        let filledQty ← totalQty.add? fillQty
        (filledSum.div? filledQty).map some
      else
        let remaining ← remainingNotional.sub? levelNotional
        let wholeNotional ← qty.mul? price
        let nextSum ← weightedSum.add? wholeNotional
        let nextQty ← totalQty.add? qty
        impactPriceLoop? rest remaining nextSum nextQty

/-- VWAP price to fill a notional from a sorted list of price levels. -/
def calcImpactPrice? (levels : List BookLevel) (targetNotional : Decimal128) :
    Option (Option Decimal128) :=
  impactPriceLoop? levels targetNotional 0 0

/-- Impact mid price from a snapshot of the book. -/
def calcImpactMidPrice? (bids asks : List BookLevel) (impactNotional : Decimal128) :
    Option (Option Decimal128) := do
  match ← calcImpactPrice? bids impactNotional with
  | none => some none
  | some impactBid =>
      match ← calcImpactPrice? asks impactNotional with
      | none => some none
      | some impactAsk => do
          let both ← impactBid.add? impactAsk
          (both.div? (ofInt 2)).map some

/-! ## What is taken -/

/-- The sum of the levels' truncated notionals. -/
def notionals (levels : List BookLevel) : Decimal128 :=
  (levels.map fun level => level.1 * level.2).sum

/-- The quantities that are taken for a notional: whole levels, and of the one where the notional
is reached what is missing, divided by its price. -/
def taken : List BookLevel → Decimal128 → List BookLevel
  | [], _ => []
  | (price, qty) :: rest, notional =>
      if notional ≤ price * qty then [(price, notional / price)]
      else (price, qty) :: taken rest (notional - price * qty)

def takenQty (levels : List BookLevel) (notional : Decimal128) : Decimal128 :=
  ((taken levels notional).map Prod.snd).sum

def takenNotional (levels : List BookLevel) (notional : Decimal128) : Decimal128 :=
  notionals (taken levels notional)

/-- A level with a positive price and quantity whose product is in range. -/
structure ValidLevel (level : BookLevel) : Prop where
  pricePos : 0 < level.1
  qtyPos : 0 < level.2
  priceInRange : level.1.InRange
  qtyInRange : level.2.InRange
  notionalInRange : (level.1 * level.2).InRange

theorem notionals_nonneg {levels : List BookLevel} (valid : ∀ level ∈ levels, ValidLevel level) :
    0 ≤ notionals levels := by
  apply List.sum_nonneg
  intro value member
  obtain ⟨level, inside, rfl⟩ := List.mem_map.1 member
  exact product_nonneg (valid level inside).pricePos.le (valid level inside).qtyPos.le

section Cons

variable {level : BookLevel} {notional : Decimal128}

theorem notionals_cons (level : BookLevel) (rest : List BookLevel) :
    notionals (level :: rest) = level.1 * level.2 + notionals rest := rfl

private theorem taken_reached (rest : List BookLevel) (reached : notional ≤ level.1 * level.2) :
    takenQty (level :: rest) notional = notional / level.1 ∧
      takenNotional (level :: rest) notional = notional / level.1 * level.1 := by
  rw [takenQty, takenNotional, taken, if_pos reached, product_comm]
  exact ⟨add_zero _, add_zero _⟩

private theorem taken_short (rest : List BookLevel) (short : ¬notional ≤ level.1 * level.2) :
    takenQty (level :: rest) notional =
        level.2 + takenQty rest (notional - level.1 * level.2) ∧
      takenNotional (level :: rest) notional =
        level.1 * level.2 + takenNotional rest (notional - level.1 * level.2) := by
  rw [takenQty, takenNotional, taken, if_neg short]
  exact ⟨rfl, rfl⟩

end Cons

private theorem taken_nonneg {levels : List BookLevel} (valid : ∀ level ∈ levels, ValidLevel level)
    {notional : Decimal128} (notionalNonneg : 0 ≤ notional) :
    ∀ fill ∈ taken levels notional, 0 < fill.1 ∧ 0 ≤ fill.2 := by
  induction levels generalizing notional with
  | nil => simp [taken]
  | cons level rest inductionHypothesis =>
      obtain ⟨here, others⟩ := List.forall_mem_cons.1 valid
      rw [taken]
      split
      · rw [List.forall_mem_singleton]
        exact ⟨here.pricePos, quotient_nonneg notionalNonneg here.pricePos⟩
      · rename_i short
        refine List.forall_mem_cons.2 ⟨⟨here.pricePos, here.qtyPos.le⟩, ?_⟩
        exact inductionHypothesis others (sub_nonneg.2 (not_le.1 short).le)

private theorem takenQty_nonneg {levels : List BookLevel}
    (valid : ∀ level ∈ levels, ValidLevel level)
    {notional : Decimal128} (notionalNonneg : 0 ≤ notional) : 0 ≤ takenQty levels notional := by
  apply List.sum_nonneg
  intro value member
  obtain ⟨fill, inside, rfl⟩ := List.mem_map.1 member
  exact (taken_nonneg valid notionalNonneg fill inside).2

/-- What is taken costs at most the highest price for each unit. -/
theorem notionals_le {fills : List BookLevel} {top : Decimal128}
    (nonneg : ∀ fill ∈ fills, 0 < fill.1 ∧ 0 ≤ fill.2) (below : ∀ fill ∈ fills, fill.1 ≤ top) :
    (notionals fills).toRat ≤ top.toRat * ((fills.map Prod.snd).sum).toRat := by
  induction fills with
  | nil => simp [notionals]
  | cons fill rest inductionHypothesis =>
      obtain ⟨here, others⟩ := List.forall_mem_cons.1 nonneg
      obtain ⟨low, lower⟩ := List.forall_mem_cons.1 below
      have cost : (fill.1 * fill.2).toRat ≤ top.toRat * fill.2.toRat :=
        (truncates_mul here.1.le here.2).le.trans
          (mul_le_mul_of_nonneg_right (toRat_le_iff.2 low) (toRat_nonneg here.2))
      have later := inductionHypothesis others lower
      rw [notionals] at later ⊢
      rw [List.map_cons, List.map_cons, List.sum_cons, List.sum_cons, toRat_add, toRat_add, mul_add]
      exact add_le_add cost later

/-! ## The loop -/

/-- Where the loop is: what it has summed up and what is missing make up a notional in range, and
the sum is at most the highest price for each unit. -/
structure Filling (top remaining weightedSum totalQty : Decimal128) : Prop where
  remainingPos : 0 < remaining
  sumNonneg : 0 ≤ weightedSum
  qtyNonneg : 0 ≤ totalQty
  targetInRange : (weightedSum + remaining).InRange
  qtyInRange : totalQty.InRange
  topInRange : top.InRange
  sum_le : weightedSum.toRat ≤ top.toRat * totalQty.toRat

/-- What the loop returns when it does not panic. -/
def filledPrice (levels : List BookLevel) (remaining weightedSum totalQty : Decimal128) :
    Option Decimal128 :=
  if remaining ≤ notionals levels then
    some ((weightedSum + takenNotional levels remaining) / (totalQty + takenQty levels remaining))
  else none

/-- The loop does not panic: the quantity is in range, and if there is a price it is not zero. -/
def Fillable (levels : List BookLevel) (remaining totalQty : Decimal128) : Prop :=
  (totalQty + takenQty levels remaining).InRange ∧
    (remaining ≤ notionals levels → 0 < totalQty + takenQty levels remaining)

section Loop

variable {levels : List BookLevel} {top remaining weightedSum totalQty : Decimal128}

/-- An average lies below the highest price. -/
theorem average_le (qtyPos : 0 < totalQty) (sumNonneg : 0 ≤ weightedSum)
    (sum_le : weightedSum.toRat ≤ top.toRat * totalQty.toRat) : weightedSum / totalQty ≤ top := by
  rw [← toRat_le_iff]
  calc (weightedSum / totalQty).toRat ≤ weightedSum.toRat / totalQty.toRat :=
        (truncates_div sumNonneg qtyPos).le
    _ ≤ top.toRat := (div_le_iff₀ (toRat_pos qtyPos)).2 sum_le

/-- The last fill: its quantity is within the level's, and its notional within what is missing. -/
theorem lastFill {level : BookLevel} (valid : ValidLevel level) (remainingPos : 0 < remaining)
    (reached : remaining ≤ level.1 * level.2) :
    0 ≤ remaining / level.1 ∧ remaining / level.1 ≤ level.2 ∧
      0 ≤ remaining / level.1 * level.1 ∧ remaining / level.1 * level.1 ≤ remaining := by
  have fillNonneg := quotient_nonneg remainingPos.le valid.pricePos
  refine ⟨fillNonneg, ?_, product_nonneg fillNonneg valid.pricePos.le,
    mul_le_of_le_div remainingPos.le valid.pricePos fillNonneg le_rfl⟩
  have priceRat := toRat_pos valid.pricePos
  rw [← toRat_le_iff]
  calc (remaining / level.1).toRat ≤ remaining.toRat / level.1.toRat :=
        (truncates_div remainingPos.le valid.pricePos).le
    _ ≤ level.1.toRat * level.2.toRat / level.1.toRat :=
        div_le_div_of_nonneg_right ((toRat_le_iff.2 reached).trans
          (truncates_mul valid.pricePos.le valid.qtyPos.le).le) priceRat.le
    _ = level.2.toRat := mul_div_cancel_left₀ _ priceRat.ne'

/-- The branch that returns a price. -/
theorem computes_lastFill {level : BookLevel} (valid : ValidLevel level)
    (filling : Filling top remaining weightedSum totalQty) (below : level.1 ≤ top)
    (reached : remaining ≤ level.1 * level.2) :
    Computes
      (do
        let fillQty ← remaining.div? level.1
        let fillNotional ← fillQty.mul? level.1
        let filledSum ← weightedSum.add? fillNotional
        let filledQty ← totalQty.add? fillQty
        (filledSum.div? filledQty).map some)
      ((totalQty + remaining / level.1).InRange ∧ 0 < totalQty + remaining / level.1)
      (some ((weightedSum + remaining / level.1 * level.1) /
        (totalQty + remaining / level.1))) := by
  obtain ⟨fillNonneg, fillLe, costNonneg, costLe⟩ := lastFill valid filling.remainingPos reached
  have remainingInRange := filling.targetInRange.of_le filling.remainingPos.le
    (le_add_of_nonneg_left filling.sumNonneg)
  have fillInRange := valid.qtyInRange.of_le fillNonneg fillLe
  have costInRange := remainingInRange.of_le costNonneg costLe
  have sumNonneg := add_nonneg filling.sumNonneg costNonneg
  have sumInRange := filling.targetInRange.of_le sumNonneg (add_le_add_right costLe weightedSum)
  have divides := (computes_div remainingInRange valid.priceInRange).congr
    (iff_true_intro ⟨(lt_iff_raw.1 valid.pricePos).ne', fillInRange⟩)
  have costs := (computes_mul fillInRange valid.priceInRange).congr (iff_true_intro costInRange)
  have sums := (computes_add weightedSum (remaining / level.1 * level.1)).congr
    (iff_true_intro sumInRange)
  have sum_le : (weightedSum + remaining / level.1 * level.1).toRat ≤
      top.toRat * (totalQty + remaining / level.1).toRat := by
    have cost : (remaining / level.1 * level.1).toRat ≤
        top.toRat * (remaining / level.1).toRat := by
      rw [product_comm]
      exact (truncates_mul valid.pricePos.le fillNonneg).le.trans
        (mul_le_mul_of_nonneg_right (toRat_le_iff.2 below) (toRat_nonneg fillNonneg))
    rw [toRat_add, toRat_add, mul_add]
    exact add_le_add filling.sum_le cost
  have averages : (totalQty + remaining / level.1).InRange →
      Computes ((weightedSum + remaining / level.1 * level.1).div? (totalQty + remaining / level.1))
        (0 < totalQty + remaining / level.1) _ := fun qtyInRange =>
    (computes_div sumInRange qtyInRange).congr (by
      constructor
      · intro both
        have qtyNonneg := add_nonneg filling.qtyNonneg fillNonneg
        exact lt_of_le_of_ne qtyNonneg fun zero => both.1 (congrArg Decimal128.raw zero.symm)
      · intro qtyPos
        refine ⟨(lt_iff_raw.1 qtyPos).ne', ?_⟩
        exact filling.topInRange.of_le (quotient_nonneg sumNonneg qtyPos)
          (average_le qtyPos sumNonneg sum_le))
  refine (divides.bind fun _ => costs.bind fun _ => sums.bind fun _ =>
    (computes_add totalQty (remaining / level.1)).bind fun qtyInRange =>
      (averages qtyInRange).map some).congr ?_
  simp only [true_and]

/-- A level that is taken whole leaves the loop where it should be. -/
theorem Filling.next {level : BookLevel} (valid : ValidLevel level)
    (filling : Filling top remaining weightedSum totalQty) (below : level.1 ≤ top)
    (short : ¬remaining ≤ level.1 * level.2) (qtyInRange : (totalQty + level.2).InRange) :
    Filling top (remaining - level.1 * level.2) (weightedSum + level.1 * level.2)
      (totalQty + level.2) where
  remainingPos := sub_pos.2 (not_le.1 short)
  sumNonneg := add_nonneg filling.sumNonneg (product_nonneg valid.pricePos.le valid.qtyPos.le)
  qtyNonneg := add_nonneg filling.qtyNonneg valid.qtyPos.le
  targetInRange := by
    rw [add_add_sub_cancel]
    exact filling.targetInRange
  qtyInRange := qtyInRange
  topInRange := filling.topInRange
  sum_le := by
    rw [toRat_add, toRat_add, mul_add]
    exact add_le_add filling.sum_le ((truncates_mul valid.pricePos.le valid.qtyPos.le).le.trans
      (mul_le_mul_of_nonneg_right (toRat_le_iff.2 below) (toRat_nonneg valid.qtyPos.le)))

/-- The branch that takes a level whole. -/
theorem computes_wholeLevel {level : BookLevel} (valid : ValidLevel level)
    (filling : Filling top remaining weightedSum totalQty)
    (short : ¬remaining ≤ level.1 * level.2) {rest : List BookLevel} {domain : Prop}
    {value : Option Decimal128}
    (later : (totalQty + level.2).InRange →
      Computes (impactPriceLoop? rest (remaining - level.1 * level.2)
        (weightedSum + level.1 * level.2) (totalQty + level.2)) domain value) :
    Computes
      (do
        let next ← remaining.sub? (level.1 * level.2)
        let wholeNotional ← level.2.mul? level.1
        let nextSum ← weightedSum.add? wholeNotional
        let nextQty ← totalQty.add? level.2
        impactPriceLoop? rest next nextSum nextQty)
      ((totalQty + level.2).InRange ∧ domain) value := by
  have notionalNonneg := product_nonneg valid.pricePos.le valid.qtyPos.le
  have remainingInRange := filling.targetInRange.of_le filling.remainingPos.le
    (le_add_of_nonneg_left filling.sumNonneg)
  have sumInRange := filling.targetInRange.of_le
    (add_nonneg filling.sumNonneg notionalNonneg)
    (add_le_add_right (not_le.1 short).le weightedSum)
  have again := (computes_mul valid.qtyInRange valid.priceInRange).congr
    (iff_true_intro (product_comm level.1 level.2 ▸ valid.notionalInRange))
  rw [product_comm level.2 level.1] at again
  refine ((computes_sub_of_le remainingInRange notionalNonneg (not_le.1 short).le).bind fun _ =>
    again.bind fun _ =>
      ((computes_add weightedSum (level.1 * level.2)).congr (iff_true_intro sumInRange)).bind
        fun _ => (computes_add totalQty level.2).bind later).congr ?_
  simp only [true_and]

/-- The loop returns the average price of what is taken, or nothing, and panics exactly where that
quantity overflows or is zero. -/
theorem computes_loop (valid : ∀ level ∈ levels, ValidLevel level)
    (below : ∀ level ∈ levels, level.1 ≤ top)
    (filling : Filling top remaining weightedSum totalQty) :
    Computes (impactPriceLoop? levels remaining weightedSum totalQty)
      (Fillable levels remaining totalQty)
      (filledPrice levels remaining weightedSum totalQty) := by
  induction levels generalizing remaining weightedSum totalQty with
  | nil =>
      have nothing : ¬remaining ≤ notionals [] := not_le.2 filling.remainingPos
      rw [filledPrice, if_neg nothing]
      refine (Computes.pure none).congr (iff_of_true trivial ⟨?_, fun reached => ?_⟩)
      · exact (add_zero totalQty).symm ▸ filling.qtyInRange
      · exact absurd reached nothing
  | cons level rest inductionHypothesis =>
      obtain ⟨here, others⟩ := List.forall_mem_cons.1 valid
      obtain ⟨low, lower⟩ := List.forall_mem_cons.1 below
      have notional := (computes_mul here.priceInRange here.qtyInRange).congr
        (iff_true_intro here.notionalInRange)
      rw [impactPriceLoop?]
      by_cases reached : remaining ≤ level.1 * level.2
      · have all : remaining ≤ notionals (level :: rest) := by
          rw [notionals_cons]
          exact le_add_of_le_of_nonneg reached (notionals_nonneg others)
        obtain ⟨qty, cost⟩ := taken_reached rest reached
        rw [filledPrice, if_pos all, Fillable, qty, cost]
        refine (notional.bind fun _ => ?_).congr (Iff.of_eq (true_and _))
        rw [if_pos reached]
        exact (computes_lastFill here filling low reached).congr
          (and_congr_right fun _ => ⟨fun positive _ => positive, fun positive => positive all⟩)
      · obtain ⟨qty, cost⟩ := taken_short rest reached
        have same : remaining ≤ notionals (level :: rest) ↔
            remaining - level.1 * level.2 ≤ notionals rest := by
          rw [notionals_cons, sub_le_iff_le_add']
        have restNonneg := takenQty_nonneg others (sub_nonneg.2 (not_le.1 reached).le)
        have levelNonneg := add_nonneg filling.qtyNonneg here.qtyPos.le
        have later := fun qtyInRange => inductionHypothesis others lower
          (filling.next here low reached qtyInRange)
        rw [filledPrice, Fillable, qty, cost]
        simp only [same, ← add_assoc]
        refine (notional.bind fun _ => ?_).congr (Iff.of_eq (true_and _))
        rw [if_neg reached]
        refine (computes_wholeLevel here filling reached later).congr ?_
        exact and_iff_right_of_imp fun fillable =>
          fillable.1.of_le levelNonneg (le_add_of_nonneg_right restNonneg)

end Loop

/-! ## Safety -/

/-- The average price of what is taken for a notional. -/
def averagePrice (levels : List BookLevel) (notional : Decimal128) : Decimal128 :=
  takenNotional levels notional / takenQty levels notional

/-- The levels of which something is taken. -/
def usedLevels (levels : List BookLevel) (notional : Decimal128) : List BookLevel :=
  levels.take (taken levels notional).length

/-- There is no panic, no price just where the levels do not suffice, and else a positive price
that is at most that of a used level. -/
def PricedSafely (levels : List BookLevel) (targetNotional : Decimal128) : Prop :=
  ∃ outcome, calcImpactPrice? levels targetNotional = some outcome ∧
    (outcome = none ↔ notionals levels < targetNotional) ∧
    ∀ price, outcome = some price →
      0 < price ∧ ∃ level ∈ usedLevels levels targetNotional, price ≤ level.1

private theorem map_fst_usedLevels (levels : List BookLevel) (notional : Decimal128) :
    (usedLevels levels notional).map Prod.fst = (taken levels notional).map Prod.fst := by
  rw [usedLevels]
  induction levels generalizing notional with
  | nil => rfl
  | cons level rest inductionHypothesis =>
      rw [taken]
      split
      · rfl
      · rw [List.length_cons, List.take_succ_cons, List.map_cons, List.map_cons,
          inductionHypothesis]

/-- A quotient is positive where the dividend, scaled up, reaches the divisor. -/
theorem quotient_pos_iff {dividend divisor : Decimal128} (dividendNonneg : 0 ≤ dividend)
    (divisorPos : 0 < divisor) :
    0 < dividend / divisor ↔ divisor.raw ≤ dividend.raw * scale := by
  have scaled : 0 ≤ dividend.raw * scale := Int.mul_nonneg dividendNonneg (by decide)
  have quotient : (dividend / divisor).raw = dividend.raw * scale / divisor.raw :=
    Int.tdiv_eq_ediv_of_nonneg scaled
  rw [lt_iff_raw, quotient, raw_zero, Int.lt_iff_add_one_le, Int.le_ediv_iff_mul_le divisorPos,
    zero_add, one_mul]

section Safety

variable {levels : List BookLevel} {targetNotional : Decimal128}

theorem computes_impactPrice (valid : ∀ level ∈ levels, ValidLevel level)
    (targetPos : 0 < targetNotional) (targetInRange : targetNotional.InRange) :
    Computes (calcImpactPrice? levels targetNotional)
      ((takenQty levels targetNotional).InRange ∧
        (targetNotional ≤ notionals levels → 0 < takenQty levels targetNotional))
      (if targetNotional ≤ notionals levels then some (averagePrice levels targetNotional)
        else none) := by
  have below : ∀ level ∈ levels, level.1 ≤ maxValue := fun level member =>
    (valid level member).priceInRange.2
  have filling : Filling maxValue targetNotional 0 0 :=
    { remainingPos := targetPos
      sumNonneg := le_rfl
      qtyNonneg := le_rfl
      targetInRange := by rwa [zero_add]
      qtyInRange := inRange_zero
      topInRange := by decide
      sum_le := by simp }
  have computed := computes_loop valid below filling
  rw [Fillable, filledPrice, zero_add, zero_add] at computed
  exact computed

theorem takenNotional_nonneg (valid : ∀ level ∈ levels, ValidLevel level)
    (targetPos : 0 < targetNotional) : 0 ≤ takenNotional levels targetNotional := by
  apply List.sum_nonneg
  intro value member
  obtain ⟨fill, inside, rfl⟩ := List.mem_map.1 member
  obtain ⟨price, qty⟩ := taken_nonneg valid targetPos.le fill inside
  exact product_nonneg price.le qty

/-- The average price is at most that of a used level. -/
theorem averagePrice_le_used (valid : ∀ level ∈ levels, ValidLevel level)
    (targetPos : 0 < targetNotional) (qtyPos : 0 < takenQty levels targetNotional) :
    ∃ level ∈ usedLevels levels targetNotional,
      averagePrice levels targetNotional ≤ level.1 := by
  cases highest : (taken levels targetNotional).argmax Prod.fst with
  | none =>
      rw [takenQty, List.argmax_eq_none.1 highest] at qtyPos
      exact absurd qtyPos (lt_irrefl 0)
  | some fill =>
      have prices := List.mem_map_of_mem (f := Prod.fst) (List.argmax_mem highest)
      rw [← map_fst_usedLevels, List.mem_map] at prices
      obtain ⟨level, used, same⟩ := prices
      refine ⟨level, used, ?_⟩
      rw [same]
      exact average_le qtyPos (takenNotional_nonneg valid targetPos)
        (notionals_le (taken_nonneg valid targetPos.le) fun other member =>
          List.le_of_mem_argmax member highest)

end Safety

end Exg
