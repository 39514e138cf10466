import Exg.Risk.ImpactPrice

/-!
# When the impact price is safe

The level at which the running sum of the truncated notionals reaches the target settles it.
What the target does not spend there, because no whole unit of quantity costs it, decides
whether the average price is at least a unit; a price that buys nothing of the first level
divides by zero.
-/

namespace Exg

open Support
open Decimal128

/-- The sum of the levels' quantities. -/
def quantities (levels : List BookLevel) : Decimal128 := (levels.map Prod.snd).sum

/-- The running sum of the truncated notionals reaches the target behind some levels, at a level
with this price. -/
def ReachedAt (levels : List BookLevel) (target : Decimal128) (before : List BookLevel)
    (price : Decimal128) : Prop :=
  ∃ qty rest, levels = before ++ (price, qty) :: rest ∧
    notionals before < target ∧ target ≤ notionals before + price * qty

/-- The part of the target that the levels before do not cover, in units of a price times a
quantity. -/
def missing (before : List BookLevel) (target : Decimal128) : Int :=
  (target.raw - (notionals before).raw) * scale

/-- What is left of the missing part when no further unit of quantity can be bought. -/
def unspent (before : List BookLevel) (price target : Decimal128) : Int :=
  missing before target % price.raw

/-- The target without the units that are not wholly spent is at least this much for each unit
of quantity: of the levels before, and of what the missing part buys. -/
def PaysAtLeast (before : List BookLevel) (price target : Decimal128) (least : Int) : Prop :=
  least *
      ((quantities before).raw * price.raw +
        (missing before target - unspent before price target)) ≤
    price.raw *
      ((target.raw - (unspent before price target + (scale - 1)) / scale) * scale)

/-- The target can be priced at the level that reaches it. -/
structure PricedAt (before : List BookLevel) (price target : Decimal128) : Prop where
  buysSome : before = [] → price.raw ≤ target.raw * scale
  fits : missing before target < (I128.maxValue + 1 - (quantities before).raw) * price.raw
  paysAUnit : PaysAtLeast before price target 1

/-- The target can be priced where it is reached; else all quantities have a sum. -/
structure Priceable (levels : List BookLevel) (target : Decimal128) : Prop where
  unreached : notionals levels < target → (quantities levels).InRange
  reached : ∀ before price, ReachedAt levels target before price → PricedAt before price target

/-- No two prices with a sum above the range are both paid. -/
def MidInRange (bids asks : List BookLevel) (target : Decimal128) : Prop :=
  ∀ bidsBefore bidPrice asksBefore askPrice, ReachedAt bids target bidsBefore bidPrice →
    ReachedAt asks target asksBefore askPrice → ∀ bid ask : Int, I128.maxValue < bid + ask →
      ¬(PaysAtLeast bidsBefore bidPrice target bid ∧ PaysAtLeast asksBefore askPrice target ask)

/-! ## What is taken at the level that reaches the target -/

section Reached

variable {levels before : List BookLevel} {price target : Decimal128}

private theorem exists_reachedAt (targetPos : 0 < target) (enough : target ≤ notionals levels) :
    ∃ before price, ReachedAt levels target before price := by
  induction levels generalizing target with
  | nil => exact absurd targetPos (not_lt.2 enough)
  | cons level rest inductionHypothesis =>
      by_cases here : target ≤ level.1 * level.2
      · refine ⟨[], level.1, level.2, rest, rfl, targetPos, ?_⟩
        rw [notionals, List.map_nil, List.sum_nil, zero_add]
        exact here
      · rw [notionals_cons, ← sub_le_iff_le_add'] at enough
        obtain ⟨before, price, qty, others, rfl, short, reached⟩ :=
          inductionHypothesis (sub_pos.2 (not_le.1 here)) enough
        refine ⟨level :: before, price, qty, others, rfl, ?_, ?_⟩
        · rwa [notionals_cons, ← lt_sub_iff_add_lt']
        · rwa [notionals_cons, add_assoc, ← sub_le_iff_le_add']

private theorem taken_of_short (valid : ∀ level ∈ levels, ValidLevel level)
    (short : notionals levels < target) : taken levels target = levels := by
  induction levels generalizing target with
  | nil => rfl
  | cons level rest inductionHypothesis =>
      obtain ⟨here, others⟩ := List.forall_mem_cons.1 valid
      rw [notionals_cons] at short
      have past : ¬target ≤ level.1 * level.2 :=
        not_le.2 ((le_add_of_nonneg_right (notionals_nonneg others)).trans_lt short)
      rw [taken, if_neg past, inductionHypothesis others (lt_sub_iff_add_lt'.2 short)]

/-- The levels before are taken whole, and of the one that reaches the target what is missing. -/
theorem ReachedAt.taken (valid : ∀ level ∈ levels, ValidLevel level)
    (reached : ReachedAt levels target before price) :
    taken levels target = before ++ [(price, (target - notionals before) / price)] := by
  obtain ⟨qty, rest, rfl, short, enough⟩ := reached
  induction before generalizing target with
  | nil =>
      rw [notionals, List.map_nil, List.sum_nil, zero_add] at enough
      rw [List.nil_append, Exg.taken, if_pos enough, notionals, List.map_nil, List.sum_nil,
        sub_zero, List.nil_append]
  | cons level before inductionHypothesis =>
      obtain ⟨here, others⟩ := List.forall_mem_cons.1 valid
      have earlier : ∀ other ∈ before, ValidLevel other := fun other member =>
        others other (List.mem_append_left _ member)
      rw [notionals_cons] at short enough
      have past : ¬target ≤ level.1 * level.2 :=
        not_le.2 ((le_add_of_nonneg_right (notionals_nonneg earlier)).trans_lt short)
      rw [add_assoc, ← sub_le_iff_le_add'] at enough
      rw [List.cons_append, Exg.taken, if_neg past,
        inductionHypothesis others (lt_sub_iff_add_lt'.2 short) enough, notionals_cons,
        ← sub_sub, List.cons_append]

theorem ReachedAt.qty (valid : ∀ level ∈ levels, ValidLevel level)
    (reached : ReachedAt levels target before price) :
    takenQty levels target = quantities before + (target - notionals before) / price := by
  rw [takenQty, reached.taken valid, List.map_append, List.sum_append, quantities]
  exact congrArg _ (add_zero _)

theorem ReachedAt.notional (valid : ∀ level ∈ levels, ValidLevel level)
    (reached : ReachedAt levels target before price) :
    takenNotional levels target =
      notionals before + price * ((target - notionals before) / price) := by
  rw [takenNotional, reached.taken valid, notionals, List.map_append, List.sum_append, notionals]
  exact congrArg _ (add_zero _)

theorem ReachedAt.pricePos (valid : ∀ level ∈ levels, ValidLevel level)
    (reached : ReachedAt levels target before price) : 0 < price.raw := by
  obtain ⟨qty, rest, rfl, -, -⟩ := reached
  exact (valid (price, qty) (List.mem_append_right _ List.mem_cons_self)).pricePos

theorem ReachedAt.earlier (valid : ∀ level ∈ levels, ValidLevel level)
    (reached : ReachedAt levels target before price) : ∀ level ∈ before, ValidLevel level := by
  obtain ⟨qty, rest, rfl, -, -⟩ := reached
  exact fun level member => valid level (List.mem_append_left _ member)

private theorem ReachedAt.le_notionals (valid : ∀ level ∈ levels, ValidLevel level)
    (reached : ReachedAt levels target before price) : target ≤ notionals levels := by
  obtain ⟨qty, rest, rfl, -, enough⟩ := reached
  have later : ∀ level ∈ rest, ValidLevel level := fun level member =>
    valid level (List.mem_append_right _ (List.mem_cons_of_mem _ member))
  rw [notionals, List.map_append, List.sum_append, List.map_cons, List.sum_cons, ← add_assoc]
  exact enough.trans (le_add_of_nonneg_right (notionals_nonneg later))

private theorem ReachedAt.missing_pos (reached : ReachedAt levels target before price) :
    0 < missing before target := by
  obtain ⟨-, -, -, short, -⟩ := reached
  exact Int.mul_pos (Int.sub_pos.2 (lt_iff_raw.1 short)) (by decide)

/-- The quantity that the missing part buys. -/
theorem ReachedAt.fill (reached : ReachedAt levels target before price) :
    ((target - notionals before) / price).raw = missing before target / price.raw :=
  Int.tdiv_eq_ediv_of_nonneg reached.missing_pos.le

private theorem ReachedAt.fill_nonneg (valid : ∀ level ∈ levels, ValidLevel level)
    (reached : ReachedAt levels target before price) :
    0 ≤ missing before target / price.raw :=
  Int.ediv_nonneg reached.missing_pos.le (reached.pricePos valid).le

/-- What the fill costs, before it is truncated. -/
theorem price_mul_fill (before : List BookLevel) (price target : Decimal128) :
    price.raw * (missing before target / price.raw) =
      missing before target - unspent before price target :=
  eq_sub_of_add_eq (Int.mul_ediv_add_emod (missing before target) price.raw)

/-- The truncated costs add up to the target without the units that are not wholly spent. -/
theorem ReachedAt.spent (valid : ∀ level ∈ levels, ValidLevel level)
    (reached : ReachedAt levels target before price) :
    (takenNotional levels target).raw =
      target.raw - (unspent before price target + (scale - 1)) / scale := by
  have cost : (price * ((target - notionals before) / price)).raw =
      (missing before target - unspent before price target) / scale := by
    rw [← price_mul_fill, ← reached.fill]
    refine Int.tdiv_eq_ediv_of_nonneg (Int.mul_nonneg (reached.pricePos valid).le ?_)
    rw [reached.fill]
    exact reached.fill_nonneg valid
  rw [reached.notional valid, raw_add, cost, missing]
  simp only [scale]
  omega

private theorem ReachedAt.paysAtLeast_iff (valid : ∀ level ∈ levels, ValidLevel level)
    (reached : ReachedAt levels target before price) (least : Int) :
    PaysAtLeast before price target least ↔
      least * (takenQty levels target).raw ≤ (takenNotional levels target).raw * scale := by
  have quantity : price.raw * (takenQty levels target).raw =
      (quantities before).raw * price.raw +
        (missing before target - unspent before price target) := by
    rw [reached.qty valid, raw_add, reached.fill, mul_add, price_mul_fill,
      mul_comm price.raw (quantities before).raw]
  rw [PaysAtLeast, ← quantity, ← reached.spent valid, mul_left_comm,
    mul_le_mul_iff_right₀ (reached.pricePos valid)]

private theorem quantities_nonneg (valid : ∀ level ∈ levels, ValidLevel level) :
    0 ≤ quantities levels := by
  apply List.sum_nonneg
  intro value member
  obtain ⟨level, inside, rfl⟩ := List.mem_map.1 member
  exact (valid level inside).qtyPos.le

private theorem ReachedAt.qty_pos_iff (valid : ∀ level ∈ levels, ValidLevel level)
    (reached : ReachedAt levels target before price) :
    0 < takenQty levels target ↔ (before = [] → price.raw ≤ target.raw * scale) := by
  rw [reached.qty valid, lt_iff_raw, raw_zero, raw_add, reached.fill]
  have fillNonneg := reached.fill_nonneg valid
  cases before with
  | nil =>
      have whole : missing [] target = target.raw * scale := by
        rw [missing, notionals, List.map_nil, List.sum_nil, raw_zero, sub_zero]
      rw [quantities, List.map_nil, List.sum_nil, raw_zero, zero_add, Int.lt_iff_add_one_le,
        Int.le_ediv_iff_mul_le (reached.pricePos valid), zero_add, one_mul, whole]
      exact (imp_iff_right rfl).symm
  | cons level more =>
      obtain ⟨here, others⟩ := List.forall_mem_cons.1 (reached.earlier valid)
      have positive : 0 < quantities (level :: more) :=
        add_pos_of_pos_of_nonneg here.qtyPos (quantities_nonneg others)
      exact iff_of_true (Int.add_pos_of_pos_of_nonneg (lt_iff_raw.1 positive) fillNonneg)
        fun empty => absurd empty (List.cons_ne_nil level more)

private theorem ReachedAt.qty_inRange_iff (valid : ∀ level ∈ levels, ValidLevel level)
    (reached : ReachedAt levels target before price) :
    (takenQty levels target).InRange ↔
      missing before target < (I128.maxValue + 1 - (quantities before).raw) * price.raw := by
  have nonneg : 0 ≤ (quantities before).raw + missing before target / price.raw :=
    Int.add_nonneg (quantities_nonneg (reached.earlier valid)) (reached.fill_nonneg valid)
  rw [← Int.ediv_lt_iff_lt_mul (reached.pricePos valid), reached.qty valid, InRange, I128.Fits,
    raw_add, reached.fill]
  have lowest : I128.minValue ≤ 0 := by decide
  omega

/-- The target can be priced at the level that reaches it just where the quantity is in range and
positive, and what it costs at least a unit for each. -/
theorem ReachedAt.pricedAt_iff (valid : ∀ level ∈ levels, ValidLevel level)
    (reached : ReachedAt levels target before price) :
    PricedAt before price target ↔
      (takenQty levels target).InRange ∧ 0 < takenQty levels target ∧
        (takenQty levels target).raw ≤ (takenNotional levels target).raw * scale := by
  have unit := reached.paysAtLeast_iff valid 1
  rw [one_mul] at unit
  rw [reached.qty_inRange_iff valid, reached.qty_pos_iff valid, ← unit]
  exact ⟨fun priced => ⟨priced.fits, priced.buysSome, priced.paysAUnit⟩,
    fun parts => ⟨parts.2.1, parts.1, parts.2.2⟩⟩

end Reached

/-! ## Safety -/

section Safety

variable {levels : List BookLevel} {target : Decimal128}

/-- The condition of the computation, and a price of at least a unit. -/
theorem priceable_iff (valid : ∀ level ∈ levels, ValidLevel level) (targetPos : 0 < target) :
    Priceable levels target ↔
      (takenQty levels target).InRange ∧ (target ≤ notionals levels →
        0 < takenQty levels target ∧
          (takenQty levels target).raw ≤ (takenNotional levels target).raw * scale) := by
  by_cases enough : target ≤ notionals levels
  · constructor
    · intro priceable
      obtain ⟨before, price, reached⟩ := exists_reachedAt targetPos enough
      have parts := (reached.pricedAt_iff valid).1 (priceable.reached before price reached)
      exact ⟨parts.1, fun _ => parts.2⟩
    · rintro ⟨inRange, positive⟩
      exact ⟨fun short => absurd enough (not_le.2 short), fun before price reached =>
        (reached.pricedAt_iff valid).2 ⟨inRange, positive enough⟩⟩
  · have all : takenQty levels target = quantities levels := by
      rw [takenQty, taken_of_short valid (not_le.1 enough), quantities]
    rw [all]
    constructor
    · intro priceable
      exact ⟨priceable.unreached (not_le.1 enough), fun reached => absurd reached enough⟩
    · rintro ⟨inRange, -⟩
      refine ⟨fun _ => inRange, fun before price reached => ?_⟩
      exact absurd (reached.le_notionals valid) enough

/-- The impact price is safe exactly where the target can be priced. -/
theorem pricedSafely_iff (valid : ∀ level ∈ levels, ValidLevel level) (targetPos : 0 < target)
    (targetInRange : target.InRange) : PricedSafely levels target ↔ Priceable levels target := by
  have computed := computes_impactPrice valid targetPos targetInRange
  have nonneg := takenNotional_nonneg valid targetPos
  rw [priceable_iff valid targetPos]
  constructor
  · rintro ⟨outcome, returned, none_iff, some_of⟩
    obtain ⟨⟨inRange, positive⟩, rfl⟩ := (computed outcome).1 returned
    refine ⟨inRange, fun reached => ⟨positive reached, ?_⟩⟩
    exact (quotient_pos_iff nonneg (positive reached)).1 (some_of _ (if_pos reached)).1
  · rintro ⟨inRange, priced⟩
    have domain := computed.eq_some ⟨inRange, fun reached => (priced reached).1⟩
    refine ⟨_, domain, ?_, ?_⟩
    · split
      · rename_i reached
        simpa using reached
      · rename_i short
        simpa using short
    · intro price same
      split at same
      · rename_i reached
        obtain rfl := Option.some.inj same
        obtain ⟨qtyPos, enough⟩ := priced reached
        exact ⟨(quotient_pos_iff nonneg qtyPos).2 enough,
          averagePrice_le_used valid targetPos qtyPos⟩
      · cases same

/-- The average price is the greatest that is paid for each unit. -/
theorem ReachedAt.le_average_iff (valid : ∀ level ∈ levels, ValidLevel level)
    (targetPos : 0 < target) {before : List BookLevel} {price : Decimal128}
    (reached : ReachedAt levels target before price) (qtyPos : 0 < takenQty levels target)
    (least : Int) :
    PaysAtLeast before price target least ↔ least ≤ (averagePrice levels target).raw := by
  have quotient : (averagePrice levels target).raw =
      (takenNotional levels target).raw * scale / (takenQty levels target).raw :=
    Int.tdiv_eq_ediv_of_nonneg
      (Int.mul_nonneg (takenNotional_nonneg valid targetPos) (by decide))
  rw [reached.paysAtLeast_iff valid, quotient, Int.le_ediv_iff_mul_le qtyPos]

end Safety

section Mid

variable {bids asks : List BookLevel} {impactNotional : Decimal128}

/-- Half a sum exists where the sum does. -/
theorem computes_half {impactBid impactAsk : Decimal128} (bidNonneg : 0 ≤ impactBid)
    (askNonneg : 0 ≤ impactAsk) :
    Computes
      (do
        let both ← impactBid.add? impactAsk
        (both.div? (ofInt 2)).map some)
      (impactBid + impactAsk).InRange (some ((impactBid + impactAsk) / ofInt 2)) := by
  have bothNonneg := add_nonneg bidNonneg askNonneg
  have twoPos : 0 < ofInt 2 := by decide
  refine ((computes_add impactBid impactAsk).bind fun inRange =>
    ((computes_div inRange (by decide)).congr (iff_true_intro ?_)).map some).congr
      (and_iff_left trivial)
  have half : (impactBid + impactAsk) / ofInt 2 ≤ impactBid + impactAsk := by
    apply average_le twoPos bothNonneg
    have two : (ofInt 2).toRat = 2 := by norm_num [toRat, ofInt, scale]
    have nonneg := toRat_nonneg bothNonneg
    rw [two]
    linarith
  exact ⟨by decide, inRange.of_le (quotient_nonneg bothNonneg twoPos) half⟩

/-- The two average prices have a sum where no two prices above the range are paid. -/
theorem midInRange_iff (bidsValid : ∀ level ∈ bids, ValidLevel level)
    (asksValid : ∀ level ∈ asks, ValidLevel level) (targetPos : 0 < impactNotional)
    (bidsReached : impactNotional ≤ notionals bids) (asksReached : impactNotional ≤ notionals asks)
    (bidsQty : 0 < takenQty bids impactNotional) (asksQty : 0 < takenQty asks impactNotional) :
    MidInRange bids asks impactNotional ↔
      (averagePrice bids impactNotional + averagePrice asks impactNotional).InRange := by
  have bidNonneg := quotient_nonneg (takenNotional_nonneg bidsValid targetPos) bidsQty
  have askNonneg := quotient_nonneg (takenNotional_nonneg asksValid targetPos) asksQty
  constructor
  · intro noneAbove
    obtain ⟨bidsBefore, bidPrice, bidAt⟩ := exists_reachedAt targetPos bidsReached
    obtain ⟨asksBefore, askPrice, askAt⟩ := exists_reachedAt targetPos asksReached
    refine ⟨le_trans (by decide) (add_nonneg bidNonneg askNonneg), not_lt.1 fun above => ?_⟩
    exact noneAbove _ _ _ _ bidAt askAt _ _ above
      ⟨(bidAt.le_average_iff bidsValid targetPos bidsQty _).2 le_rfl,
        (askAt.le_average_iff asksValid targetPos asksQty _).2 le_rfl⟩
  · rintro ⟨-, inRange⟩ bidsBefore bidPrice asksBefore askPrice bidAt askAt bid ask above
      ⟨bidPaid, askPaid⟩
    have bidLe := (bidAt.le_average_iff bidsValid targetPos bidsQty bid).1 bidPaid
    have askLe := (askAt.le_average_iff asksValid targetPos asksQty ask).1 askPaid
    rw [raw_add] at inRange
    omega

/-- With both sides safely priced, only the sum of the prices can still overflow. -/
theorem mid_isSome_iff (bidsValid : ∀ level ∈ bids, ValidLevel level)
    (asksValid : ∀ level ∈ asks, ValidLevel level) (targetPos : 0 < impactNotional)
    (targetInRange : impactNotional.InRange) (bidsPriceable : Priceable bids impactNotional)
    (asksPriceable : Priceable asks impactNotional) :
    (calcImpactMidPrice? bids asks impactNotional).isSome ↔
      MidInRange bids asks impactNotional := by
  obtain ⟨bidsInRange, bidsPaid⟩ := (priceable_iff bidsValid targetPos).1 bidsPriceable
  obtain ⟨asksInRange, asksPaid⟩ := (priceable_iff asksValid targetPos).1 asksPriceable
  have bid := (computes_impactPrice bidsValid targetPos targetInRange).eq_some
    ⟨bidsInRange, fun reached => (bidsPaid reached).1⟩
  have ask := (computes_impactPrice asksValid targetPos targetInRange).eq_some
    ⟨asksInRange, fun reached => (asksPaid reached).1⟩
  rw [calcImpactMidPrice?, bid, ask]
  by_cases bidReached : impactNotional ≤ notionals bids
  · by_cases askReached : impactNotional ≤ notionals asks
    · rw [if_pos bidReached, if_pos askReached, midInRange_iff bidsValid asksValid targetPos
        bidReached askReached (bidsPaid bidReached).1 (asksPaid askReached).1]
      exact (computes_half
        (quotient_nonneg (takenNotional_nonneg bidsValid targetPos) (bidsPaid bidReached).1)
        (quotient_nonneg (takenNotional_nonneg asksValid targetPos)
          (asksPaid askReached).1)).isSome_iff
    · rw [if_pos bidReached, if_neg askReached]
      refine iff_of_true rfl fun bidsBefore bidPrice asksBefore askPrice bidAt askAt => ?_
      exact absurd (askAt.le_notionals asksValid) askReached
  · rw [if_neg bidReached]
    refine iff_of_true rfl fun bidsBefore bidPrice asksBefore askPrice bidAt => ?_
    exact absurd (bidAt.le_notionals bidsValid) bidReached
/-- The impact prices are safe exactly where the quantities that the target takes can be priced,
and the mid price exactly where the two prices can be added. -/
theorem impact_prices_safe_iff (bids asks : List BookLevel) (impactNotional : Decimal128)
    (bidsValid : ∀ level ∈ bids, ValidLevel level) (asksValid : ∀ level ∈ asks, ValidLevel level)
    (targetPos : 0 < impactNotional) (targetInRange : impactNotional.InRange) :
    (PricedSafely bids impactNotional ∧ PricedSafely asks impactNotional ∧
        (calcImpactMidPrice? bids asks impactNotional).isSome) ↔
      Priceable bids impactNotional ∧ Priceable asks impactNotional ∧
        MidInRange bids asks impactNotional := by
  rw [pricedSafely_iff bidsValid targetPos targetInRange,
    pricedSafely_iff asksValid targetPos targetInRange]
  constructor
  · rintro ⟨bidsPriceable, asksPriceable, mid⟩
    exact ⟨bidsPriceable, asksPriceable, (mid_isSome_iff bidsValid asksValid targetPos
      targetInRange bidsPriceable asksPriceable).1 mid⟩
  · rintro ⟨bidsPriceable, asksPriceable, mid⟩
    exact ⟨bidsPriceable, asksPriceable, (mid_isSome_iff bidsValid asksValid targetPos
      targetInRange bidsPriceable asksPriceable).2 mid⟩

end Mid

/-- A level of one unit at a price of two, for a target of the least notional: nothing is taken,
and the average of nothing is a division by zero. -/
theorem impactPrice_panics :
    ValidLevel (ofInt 2, ofInt 1) ∧ (0 : Decimal128) < ⟨1⟩ ∧
      calcImpactPrice? [(ofInt 2, ofInt 1)] ⟨1⟩ = none ∧
      calcImpactMidPrice? [(ofInt 2, ofInt 1)] [(ofInt 2, ofInt 1)] ⟨1⟩ = none ∧
      ¬PricedSafely [(ofInt 2, ofInt 1)] ⟨1⟩ := by
  have panics : calcImpactPrice? [(ofInt 2, ofInt 1)] ⟨1⟩ = none := by decide
  refine ⟨⟨by decide, by decide, by decide, by decide, by decide⟩, by decide, panics, by decide, ?_⟩
  rintro ⟨outcome, returned, -⟩
  rw [panics] at returned
  cases returned

/-- A target of 250 takes two levels, the second one in part. -/
theorem impact_prices_safe_iff_two :
    (PricedSafely [(ofInt 100, ofInt 1), (ofInt 99, ofInt 5)] (ofInt 250) ∧
        PricedSafely [(ofInt 101, ofInt 9)] (ofInt 250) ∧
        (calcImpactMidPrice? [(ofInt 100, ofInt 1), (ofInt 99, ofInt 5)] [(ofInt 101, ofInt 9)]
          (ofInt 250)).isSome) ↔
      Priceable [(ofInt 100, ofInt 1), (ofInt 99, ofInt 5)] (ofInt 250) ∧
        Priceable [(ofInt 101, ofInt 9)] (ofInt 250) ∧
        MidInRange [(ofInt 100, ofInt 1), (ofInt 99, ofInt 5)] [(ofInt 101, ofInt 9)]
          (ofInt 250) := by
  apply impact_prices_safe_iff
  · intro level member
    rcases List.mem_pair.1 member with rfl | rfl
    · exact ⟨by decide, by decide, by decide, by decide, by decide⟩
    · exact ⟨by decide, by decide, by decide, by decide, by decide⟩
  · intro level member
    rw [List.mem_singleton.1 member]
    exact ⟨by decide, by decide, by decide, by decide, by decide⟩
  · decide
  · decide

end Exg
