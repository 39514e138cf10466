import Exg.Config.Agreement
import Exg.Risk.CheckedMargin
import Exg.Server.SymbolConfig
import Exg.Support.Intervals

/-!
# Validated tiers and the lookup of maintenance margins

Validation asks that a tier does not begin below the cap of the one before, and compares doubles.
So the bounds of the parsed tiers never fall, but a gap may lie between two tiers, and two
bounds that are one double may overlap as decimals.  The lookup computes the formula of one
tier for every notional exactly where each tier begins at the cap of the one before, and the
formulas stay in range.
-/

namespace Exg

open Support Decimal128

/-! ## What validation accepts -/

/-- The bounds of the tiers are numerals in order, as doubles. -/
def TiersAccepted : Option F64 → List MarginTierEntry → Prop
  | _, [] => True
  | prev, tier :: rest => ∃ floor cap, ReadsAs tier.notionalFloor floor ∧
      ReadsAs tier.notionalCap cap ∧ floor < cap ∧ (∀ other ∈ prev, other ≤ floor) ∧
        TiersAccepted (some cap) rest

private theorem tiersAccepted_of_validateTiers {symbolPrefix : String} {i : Nat} {prev : Option F64}
    {tiers : List MarginTierEntry} (accepted : validateTiers symbolPrefix i prev tiers = .ok ()) :
    TiersAccepted prev tiers := by
  induction tiers generalizing i prev with
  | nil => trivial
  | cons tier rest inductionHypothesis =>
      obtain ⟨floor, floorRead, afterFloor⟩ := bind_ok_iff.1 accepted
      obtain ⟨cap, capRead, afterCap⟩ := bind_ok_iff.1 afterFloor
      obtain ⟨_, -, afterRate⟩ := bind_ok_iff.1 afterCap
      obtain ⟨_, -, compared⟩ := bind_ok_iff.1 afterRate
      split at compared
      · cases compared
      · rename_i above
        refine ⟨floor, cap, parseDecimal_ok_iff.1 floorRead, parseDecimal_ok_iff.1 capRead,
          FloatFormat.Number.not_le.1 above, ?_⟩
        split at compared
        · rename_i other
          split at compared
          · cases compared
          · rename_i apart
            refine ⟨fun prev member => ?_, inductionHypothesis compared⟩
            cases member
            exact FloatFormat.Number.not_lt.1 apart
        · exact ⟨fun prev member => (by cases member), inductionHypothesis compared⟩

private theorem tiersAccepted_of_validateSymbol {sym : SymbolConfigEntry}
    (accepted : validateSymbol sym = .ok ()) : TiersAccepted none sym.marginTiers := by
  obtain ⟨_, -, afterTick⟩ := bind_ok_iff.1 accepted
  obtain ⟨_, -, afterLot⟩ := bind_ok_iff.1 afterTick
  obtain ⟨_, -, afterMinimum⟩ := bind_ok_iff.1 afterLot
  obtain ⟨_, -, afterLeverage⟩ := bind_ok_iff.1 afterMinimum
  obtain ⟨_, -, afterMaker⟩ := bind_ok_iff.1 afterLeverage
  obtain ⟨_, -, afterTaker⟩ := bind_ok_iff.1 afterMaker
  obtain ⟨_, -, tiers⟩ := bind_ok_iff.1 afterTaker
  exact tiersAccepted_of_validateTiers tiers

/-! ## The parsed bounds -/

private theorem truncated_mono {small large : ℚ} (le : small ≤ large) :
    truncated small ≤ truncated large := by
  have scaled : small * 10 ^ 18 ≤ large * 10 ^ 18 :=
    mul_le_mul_of_nonneg_right le (by positivity)
  unfold truncated
  by_cases smallNonneg : 0 ≤ small
  · rw [if_pos smallNonneg, if_pos (smallNonneg.trans le)]
    exact Int.floor_le_floor scaled
  · rw [if_neg smallNonneg]
    have nonpos : ⌈small * 10 ^ 18⌉ ≤ 0 :=
      Int.ceil_nonpos.2 (mul_nonpos_of_nonpos_of_nonneg (not_le.1 smallNonneg).le (by positivity))
    by_cases largeNonneg : 0 ≤ large
    · rw [if_pos largeNonneg]
      exact nonpos.trans (Int.floor_nonneg.2 (mul_nonneg largeNonneg (by positivity)))
    · rw [if_neg largeNonneg]
      exact Int.ceil_le_ceil scaled

/-- Texts in order as doubles are in order, or equal, as decimals. -/
theorem parsed_le_of_lt {left right : String} {leftNumber rightNumber : F64}
    {leftValue rightValue : Decimal128} (leftReads : ReadsAs left leftNumber)
    (rightReads : ReadsAs right rightNumber) (lt : leftNumber < rightNumber)
    (leftParsed : fromStr left = .parsed leftValue)
    (rightParsed : fromStr right = .parsed rightValue) : leftValue ≤ rightValue := by
  obtain ⟨leftMinus, leftWhole, leftFraction, leftNumeral, rfl⟩ := leftReads
  obtain ⟨rightMinus, rightWhole, rightFraction, rightNumeral, rfl⟩ := rightReads
  obtain ⟨-, rfl⟩ := (fromStr_numeral_iff leftNumeral).1 leftParsed
  obtain ⟨-, rfl⟩ := (fromStr_numeral_iff rightNumeral).1 rightParsed
  have numbers := FloatFormat.lt_of_round_lt (magnitude_nonneg leftWhole leftFraction)
    (magnitude_nonneg rightWhole rightFraction) lt
  rw [← truncated_denoted, ← truncated_denoted]
  exact truncated_mono numbers.le

/-- The bounds of accepted tiers never fall. -/
theorem rising_of_accepted {prev : Option F64} {entries : List MarginTierEntry}
    {tiers : List MarginTier} (accepted : TiersAccepted prev entries)
    (parsed : List.Forall₂ TierParsed entries tiers) :
    Rising MarginTier.notionalFloor MarginTier.notionalCap tiers := by
  induction parsed generalizing prev with
  | nil => exact rising_nil
  | @cons entry tier entries tiers parsed others inductionHypothesis =>
      obtain ⟨floor, cap, floorReads, capReads, above, -, later⟩ := accepted
      refine (inductionHypothesis later).cons
        (parsed_le_of_lt floorReads capReads above parsed.notionalFloor parsed.notionalCap) ?_
      intro second isNext
      cases others with
      | nil => cases isNext
      | cons nextParsed _ =>
          cases isNext
          obtain ⟨nextFloor, nextCap, nextFloorReads, nextCapReads, nextAbove, apart, -⟩ := later
          have within := apart cap rfl
          exact ⟨parsed_le_of_lt floorReads nextFloorReads (above.trans_le within)
              parsed.notionalFloor nextParsed.notionalFloor,
            parsed_le_of_lt capReads nextCapReads (within.trans_lt nextAbove)
              parsed.notionalCap nextParsed.notionalCap⟩

/-! ## The lookup -/

/-- The lookup computes the formula of a tier: of the only one that contains the notional, or of
the last one from its cap on. -/
def ComputedByTier (tiers : List MarginTier) (notional : Decimal128) : Prop :=
  ∃ tier, (covering MarginTier.notionalFloor MarginTier.notionalCap tiers notional = [tier] ∨
      (tiers.getLast? = some tier ∧ tier.notionalCap ≤ notional)) ∧
    chooseTier notional tiers = some tier ∧
    calcMaintenanceMargin? notional tiers = some (tier.margin notional)

/-- The formulas stay in range at both ends of their tiers: up to one unit of the last place below
the cap, and without an end in the last tier. -/
structure EndsFit (tiers : List MarginTier) : Prop where
  inner : ∀ tier ∈ tiers.dropLast, tier.notionalFloor < tier.notionalCap →
    tier.MarginFits tier.notionalFloor ∧ tier.MarginFits (tier.notionalCap - ⟨1⟩)
  outer : ∀ last ∈ tiers.getLast?,
    last.MarginFits last.notionalFloor ∧ last.MarginFits Decimal128.maxValue

section Lookup

variable {tiers : List MarginTier} {tier last : MarginTier} {notional : Decimal128}

private theorem chooseTier_of_covering
    (only : covering MarginTier.notionalFloor MarginTier.notionalCap tiers notional = [tier]) :
    chooseTier notional tiers = some tier := by
  have found : tiers.find? (fun tier => decide (tier.Covers notional)) = some tier := by
    rw [← List.head?_filter]
    exact congrArg List.head? only
  rw [chooseTier, found]

private theorem chooseTier_of_last
    (rising : Rising MarginTier.notionalFloor MarginTier.notionalCap tiers)
    (isLast : tiers.getLast? = some last) (ended : last.notionalCap ≤ notional) :
    chooseTier notional tiers = some last := by
  have nothing : tiers.find? (fun tier => decide (tier.Covers notional)) = none := by
    rw [← List.head?_filter]
    exact congrArg List.head? (rising.covering_eq_nil isLast ended)
  have begun : last.notionalFloor ≤ notional :=
    (rising.ordered last (List.mem_of_getLast? isLast)).trans ended
  rw [chooseTier, nothing, isLast]
  simp [begun]

/-- A tier that contains a notional covered once is the one that is used. -/
theorem chooseTier_of_mem
    (rising : Rising MarginTier.notionalFloor MarginTier.notionalCap tiers)
    (once : CoveredOnce MarginTier.notionalFloor MarginTier.notionalCap tiers notional)
    (member : tier ∈ covering MarginTier.notionalFloor MarginTier.notionalCap tiers notional) :
    chooseTier notional tiers = some tier := by
  rcases once with ⟨other, only⟩ | ⟨last, isLast, ended⟩
  · rw [only] at member
    rw [List.mem_singleton.1 member]
    exact chooseTier_of_covering only
  · rw [rising.covering_eq_nil isLast ended] at member
    cases member

private theorem computedByTier_iff
    (rising : Rising MarginTier.notionalFloor MarginTier.notionalCap tiers)
    (inRange : notional.InRange) (rates : ∀ tier ∈ tiers, tier.maintenanceMarginRate.InRange) :
    ComputedByTier tiers notional ↔
      CoveredOnce MarginTier.notionalFloor MarginTier.notionalCap tiers notional ∧
        MaintenanceFits notional tiers := by
  have computes := computes_maintenanceMargin inRange rates
  constructor
  · rintro ⟨tier, used, -, computed⟩
    refine ⟨?_, ((computes _).1 computed).1⟩
    rcases used with only | ended
    · exact Or.inl ⟨tier, only⟩
    · exact Or.inr ⟨tier, ended⟩
  · rintro ⟨once, fits⟩
    have computed := computes.eq_some fits
    rcases once with ⟨tier, only⟩ | ⟨last, isLast, ended⟩
    · have chosen := chooseTier_of_covering only
      rw [calcMaintenanceMargin, chosen] at computed
      exact ⟨tier, Or.inl only, chosen, computed⟩
    · have chosen := chooseTier_of_last rising isLast ended
      rw [calcMaintenanceMargin, chosen] at computed
      exact ⟨last, Or.inr ⟨isLast, ended⟩, chosen, computed⟩

/-- A tier that is not the last ends one unit below its cap. -/
theorem le_cap_sub_unit (below : notional < tier.notionalCap) :
    notional ≤ tier.notionalCap - ⟨1⟩ := by
  rw [le_iff_raw, raw_sub]
  exact Int.le_sub_one_of_lt below

/-- Where the ends of the tiers fit, every notional that a tier is used for does. -/
theorem EndsFit.maintenanceFits (fits : EndsFit tiers)
    (rising : Rising MarginTier.notionalFloor MarginTier.notionalCap tiers)
    (inRange : notional.InRange)
    (once : CoveredOnce MarginTier.notionalFloor MarginTier.notionalCap tiers notional) :
    MaintenanceFits notional tiers := by
  intro tier chosen
  have lastFits : ∀ last ∈ tiers.getLast?, last.notionalFloor ≤ notional →
      last.MarginFits notional := fun last isLast begun =>
    (fits.outer last isLast).1.between (fits.outer last isLast).2 begun (le_iff_raw.2 inRange.2)
  rcases once with ⟨other, only⟩ | ⟨last, isLast, ended⟩
  · rw [chooseTier_of_covering only] at chosen
    cases chosen
    obtain ⟨member, begun, below⟩ := mem_covering.1 (only ▸ List.mem_singleton_self tier)
    obtain ⟨last, isLast⟩ := Option.isSome_iff_exists.1
      (List.getLast?_isSome.2 (List.ne_nil_of_mem member))
    have parts := List.dropLast_append_getLast? last isLast
    rw [← parts] at member
    rcases List.mem_append.1 member with inner | outer
    · obtain ⟨floorFits, topFits⟩ := fits.inner tier inner (begun.trans_lt below)
      exact floorFits.between topFits begun (le_cap_sub_unit below)
    · rw [List.mem_singleton.1 outer] at begun ⊢
      exact lastFits last isLast begun
  · rw [chooseTier_of_last rising isLast ended] at chosen
    cases chosen
    exact lastFits tier isLast ((rising.ordered tier (List.mem_of_getLast? isLast)).trans ended)

/-- The last tier is used from its floor on. -/
theorem chooseTier_of_begun
    (rising : Rising MarginTier.notionalFloor MarginTier.notionalCap tiers)
    (once : CoveredOnce MarginTier.notionalFloor MarginTier.notionalCap tiers notional)
    (isLast : tiers.getLast? = some last) (begun : last.notionalFloor ≤ notional) :
    chooseTier notional tiers = some last := by
  by_cases below : notional < last.notionalCap
  · exact chooseTier_of_mem rising once
      (mem_covering.2 ⟨List.mem_of_getLast? isLast, begun, below⟩)
  · exact chooseTier_of_last rising isLast (not_lt.1 below)

/-- Where the lookup never leaves the range, it does not at the ends of the tiers. -/
theorem endsFit_of_computed {first : MarginTier} {rest : List MarginTier}
    (rising : Rising MarginTier.notionalFloor MarginTier.notionalCap (first :: rest))
    (bounds : ∀ tier ∈ first :: rest, tier.notionalFloor.InRange ∧ tier.notionalCap.InRange)
    (computed : ∀ notional : Decimal128, notional.InRange → first.notionalFloor ≤ notional →
      CoveredOnce MarginTier.notionalFloor MarginTier.notionalCap (first :: rest) notional ∧
        MaintenanceFits notional (first :: rest)) :
    EndsFit (first :: rest) := by
  constructor
  · intro tier inner above
    have member := List.mem_of_mem_dropLast inner
    have fits : ∀ notional : Decimal128, tier.notionalFloor ≤ notional →
        notional < tier.notionalCap → tier.MarginFits notional := by
      intro notional begun below
      have inRange := (bounds tier member).1.between (bounds tier member).2 begun below.le
      obtain ⟨once, within⟩ := computed notional inRange ((rising.first_le member).trans begun)
      exact within tier (chooseTier_of_mem rising once (mem_covering.2 ⟨member, begun, below⟩))
    exact ⟨fits _ le_rfl above, fits _ (le_cap_sub_unit above) (sub_lt_self _ (by decide))⟩
  · intro last isLast
    have member := List.mem_of_getLast? isLast
    have fits : ∀ notional : Decimal128, notional.InRange → last.notionalFloor ≤ notional →
        last.MarginFits notional := by
      intro notional inRange begun
      obtain ⟨once, within⟩ := computed notional inRange ((rising.first_le member).trans begun)
      exact within last (chooseTier_of_begun rising once isLast begun)
    have floorInRange := (bounds last member).1
    exact ⟨fits _ floorInRange le_rfl, fits _ (by decide) (le_iff_raw.2 floorInRange.2)⟩

end Lookup

/-- The lookup computes the formula of one tier for every notional from the first floor on, exactly
where each tier begins at the cap of the one before and the formulas stay in range. -/
theorem tier_lookup_iff {sym : SymbolConfigEntry} {config : FullSymbolConfig}
    {first : MarginTier} {rest : List MarginTier} (accepted : validateSymbol sym = .ok ())
    (parsed : symbolConfigFromEntry sym = .ok config)
    (nonempty : config.marginTiers = first :: rest) :
    (∀ notional : Decimal128, notional.InRange → first.notionalFloor ≤ notional →
        ComputedByTier config.marginTiers notional) ↔
      Adjoining MarginTier.notionalFloor MarginTier.notionalCap config.marginTiers ∧
        EndsFit config.marginTiers := by
  have tiersParsed := tiersParsed_of_entry parsed
  have rising := rising_of_accepted (tiersAccepted_of_validateSymbol accepted) tiersParsed
  have inRange := inRange_of_tiersParsed tiersParsed
  rw [nonempty] at rising inRange ⊢
  have rates : ∀ tier ∈ first :: rest, tier.maintenanceMarginRate.InRange :=
    fun tier member => (inRange tier member).2.2
  constructor
  · intro computed
    have covered : ∀ notional : Decimal128, notional.InRange → first.notionalFloor ≤ notional →
        CoveredOnce MarginTier.notionalFloor MarginTier.notionalCap (first :: rest) notional ∧
          MaintenanceFits notional (first :: rest) := fun notional within above =>
      (computedByTier_iff rising within rates).1 (computed notional within above)
    refine ⟨adjoining_of_coveredOnce rising fun tier member => ?_, ?_⟩
    · have least := rising.first_le member
      exact ⟨(covered _ (inRange tier member).1 least).1,
        (covered _ (inRange tier member).2.1 (least.trans (rising.ordered tier member))).1⟩
    · exact endsFit_of_computed rising
        (fun tier member => ⟨(inRange tier member).1, (inRange tier member).2.1⟩) covered
  · rintro ⟨adjoining, fits⟩ notional within above
    have once := adjoining.coveredOnce rising above
    exact (computedByTier_iff rising within rates).2
      ⟨once, fits.maintenanceFits rising within once⟩

/-! ## A schedule with a gap, and one without -/

def plainSymbol (marginTiers : List MarginTierEntry) : SymbolConfigEntry where
  id := 1
  name := "BTCUSDT"
  tickSize := "0.01"
  lotSize := "0.001"
  minNotional := "10"
  maxLeverage := "125"
  makerFee := "0.0002"
  takerFee := "0.0005"
  markPrice := "60000"
  marginTiers := marginTiers

def gappedEntries : List MarginTierEntry :=
  [⟨"0", "50000", "0.004", "0"⟩, ⟨"100000", "250000", "0.005", "50"⟩]

def gappedTiers : List MarginTier :=
  [⟨0, ofInt 50000, ⟨4000000000000000⟩, 0⟩,
    ⟨ofInt 100000, ofInt 250000, ⟨5000000000000000⟩, ofInt 50⟩]

def meetingEntries : List MarginTierEntry :=
  [⟨"0", "50000", "0.004", "0"⟩, ⟨"50000", "250000", "0.005", "50"⟩]

def meetingTiers : List MarginTier :=
  [⟨0, ofInt 50000, ⟨4000000000000000⟩, 0⟩,
    ⟨ofInt 50000, ofInt 250000, ⟨5000000000000000⟩, ofInt 50⟩]

/-- What `plainSymbol` is parsed to. -/
def parsedSymbol (marginTiers : List MarginTier) : FullSymbolConfig where
  symbol := 1
  tickSize := ⟨10000000000000000⟩
  lotSize := ⟨1000000000000000⟩
  minNotional := ofInt 10
  maxLeverage := ofInt 125
  makerFee := ⟨200000000000000⟩
  takerFee := ⟨500000000000000⟩
  marginTiers := marginTiers

/-- Validation accepts a gap between two tiers, and a notional in it needs no margin. -/
theorem gap_needs_no_margin :
    validateSymbol (plainSymbol gappedEntries) = .ok () ∧
      symbolConfigFromEntry (plainSymbol gappedEntries) = .ok (parsedSymbol gappedTiers) ∧
      calcMaintenanceMargin? (ofInt 75000) gappedTiers = some 0 ∧
      ¬ComputedByTier gappedTiers (ofInt 75000) := by
  have accepted : validateSymbol (plainSymbol gappedEntries) = .ok () := by decide +kernel
  have parsed : symbolConfigFromEntry (plainSymbol gappedEntries) =
      .ok (parsedSymbol gappedTiers) := by decide +kernel
  have unchosen : chooseTier (ofInt 75000) gappedTiers = none := by decide +kernel
  refine ⟨accepted, parsed, by decide +kernel, ?_⟩
  rintro ⟨tier, -, chosen, -⟩
  rw [unchosen] at chosen
  cases chosen

theorem tier_lookup_iff_meeting :
    validateSymbol (plainSymbol meetingEntries) = .ok () ∧
      symbolConfigFromEntry (plainSymbol meetingEntries) = .ok (parsedSymbol meetingTiers) ∧
      ComputedByTier meetingTiers (ofInt 75000) := by
  have accepted : validateSymbol (plainSymbol meetingEntries) = .ok () := by decide +kernel
  have parsed : symbolConfigFromEntry (plainSymbol meetingEntries) =
      .ok (parsedSymbol meetingTiers) := by decide +kernel
  have adjoining : Adjoining MarginTier.notionalFloor MarginTier.notionalCap meetingTiers :=
    List.isChain_pair.2 rfl
  have fits : EndsFit meetingTiers := by
    constructor
    · intro tier inner _
      rw [List.mem_singleton.1 inner]
      exact ⟨⟨by decide +kernel, by decide +kernel⟩, ⟨by decide +kernel, by decide +kernel⟩⟩
    · intro last isLast
      cases isLast
      exact ⟨⟨by decide +kernel, by decide +kernel⟩, ⟨by decide +kernel, by decide +kernel⟩⟩
  exact ⟨accepted, parsed, (tier_lookup_iff accepted parsed rfl).2 ⟨adjoining, fits⟩
    (ofInt 75000) (by decide) (by decide)⟩

end Exg
