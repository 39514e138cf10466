import Exg.Config.Validation
import Exg.Matching.Engine
import Exg.Risk.Margin

/-!
# The configuration of a symbol at boot

The server reads the texts of a configuration entry with the parser of decimals.  The tiers are
read first, but an error in them is only reported after those in the other fields.
-/

namespace Exg

open Decimal128

/-- How the reading of an entry fails. -/
inductive BootFailure where
  | invalidDecimal (text error : String)
  | panicked (text : String)
  deriving DecidableEq, Repr

/-- The whole configuration, of which the engine reads the first part. -/
structure FullSymbolConfig extends SymbolConfig where
  tickSize : Decimal128
  minNotional : Decimal128
  maxLeverage : Decimal128
  marginTiers : List MarginTier
  deriving DecidableEq, Repr

def parseEntry (s : String) : Except BootFailure Decimal128 :=
  match fromStr s with
  | .parsed value => .ok value
  | .rejected error => .error (.invalidDecimal s error)
  | .panicked text => .error (.panicked text)

def parseTier (t : MarginTierEntry) : Except BootFailure MarginTier := do
  let notionalFloor ← parseEntry t.notionalFloor
  let notionalCap ← parseEntry t.notionalCap
  let maintenanceMarginRate ← parseEntry t.maintenanceMarginRate
  let maintenanceAmount ← parseEntry t.maintenanceAmount
  .ok { notionalFloor, notionalCap, maintenanceMarginRate, maintenanceAmount }

def parseTiers : List MarginTierEntry → Except BootFailure (List MarginTier)
  | [] => .ok []
  | t :: rest => do
      let tier ← parseTier t
      let tiers ← parseTiers rest
      .ok (tier :: tiers)

def parseFields (entry : SymbolConfigEntry) (marginTiers : Except BootFailure (List MarginTier)) :
    Except BootFailure FullSymbolConfig := do
  let tickSize ← parseEntry entry.tickSize
  let lotSize ← parseEntry entry.lotSize
  let minNotional ← parseEntry entry.minNotional
  let maxLeverage ← parseEntry entry.maxLeverage
  let makerFee ← parseEntry entry.makerFee
  let takerFee ← parseEntry entry.takerFee
  let tiers ← marginTiers
  .ok { symbol := entry.id, tickSize, lotSize, minNotional, maxLeverage, makerFee, takerFee,
        marginTiers := tiers }

def symbolConfigFromEntry (entry : SymbolConfigEntry) : Except BootFailure FullSymbolConfig :=
  match parseTiers entry.marginTiers with
  | .error (.panicked text) => .error (.panicked text)
  | marginTiers => parseFields entry marginTiers

/-! ## What has been read -/

/-- A tier holds the decimals that its entry's texts parse to. -/
structure TierParsed (t : MarginTierEntry) (tier : MarginTier) : Prop where
  notionalFloor : fromStr t.notionalFloor = .parsed tier.notionalFloor
  notionalCap : fromStr t.notionalCap = .parsed tier.notionalCap
  maintenanceMarginRate : fromStr t.maintenanceMarginRate = .parsed tier.maintenanceMarginRate
  maintenanceAmount : fromStr t.maintenanceAmount = .parsed tier.maintenanceAmount

private theorem parseEntry_ok_iff {s : String} {value : Decimal128} :
    parseEntry s = .ok value ↔ fromStr s = .parsed value := by
  unfold parseEntry
  cases fromStr s with
  | parsed other => simp
  | rejected error => simp
  | panicked text => simp

private theorem tierParsed_of_parseTier {t : MarginTierEntry} {tier : MarginTier}
    (parsed : parseTier t = .ok tier) : TierParsed t tier := by
  obtain ⟨notionalFloor, floorRead, afterFloor⟩ := bind_ok_iff.1 parsed
  obtain ⟨notionalCap, capRead, afterCap⟩ := bind_ok_iff.1 afterFloor
  obtain ⟨maintenanceMarginRate, rateRead, afterRate⟩ := bind_ok_iff.1 afterCap
  obtain ⟨maintenanceAmount, amountRead, done⟩ := bind_ok_iff.1 afterRate
  cases done
  exact ⟨parseEntry_ok_iff.1 floorRead, parseEntry_ok_iff.1 capRead,
    parseEntry_ok_iff.1 rateRead, parseEntry_ok_iff.1 amountRead⟩

private theorem tiersParsed_of_parseTiers {entries : List MarginTierEntry} {tiers : List MarginTier}
    (parsed : parseTiers entries = .ok tiers) : List.Forall₂ TierParsed entries tiers := by
  induction entries generalizing tiers with
  | nil =>
      cases parsed
      exact List.Forall₂.nil
  | cons t rest inductionHypothesis =>
      obtain ⟨tier, tierRead, afterTier⟩ := bind_ok_iff.1 parsed
      obtain ⟨others, othersRead, done⟩ := bind_ok_iff.1 afterTier
      cases done
      exact List.Forall₂.cons (tierParsed_of_parseTier tierRead) (inductionHypothesis othersRead)

theorem inRange_of_tiersParsed {entries : List MarginTierEntry} {tiers : List MarginTier}
    (parsed : List.Forall₂ TierParsed entries tiers) : ∀ tier ∈ tiers,
      tier.notionalFloor.InRange ∧ tier.notionalCap.InRange ∧
        tier.maintenanceMarginRate.InRange := by
  induction parsed with
  | nil => exact fun tier member => absurd member List.not_mem_nil
  | cons read _ inductionHypothesis =>
      intro tier member
      rcases List.mem_cons.1 member with rfl | inRest
      · exact ⟨(inRange_of_parsed read.notionalFloor).1, (inRange_of_parsed read.notionalCap).1,
          (inRange_of_parsed read.maintenanceMarginRate).1⟩
      · exact inductionHypothesis tier inRest

/-- An entry that is read gives its symbol and its tiers. -/
theorem parsed_of_entry {entry : SymbolConfigEntry} {config : FullSymbolConfig}
    (parsed : symbolConfigFromEntry entry = .ok config) :
    config.symbol = entry.id ∧ List.Forall₂ TierParsed entry.marginTiers config.marginTiers := by
  have fields : parseFields entry (parseTiers entry.marginTiers) = .ok config := by
    unfold symbolConfigFromEntry at parsed
    split at parsed
    · cases parsed
    · exact parsed
  obtain ⟨_, -, afterTick⟩ := bind_ok_iff.1 fields
  obtain ⟨_, -, afterLot⟩ := bind_ok_iff.1 afterTick
  obtain ⟨_, -, afterMinimum⟩ := bind_ok_iff.1 afterLot
  obtain ⟨_, -, afterLeverage⟩ := bind_ok_iff.1 afterMinimum
  obtain ⟨_, -, afterMaker⟩ := bind_ok_iff.1 afterLeverage
  obtain ⟨_, -, afterTaker⟩ := bind_ok_iff.1 afterMaker
  obtain ⟨tiers, tiersRead, done⟩ := bind_ok_iff.1 afterTaker
  cases done
  exact ⟨rfl, tiersParsed_of_parseTiers tiersRead⟩

theorem tiersParsed_of_entry {entry : SymbolConfigEntry} {config : FullSymbolConfig}
    (parsed : symbolConfigFromEntry entry = .ok config) :
    List.Forall₂ TierParsed entry.marginTiers config.marginTiers := (parsed_of_entry parsed).2

end Exg
