import Exg.MarketData.Trades
import Exg.Support.Cutoffs
import Exg.Support.Machine

/-!
# The 24-hour ticker

The aggregator keeps the trades of the window and the fields computed from them.  A trade is
added, the window pruned and the fields computed again; `prune` by itself leaves the fields as
they are.
-/

namespace Exg

open Support

/-- 24 hours in microseconds. -/
def window24hUs : Nat := 24 * 3600 * 1000000

/-- `Decimal128::MIN`. -/
def Decimal128.minValue : Decimal128 := ⟨-170141183460469231731687303715884105728⟩

structure Ticker where
  symbol : SymbolId
  lastPrice : Decimal128
  markPrice : Decimal128
  indexPrice : Decimal128
  high24h : Decimal128
  low24h : Decimal128
  volume24h : Decimal128
  quoteVolume24h : Decimal128
  open24h : Decimal128
  priceChange24h : Decimal128
  priceChangePct24h : Decimal128
  tradeCount24h : Nat
  bestBid : Option Decimal128
  bestAsk : Option Decimal128
  lastUpdated : UnixMicros
  deriving DecidableEq, Repr

/-- 24h sliding window ticker. -/
structure TickerAggregator where
  symbol : SymbolId
  /-- Trades in the 24h window, oldest first. -/
  trades : List MarketTrade
  currentTicker : Ticker
  deriving DecidableEq

inductive TickerInput where
  | addTrade (trade : MarketTrade)
  | prune (now : UnixMicros)
  deriving DecidableEq

namespace TickerInput

def time : TickerInput → UnixMicros
  | .addTrade trade => trade.timestamp
  | .prune now => now

/-- The trade that a call adds. -/
def added? : TickerInput → Option MarketTrade
  | .addTrade trade => some trade
  | .prune _ => none

end TickerInput

namespace TickerAggregator

def new (symbol : SymbolId) : TickerAggregator where
  symbol := symbol
  trades := []
  currentTicker :=
    { symbol := symbol
      lastPrice := 0
      markPrice := 0
      indexPrice := 0
      high24h := 0
      low24h := 0
      volume24h := 0
      quoteVolume24h := 0
      open24h := 0
      priceChange24h := 0
      priceChangePct24h := 0
      tradeCount24h := 0
      bestBid := none
      bestAsk := none
      lastUpdated := 0 }

/-- Prune old trades outside the 24h window.  The subtraction saturates. -/
def prune (aggregator : TickerAggregator) (now : UnixMicros) : TickerAggregator :=
  let cutoff := now - window24hUs
  { aggregator with
    trades := aggregator.trades.dropWhile fun trade => decide (trade.timestamp < cutoff) }

/-- High, low, volume and quote volume while the trades are visited. -/
structure TickerSums where
  high : Decimal128
  low : Decimal128
  volume : Decimal128
  quoteVolume : Decimal128
  deriving DecidableEq, Repr

/-- One turn of the loop over the window. -/
def addToSums (sums : TickerSums) (trade : MarketTrade) : Option TickerSums := do
  let volume ← sums.volume.add? trade.qty
  let quote ← trade.price.mul? trade.qty
  let quoteVolume ← sums.quoteVolume.add? quote
  return {
    high := max sums.high trade.price
    low := min sums.low trade.price
    volume := volume
    quoteVolume := quoteVolume }

/-- The change in percent of the opening price. -/
def changePct? («open» last : Decimal128) : Option Decimal128 := do
  if «open».isZero then
    return 0
  else
    let change ← last.sub? «open»
    let ratio ← change.div? «open»
    ratio.mul? (.ofInt 100)

/-- Recompute all derived fields from the trade window. -/
def recompute (aggregator : TickerAggregator) (now : UnixMicros) : Option TickerAggregator := do
  let ticker := aggregator.currentTicker
  if aggregator.trades.isEmpty then
    return { aggregator with
      currentTicker := { ticker with
        high24h := 0
        low24h := 0
        volume24h := 0
        quoteVolume24h := 0
        open24h := 0
        priceChange24h := 0
        priceChangePct24h := 0
        tradeCount24h := 0
        lastUpdated := now } }
  else
    let sums ← aggregator.trades.foldlM addToSums ⟨.minValue, .maxValue, 0, 0⟩
    let «open» := firstPrice aggregator.trades
    let last := lastPrice aggregator.trades
    let change ← last.sub? «open»
    let pct ← changePct? «open» last
    return { aggregator with
      currentTicker := { ticker with
        symbol := aggregator.symbol
        lastPrice := last
        high24h := sums.high
        low24h := sums.low
        volume24h := sums.volume
        quoteVolume24h := sums.quoteVolume
        open24h := «open»
        priceChange24h := change
        priceChangePct24h := pct
        tradeCount24h := aggregator.trades.length
        lastUpdated := now } }

/-- Add a trade and update the ticker. -/
def addTrade (aggregator : TickerAggregator) (trade : MarketTrade) : Option TickerAggregator :=
  let pushed := { aggregator with trades := aggregator.trades ++ [trade] }
  (pushed.prune trade.timestamp).recompute trade.timestamp

def step (aggregator : TickerAggregator) : TickerInput → Option TickerAggregator
  | .addTrade trade => aggregator.addTrade trade
  | .prune now => some (aggregator.prune now)

end TickerAggregator

/-! ## The fields as aggregates -/

/-- The ticker's fields are the aggregates of the given trades: zero when there are none. -/
structure Ticker.Agrees (ticker : Ticker) (trades : List MarketTrade) : Prop where
  high : ticker.high24h = highestPrice trades
  low : ticker.low24h = lowestPrice trades
  volume : ticker.volume24h = totalVolume trades
  quoteVolume : ticker.quoteVolume24h = totalQuote trades
  «open» : ticker.open24h = firstPrice trades
  priceChange : ticker.priceChange24h = Exg.lastPrice trades - firstPrice trades
  tradeCount : ticker.tradeCount24h = trades.length

namespace TickerAggregator

section Recompute

variable {trades : List MarketTrade} {sums next : TickerSums} {trade : MarketTrade}

private theorem minValue_le {value : Decimal128} (inRange : value.InRange) :
    Decimal128.minValue ≤ value :=
  Decimal128.le_iff_raw.2 inRange.1

private theorem le_maxValue {value : Decimal128} (inRange : value.InRange) :
    value ≤ Decimal128.maxValue :=
  Decimal128.le_iff_raw.2 inRange.2

private theorem addToSums_eq (added : addToSums sums trade = some next) :
    next = ⟨max sums.high trade.price, min sums.low trade.price, sums.volume + trade.qty,
      sums.quoteVolume + trade.quote⟩ := by
  obtain ⟨volume, summed, added⟩ := Option.bind_eq_some_iff.1 added
  obtain ⟨quote, product, added⟩ := Option.bind_eq_some_iff.1 added
  obtain ⟨quoteVolume, summedQuote, added⟩ := Option.bind_eq_some_iff.1 added
  obtain ⟨-, rfl⟩ := (trade.computes_quote _).1 product
  obtain ⟨-, rfl⟩ := (Decimal128.computes_add _ _ _).1 summed
  obtain ⟨-, rfl⟩ := (Decimal128.computes_add _ _ _).1 summedQuote
  exact (Option.some_inj.1 added).symm

/-- The loop over a window that is not empty computes its aggregates. -/
theorem sums_eq (nonempty : trades ≠ [])
    (looped : trades.foldlM addToSums ⟨.minValue, .maxValue, 0, 0⟩ = some sums) :
    sums = ⟨highestPrice trades, lowestPrice trades, totalVolume trades, totalQuote trades⟩ := by
  induction trades using List.reverseRecOn generalizing sums with
  | nil => exact absurd rfl nonempty
  | append_singleton before last inductionHypothesis =>
      rw [List.foldlM_append] at looped
      obtain ⟨earlier, first, looped⟩ := Option.bind_eq_some_iff.1 looped
      rw [List.foldlM_cons] at looped
      obtain ⟨final, added, done⟩ := Option.bind_eq_some_iff.1 looped
      rw [List.foldlM_nil] at done
      rw [← Option.some_inj.1 done, addToSums_eq added]
      by_cases empty : before = []
      · subst empty
        rw [List.foldlM_nil] at first
        rw [← Option.some_inj.1 first]
        simp [highestPrice, lowestPrice, totalVolume, totalQuote,
          max_eq_right (minValue_le last.priceInRange),
          min_eq_right (le_maxValue last.priceInRange)]
      · rw [inductionHypothesis empty first, highestPrice_concat last empty,
          lowestPrice_concat last empty, totalVolume_concat, totalQuote_concat]

/-- After `recompute` the fields are the aggregates of the window. -/
theorem recompute_agrees {aggregator next : TickerAggregator} {now : UnixMicros}
    (computed : aggregator.recompute now = some next) :
    next.trades = aggregator.trades ∧ next.currentTicker.Agrees aggregator.trades := by
  rw [recompute] at computed
  by_cases empty : aggregator.trades.isEmpty = true
  · rw [if_pos empty] at computed
    rw [← Option.some_inj.1 computed]
    refine ⟨rfl, ?_⟩
    rw [List.isEmpty_iff.1 empty]
    constructor <;> simp [highestPrice, lowestPrice, totalVolume, totalQuote, firstPrice, lastPrice]
  · rw [if_neg empty] at computed
    obtain ⟨sums, looped, computed⟩ := Option.bind_eq_some_iff.1 computed
    obtain ⟨change, subtracted, computed⟩ := Option.bind_eq_some_iff.1 computed
    obtain ⟨pct, -, computed⟩ := Option.bind_eq_some_iff.1 computed
    have sumsAre := sums_eq (mt List.isEmpty_iff.2 empty) looped
    obtain ⟨-, rfl⟩ := (Decimal128.computes_sub _ _ _).1 subtracted
    subst sumsAre
    rw [← Option.some_inj.1 computed]
    exact ⟨rfl, rfl, rfl, rfl, rfl, rfl, rfl, rfl⟩

end Recompute

/-! ## The window -/

/-- The trades with a timestamp at or after the given time minus 24 hours. -/
def windowAt (now : UnixMicros) (trades : List MarketTrade) : List MarketTrade :=
  trades.filter fun trade => decide (now - window24hUs ≤ trade.timestamp)

/-- The trades are in the order of their timestamps. -/
def InOrder (trades : List MarketTrade) : Prop :=
  trades.Pairwise fun earlier later => earlier.timestamp ≤ later.timestamp

section Window

variable {trades : List MarketTrade} {now earlier later : UnixMicros}

private theorem windowAt_windowAt (order : earlier ≤ later) (trades : List MarketTrade) :
    windowAt later (windowAt earlier trades) = windowAt later trades := by
  rw [windowAt, windowAt, List.filter_filter]
  refine List.filter_congr fun trade _ => ?_
  rw [← Bool.decide_and]
  refine decide_eq_decide.2 (and_iff_left_of_imp fun inside => ?_)
  exact (Nat.sub_le_sub_right order _).trans inside

private theorem windowAt_append (before after : List MarketTrade) :
    windowAt now (before ++ after) = windowAt now before ++ windowAt now after :=
  List.filter_append ..

private theorem prune_trades {aggregator : TickerAggregator} (inOrder : InOrder aggregator.trades)
    (now : UnixMicros) : (aggregator.prune now).trades = windowAt now aggregator.trades := by
  refine (dropWhile_eq_filter_of_pairwise (fun first second order old => ?_) inOrder).trans ?_
  · exact decide_eq_true (order.trans_lt (of_decide_eq_true old))
  · refine List.filter_congr fun trade _ => ?_
    rw [← decide_not]
    exact decide_eq_decide.2 Nat.not_lt

end Window

/-! ## Runs -/

/-- The trades that a sequence of calls adds. -/
def addedTrades (inputs : List TickerInput) : List MarketTrade :=
  inputs.filterMap TickerInput.added?

/-- The time of the last call. -/
def lastTime (inputs : List TickerInput) : UnixMicros :=
  (inputs.getLast?.map TickerInput.time).getD 0

/-- The time of the last `add_trade`. -/
def lastAddTime (inputs : List TickerInput) : UnixMicros :=
  ((addedTrades inputs).getLast?.map MarketTrade.timestamp).getD 0

/-- The calls come with non-decreasing times. -/
def TimesRise (inputs : List TickerInput) : Prop :=
  inputs.Pairwise fun earlier later => earlier.time ≤ later.time

section Runs

variable {symbol : SymbolId} {inputs : List TickerInput} {input : TickerInput}
variable {aggregator : TickerAggregator}

private theorem mem_addedTrades {trade : MarketTrade} :
    trade ∈ addedTrades inputs ↔ TickerInput.addTrade trade ∈ inputs := by
  rw [addedTrades, List.mem_filterMap]
  constructor
  · rintro ⟨added | now, member, same⟩
    · rwa [← Option.some_inj.1 same]
    · exact absurd same (by simp [TickerInput.added?])
  · exact fun member => ⟨_, member, rfl⟩

theorem TimesRise.inOrder (rise : TimesRise inputs) : InOrder (addedTrades inputs) := by
  refine List.Pairwise.filterMap _
    (fun earlier later order first firstAdded second secondAdded => ?_) rise
  cases earlier with
  | prune => exact absurd firstAdded (by simp [TickerInput.added?])
  | addTrade trade =>
      cases later with
      | prune => exact absurd secondAdded (by simp [TickerInput.added?])
      | addTrade other =>
          rw [← Option.some_inj.1 firstAdded, ← Option.some_inj.1 secondAdded]
          exact order

private theorem lastTime_concat (inputs : List TickerInput) (input : TickerInput) :
    lastTime (inputs ++ [input]) = input.time := by
  rw [lastTime, List.getLast?_concat]
  rfl

private theorem lastAddTime_le (rise : TimesRise inputs) :
    lastAddTime inputs ≤ lastTime inputs := by
  induction inputs using List.reverseRecOn with
  | nil => exact le_refl _
  | append_singleton before last inductionHypothesis =>
      obtain ⟨earlier, -, order⟩ := List.pairwise_append.1 rise
      rw [lastTime_concat]
      cases added : (addedTrades (before ++ [last])).getLast? with
      | none => rw [lastAddTime, added]; exact Nat.zero_le _
      | some trade =>
          rw [lastAddTime, added]
          have member := mem_addedTrades.1 (List.mem_of_getLast? added)
          rcases List.mem_append.1 member with old | new
          · exact order _ old _ List.mem_cons_self
          · rw [← List.mem_singleton.1 new]
            exact le_refl _

/-- The window is that of the last call; the fields are those of the last `add_trade`. -/
structure Windowed (aggregator : TickerAggregator) (inputs : List TickerInput) : Prop where
  trades : aggregator.trades = windowAt (lastTime inputs) (addedTrades inputs)
  ticker : aggregator.currentTicker.Agrees (windowAt (lastAddTime inputs) (addedTrades inputs))

private theorem windowed_new (symbol : SymbolId) : (new symbol).Windowed [] where
  trades := rfl
  ticker := by constructor <;> rfl

theorem Windowed.inOrder (windowed : aggregator.Windowed inputs) (rise : TimesRise inputs) :
    InOrder aggregator.trades := by
  rw [windowed.trades]
  exact rise.inOrder.sublist List.filter_sublist

theorem Windowed.addTrade (windowed : aggregator.Windowed inputs) {trade : MarketTrade}
    (rise : TimesRise (inputs ++ [.addTrade trade])) (later : lastTime inputs ≤ trade.timestamp)
    {next : TickerAggregator} (added : aggregator.addTrade trade = some next) :
    next.Windowed (inputs ++ [.addTrade trade]) := by
  have allTrades : addedTrades (inputs ++ [.addTrade trade]) = addedTrades inputs ++ [trade] :=
    List.filterMap_append ..
  have lastAdded : lastAddTime (inputs ++ [.addTrade trade]) = trade.timestamp := by
    rw [lastAddTime, allTrades, List.getLast?_concat]
    rfl
  have inOrder : InOrder (windowAt (lastTime inputs) (addedTrades inputs) ++ [trade]) := by
    have whole := rise.inOrder
    rw [allTrades] at whole
    exact whole.sublist (List.filter_sublist.append (List.Sublist.refl [trade]))
  obtain ⟨kept, agrees⟩ := recompute_agrees added
  rw [prune_trades (by rwa [windowed.trades])] at kept agrees
  have window : windowAt trade.timestamp (aggregator.trades ++ [trade]) =
      windowAt trade.timestamp (addedTrades inputs ++ [trade]) := by
    rw [windowed.trades, windowAt_append, windowAt_windowAt later, ← windowAt_append]
  constructor
  · rw [lastTime_concat, allTrades]
    exact kept.trans window
  · rw [lastAdded, allTrades, ← window]
    exact agrees

theorem Windowed.prune (windowed : aggregator.Windowed inputs) (rise : TimesRise inputs)
    {now : UnixMicros} (later : lastTime inputs ≤ now) :
    (aggregator.prune now).Windowed (inputs ++ [.prune now]) := by
  have allTrades : addedTrades (inputs ++ [.prune now]) = addedTrades inputs := by
    rw [addedTrades, List.filterMap_append]
    exact List.append_nil _
  constructor
  · rw [prune_trades (windowed.inOrder rise), windowed.trades, windowAt_windowAt later,
      lastTime_concat, allTrades]
    rfl
  · rw [lastAddTime, allTrades]
    exact windowed.ticker

private theorem windowed_run (rise : TimesRise inputs)
    (ran : inputs.foldlM step (new symbol) = some aggregator) : aggregator.Windowed inputs := by
  induction inputs using List.reverseRecOn generalizing aggregator with
  | nil =>
      rw [List.foldlM_nil] at ran
      rw [← Option.some_inj.1 ran]
      exact windowed_new symbol
  | append_singleton before last inductionHypothesis =>
      obtain ⟨earlier, -, order⟩ := List.pairwise_append.1 rise
      rw [List.foldlM_append] at ran
      obtain ⟨middle, first, ran⟩ := Option.bind_eq_some_iff.1 ran
      rw [List.foldlM_cons] at ran
      obtain ⟨final, stepped, done⟩ := Option.bind_eq_some_iff.1 ran
      rw [List.foldlM_nil] at done
      rw [← Option.some_inj.1 done]
      have windowed := inductionHypothesis earlier first
      have later : lastTime before ≤ last.time := by
        cases newest : before.getLast? with
        | none => rw [lastTime, newest]; exact Nat.zero_le _
        | some input =>
            rw [lastTime, newest]
            exact order input (List.mem_of_getLast? newest) last List.mem_cons_self
      cases last with
      | addTrade trade => exact windowed.addTrade rise later stepped
      | prune now =>
          rw [← Option.some_inj.1 stepped]
          exact windowed.prune earlier later

/-- The fields are the aggregates of the window at the last call if and only if no trade has left
the window since the last `add_trade`. -/
theorem ticker_window_iff (rise : TimesRise inputs)
    (ran : inputs.foldlM step (new symbol) = some aggregator) :
    aggregator.currentTicker.Agrees (windowAt (lastTime inputs) (addedTrades inputs)) ↔
      ∀ trade ∈ addedTrades inputs, lastAddTime inputs - window24hUs ≤ trade.timestamp →
        lastTime inputs - window24hUs ≤ trade.timestamp := by
  have agrees := (windowed_run rise ran).ticker
  have order : lastAddTime inputs - window24hUs ≤ lastTime inputs - window24hUs :=
    Nat.sub_le_sub_right (lastAddTime_le rise) _
  constructor
  · intro current trade member inside
    have counts := current.tradeCount.symm.trans agrees.tradeCount
    have shorter : (windowAt (lastTime inputs) (addedTrades inputs)).Sublist
        (windowAt (lastAddTime inputs) (addedTrades inputs)) := by
      rw [← windowAt_windowAt (lastAddTime_le rise)]
      exact List.filter_sublist
    have same := shorter.eq_of_length counts
    have present : trade ∈ windowAt (lastTime inputs) (addedTrades inputs) := by
      rw [same]
      exact List.mem_filter.2 ⟨member, decide_eq_true inside⟩
    exact of_decide_eq_true (List.mem_filter.1 present).2
  · intro stays
    have same : windowAt (lastTime inputs) (addedTrades inputs) =
        windowAt (lastAddTime inputs) (addedTrades inputs) := by
      refine List.filter_congr fun trade member => decide_eq_decide.2 ⟨order.trans, ?_⟩
      exact stays trade member
    rw [same]
    exact agrees

end Runs

/-- A trade, and a prune after it has left the window. -/
def staleInputs : List TickerInput := [.addTrade (.unitAt 0), .prune (window24hUs + 1)]

theorem ticker_window_iff_stale :
    ∃ aggregator, staleInputs.foldlM step (new 1) = some aggregator ∧
      (aggregator.currentTicker.Agrees (windowAt (lastTime staleInputs) (addedTrades staleInputs)) ↔
        ∀ trade ∈ addedTrades staleInputs,
          lastAddTime staleInputs - window24hUs ≤ trade.timestamp →
          lastTime staleInputs - window24hUs ≤ trade.timestamp) := by
  obtain ⟨aggregator, ran⟩ := Option.isSome_iff_exists.1
    (by decide : (staleInputs.foldlM step (new 1)).isSome = true)
  have rise : TimesRise staleInputs :=
    List.pairwise_pair.2 (by decide : (0 : Nat) ≤ window24hUs + 1)
  exact ⟨aggregator, ran, ticker_window_iff rise ran⟩

/-- The window is empty, but the fields are still those of the trade. -/
theorem staleTicker_disagrees :
    ∃ aggregator, staleInputs.foldlM step (new 1) = some aggregator ∧
      TimesRise staleInputs ∧
      ¬ aggregator.currentTicker.Agrees
        (windowAt (lastTime staleInputs) (addedTrades staleInputs)) := by
  have counted : (staleInputs.foldlM step (new 1)).map (fun aggregator =>
      aggregator.currentTicker.tradeCount24h) = some 1 := by decide
  obtain ⟨aggregator, ran, one⟩ := Option.map_eq_some_iff.1 counted
  refine ⟨aggregator, ran, List.pairwise_pair.2 (by decide : (0 : Nat) ≤ window24hUs + 1), ?_⟩
  intro agrees
  rw [agrees.tradeCount] at one
  exact absurd one (by decide)

end TickerAggregator
end Exg
