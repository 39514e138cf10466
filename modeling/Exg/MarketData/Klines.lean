import Exg.MarketData.Trades
import Exg.Support.Blocks
import Exg.Support.Cutoffs
import Mathlib.Logic.Function.Basic

/-!
# Klines

For each interval the aggregator has one open kline.  A trade of another period closes it, be
that period later or earlier: a trade that comes late opens a second kline of its period.
-/

namespace Exg

open Support

inductive KlineInterval where
  | s1
  | m1
  | m5
  | m15
  | h1
  | h4
  | d1
  deriving DecidableEq, Repr

namespace KlineInterval

/-- All intervals, ordered from smallest to largest. -/
def all : List KlineInterval := [.s1, .m1, .m5, .m15, .h1, .h4, .d1]

/-- Duration in microseconds. -/
def durationUs : KlineInterval → Nat
  | .s1 => 1000000
  | .m1 => 60 * 1000000
  | .m5 => 5 * 60 * 1000000
  | .m15 => 15 * 60 * 1000000
  | .h1 => 3600 * 1000000
  | .h4 => 4 * 3600 * 1000000
  | .d1 => 86400 * 1000000

/-- Align a timestamp to the start of the interval period. -/
def alignTimestamp (interval : KlineInterval) (timestamp : UnixMicros) : UnixMicros :=
  timestamp / interval.durationUs * interval.durationUs

/-- The last microsecond of a period.  The sum is a `u64`. -/
def closeTime? (interval : KlineInterval) (openTime : UnixMicros) : Option UnixMicros :=
  if openTime + interval.durationUs < 2 ^ 64 then
    some (openTime + interval.durationUs - 1)
  else
    none

private theorem durationUs_pos (interval : KlineInterval) : 0 < interval.durationUs := by
  cases interval <;> decide

theorem mem_all (interval : KlineInterval) : interval ∈ all := by
  cases interval <;> decide

private theorem nodup_all : all.Nodup := by decide

/-- The start of a period, counted from the epoch. -/
def periodStart (interval : KlineInterval) (period : Nat) : UnixMicros :=
  period * interval.durationUs

/-- Whether a trade falls in a period. -/
def inPeriod (interval : KlineInterval) (period : Nat) (trade : MarketTrade) : Bool :=
  decide (interval.periodStart period ≤ trade.timestamp) &&
    decide (trade.timestamp < interval.periodStart (period + 1))

/-- The period that a trade falls in. -/
def periodOf (interval : KlineInterval) (trade : MarketTrade) : Nat :=
  trade.timestamp / interval.durationUs

private theorem inPeriod_iff (interval : KlineInterval) (period : Nat) (trade : MarketTrade) :
    interval.inPeriod period trade = true ↔ interval.periodOf trade = period := by
  have positive := interval.durationUs_pos
  rw [inPeriod, Bool.and_eq_true, decide_eq_true_eq, decide_eq_true_eq, periodStart, periodStart,
    periodOf, Nat.div_eq_iff positive, Nat.add_mul, Nat.one_mul]
  exact and_congr_right fun _ => Nat.lt_iff_le_pred (Nat.add_pos_right _ positive)

private theorem periodStart_inj {interval : KlineInterval} {period other : Nat} :
    interval.periodStart period = interval.periodStart other ↔ period = other :=
  Nat.mul_left_inj interval.durationUs_pos.ne'

end KlineInterval

structure Kline where
  symbol : SymbolId
  interval : KlineInterval
  openTime : UnixMicros
  closeTime : UnixMicros
  «open» : Decimal128
  high : Decimal128
  low : Decimal128
  close : Decimal128
  /-- Base asset volume. -/
  volume : Decimal128
  /-- Quote asset volume. -/
  quoteVolume : Decimal128
  tradeCount : Nat
  deriving DecidableEq, Repr

/-- Aggregates trades into klines for a single symbol. -/
structure KlineAggregator where
  symbol : SymbolId
  /-- Current open kline per interval. -/
  current : KlineInterval → Option Kline
  /-- Completed klines buffer (bounded FIFO). -/
  completed : List Kline
  maxCompleted : Nat

/-- Same period: update OHLCV. -/
def Kline.addTrade (kline : Kline) (trade : MarketTrade) (quoteVolume : Decimal128) :
    Option Kline := do
  let volume ← kline.volume.add? trade.qty
  let quoteVolume ← kline.quoteVolume.add? quoteVolume
  return { kline with
    high := max kline.high trade.price
    low := min kline.low trade.price
    close := trade.price
    volume := volume
    quoteVolume := quoteVolume
    tradeCount := kline.tradeCount + 1 }

namespace KlineAggregator

def new (symbol : SymbolId) (maxCompleted : Nat) : KlineAggregator where
  symbol := symbol
  current := fun _ => none
  completed := []
  maxCompleted := maxCompleted

/-- What a trade does to the kline of one interval: the new current one, and the one it
completes. -/
def rollInterval (symbol : SymbolId) (trade : MarketTrade) (quoteVolume : Decimal128)
    (interval : KlineInterval) (current : Option Kline) : Option (Kline × Option Kline) := do
  let openTime := interval.alignTimestamp trade.timestamp
  let closeTime ← interval.closeTime? openTime
  let started : Kline :=
    { symbol := symbol
      interval := interval
      openTime := openTime
      closeTime := closeTime
      «open» := trade.price
      high := trade.price
      low := trade.price
      close := trade.price
      volume := trade.qty
      quoteVolume := quoteVolume
      tradeCount := 1 }
  match current with
  | none => return (started, none)
  | some existing =>
      if existing.openTime = openTime then
        let updated ← existing.addTrade trade quoteVolume
        return (updated, none)
      else
        -- the period rolled over, forward or back
        return (started, some existing)

/-- One turn of the loop over the intervals. -/
def rollOne (symbol : SymbolId) (trade : MarketTrade) (quoteVolume : Decimal128)
    (state : (KlineInterval → Option Kline) × List Kline) (interval : KlineInterval) :
    Option ((KlineInterval → Option Kline) × List Kline) := do
  let rolled ← rollInterval symbol trade quoteVolume interval (state.1 interval)
  return (Function.update state.1 interval (some rolled.1), state.2 ++ rolled.2.toList)

/-- Put a completed kline into the buffer, dropping the oldest if it is full. -/
def pushCompleted (maxCompleted : Nat) (buffer : List Kline) (kline : Kline) : List Kline :=
  (if maxCompleted ≤ buffer.length then buffer.tail else buffer) ++ [kline]

/-- Process a trade.  Returns completed klines if any interval rolled over. -/
def addTrade (aggregator : KlineAggregator) (trade : MarketTrade) :
    Option (KlineAggregator × List Kline) := do
  let quoteVolume ← trade.price.mul? trade.qty
  let rolled ← KlineInterval.all.foldlM (rollOne aggregator.symbol trade quoteVolume)
    (aggregator.current, [])
  return ({ aggregator with
    current := rolled.1
    completed := rolled.2.foldl (pushCompleted aggregator.maxCompleted) aggregator.completed },
    rolled.2)

/-- The next of a sequence of calls, and the klines returned so far. -/
def addNext (state : KlineAggregator × List Kline) (trade : MarketTrade) :
    Option (KlineAggregator × List Kline) := do
  let next ← state.1.addTrade trade
  return (next.1, state.2 ++ next.2)

/-- A sequence of calls, with all klines they return. -/
def addTrades (aggregator : KlineAggregator) (trades : List MarketTrade) :
    Option (KlineAggregator × List Kline) :=
  trades.foldlM addNext (aggregator, [])

/-! ## The kline of some trades -/

/-- What the trades of a period say. -/
def klineRecord (symbol : SymbolId) (interval : KlineInterval) (period : Nat)
    (trades : List MarketTrade) : Kline where
  symbol := symbol
  interval := interval
  openTime := interval.periodStart period
  closeTime := interval.periodStart (period + 1) - 1
  «open» := firstPrice trades
  high := highestPrice trades
  low := lowestPrice trades
  close := lastPrice trades
  volume := totalVolume trades
  quoteVolume := totalQuote trades
  tradeCount := trades.length

/-- The kline of a period whose trades are given: there is none without trades. -/
def klineOf (symbol : SymbolId) (interval : KlineInterval) (period : Nat)
    (trades : List MarketTrade) : Option Kline :=
  if trades = [] then none else some (klineRecord symbol interval period trades)

section KlineOf

variable {symbol : SymbolId} {interval : KlineInterval} {period : Nat}
variable {trades : List MarketTrade} {trade : MarketTrade} {kline updated : Kline}

@[simp]
theorem klineOf_nil : klineOf symbol interval period [] = none := rfl

private theorem klineOf_of_ne_nil (nonempty : trades ≠ []) :
    klineOf symbol interval period trades = some (klineRecord symbol interval period trades) :=
  if_neg nonempty

private theorem klineOf_eq_none_iff :
    klineOf symbol interval period trades = none ↔ trades = [] := by
  rw [klineOf]
  split <;> simp_all

private theorem klineRecord_concat (nonempty : trades ≠ []) :
    klineRecord symbol interval period (trades ++ [trade]) =
      { klineRecord symbol interval period trades with
        high := max (highestPrice trades) trade.price
        low := min (lowestPrice trades) trade.price
        close := trade.price
        volume := totalVolume trades + trade.qty
        quoteVolume := totalQuote trades + trade.quote
        tradeCount := trades.length + 1 } := by
  simp only [klineRecord, firstPrice_concat trade nonempty, highestPrice_concat trade nonempty,
    lowestPrice_concat trade nonempty, lastPrice_concat, totalVolume_concat, totalQuote_concat,
    List.length_append, List.length_singleton]

private theorem addTrade_eq {quoteVolume : Decimal128}
    (added : kline.addTrade trade quoteVolume = some updated) :
    updated =
      { kline with
        high := max kline.high trade.price
        low := min kline.low trade.price
        close := trade.price
        volume := kline.volume + trade.qty
        quoteVolume := kline.quoteVolume + quoteVolume
        tradeCount := kline.tradeCount + 1 } := by
  obtain ⟨volume, summed, added⟩ := Option.bind_eq_some_iff.1 added
  obtain ⟨quoteSum, summedQuote, added⟩ := Option.bind_eq_some_iff.1 added
  obtain ⟨-, rfl⟩ := (Decimal128.computes_add _ _ _).1 summed
  obtain ⟨-, rfl⟩ := (Decimal128.computes_add _ _ _).1 summedQuote
  exact (Option.some_inj.1 added).symm

/-- A kline that takes one more trade is the kline of one more trade. -/
theorem klineOf_concat (built : klineOf symbol interval period trades = some kline)
    (added : kline.addTrade trade trade.quote = some updated) :
    klineOf symbol interval period (trades ++ [trade]) = some updated := by
  by_cases nonempty : trades = []
  · exact absurd built (by simp [nonempty])
  · rw [klineOf_of_ne_nil nonempty, Option.some_inj] at built
    subst built
    rw [klineOf_of_ne_nil (by simp), klineRecord_concat nonempty, addTrade_eq added]
    rfl

end KlineOf

/-! ## One turn of the loop -/

section Roll

variable {symbol : SymbolId} {trade : MarketTrade} {interval tested : KlineInterval}
variable {current old : Option Kline} {kline : Kline} {period : Nat} {earlier : List MarketTrade}

/-- The trade joins the kline of its period if that one is open.  If not, it starts one, and what
was open is completed. -/
theorem rollInterval_cases
    (rolled : rollInterval symbol trade trade.quote interval current = some (kline, old)) :
    (∃ existing, current = some existing ∧
      existing.openTime = interval.periodStart (interval.periodOf trade) ∧
      existing.addTrade trade trade.quote = some kline ∧ old = none) ∨
    ((∀ existing, current = some existing →
        existing.openTime ≠ interval.periodStart (interval.periodOf trade)) ∧
      kline = klineRecord symbol interval (interval.periodOf trade) [trade] ∧ old = current) := by
  obtain ⟨closeTime, closes, rolled⟩ := Option.bind_eq_some_iff.1 rolled
  have closeTime_eq : closeTime = interval.periodStart (interval.periodOf trade + 1) - 1 := by
    rw [KlineInterval.closeTime?] at closes
    split at closes
    · rw [← Option.some_inj.1 closes, KlineInterval.periodStart, Nat.add_mul, Nat.one_mul]
      rfl
    · exact absurd closes (by simp)
  have started : klineRecord symbol interval (interval.periodOf trade) [trade] =
      { symbol := symbol
        interval := interval
        openTime := interval.alignTimestamp trade.timestamp
        closeTime := closeTime
        «open» := trade.price
        high := trade.price
        low := trade.price
        close := trade.price
        volume := trade.qty
        quoteVolume := trade.quote
        tradeCount := 1 } := by
    rw [klineRecord, closeTime_eq]
    simp [firstPrice, lastPrice, highestPrice, lowestPrice, totalVolume, totalQuote,
      KlineInterval.periodOf, KlineInterval.periodStart, KlineInterval.alignTimestamp]
  rw [started]
  cases current with
  | none =>
      simp only [pure, Option.some.injEq, Prod.mk.injEq] at rolled
      exact Or.inr ⟨by simp, rolled.1.symm, rolled.2.symm⟩
  | some existing =>
      simp only [] at rolled
      split at rolled
      case isTrue same =>
        obtain ⟨updated, added, done⟩ := Option.bind_eq_some_iff.1 rolled
        simp only [pure, Option.some.injEq, Prod.mk.injEq] at done
        exact Or.inl ⟨existing, rfl, same, done.1 ▸ added, done.2.symm⟩
      case isFalse other =>
        simp only [pure, Option.some.injEq, Prod.mk.injEq] at rolled
        refine Or.inr ⟨?_, rolled.1.symm, rolled.2.symm⟩
        intro tested same
        rw [← Option.some_inj.1 same]
        exact other

/-- Whether a kline is one of an interval and a period. -/
def isOf (interval : KlineInterval) (period : Nat) (kline : Kline) : Bool :=
  decide (kline.interval = interval) && decide (kline.openTime = interval.periodStart period)

private theorem isOf_iff :
    isOf interval period kline = true ↔
      kline.interval = interval ∧ kline.openTime = interval.periodStart period := by
  rw [isOf, Bool.and_eq_true, decide_eq_true_eq, decide_eq_true_eq]

/-- The kline that a trade leaves open is one of the trade's period. -/
theorem rollInterval_isOf
    (rolled : rollInterval symbol trade trade.quote interval current = some (kline, old))
    (own : ∀ existing, current = some existing → existing.interval = interval) :
    isOf interval (interval.periodOf trade) kline = true := by
  rw [isOf_iff]
  rcases rollInterval_cases rolled with ⟨existing, present, same, added, -⟩ | ⟨-, rfl, -⟩
  · rw [addTrade_eq added]
    exact ⟨own existing present, same⟩
  · exact ⟨rfl, rfl⟩

/-- A trade of the period: its block grows by the trade, and no kline of the period is completed. -/
theorem rollInterval_inside
    (rolled : rollInterval symbol trade trade.quote interval current = some (kline, old))
    (own : ∀ existing, current = some existing → existing.interval = interval)
    (isOpen : current.filter (isOf interval (interval.periodOf trade)) =
      klineOf symbol interval (interval.periodOf trade) earlier) :
    klineOf symbol interval (interval.periodOf trade) (earlier ++ [trade]) = some kline ∧
      old.filter (isOf interval (interval.periodOf trade)) = none := by
  rcases rollInterval_cases rolled with ⟨existing, rfl, same, added, rfl⟩ | ⟨other, rfl, rfl⟩
  · have found : isOf interval (interval.periodOf trade) existing = true :=
      isOf_iff.2 ⟨own existing rfl, same⟩
    rw [Option.filter_some, if_pos found] at isOpen
    exact ⟨klineOf_concat isOpen.symm added, rfl⟩
  · have absent : old.filter (isOf interval (interval.periodOf trade)) = none := by
      rw [Option.filter_eq_none_iff]
      intro existing present found
      exact other existing present (isOf_iff.1 found).2
    rw [absent, eq_comm, klineOf_eq_none_iff] at isOpen
    subst isOpen
    exact ⟨klineOf_of_ne_nil (List.cons_ne_nil trade []), absent⟩

/-- A trade of another period: what was open for the period is completed. -/
theorem rollInterval_outside
    (rolled : rollInterval symbol trade trade.quote interval current = some (kline, old))
    (own : ∀ existing, current = some existing → existing.interval = interval)
    (outside : interval.periodOf trade ≠ period) :
    (some kline).filter (isOf interval period) = none ∧
      old.filter (isOf interval period) = current.filter (isOf interval period) := by
  have now := isOf_iff.1 (rollInterval_isOf rolled own)
  constructor
  · rw [Option.filter_eq_none_iff]
    rintro tested same found
    rw [← Option.some_inj.1 same, isOf_iff, now.2, KlineInterval.periodStart_inj] at found
    exact outside found.2
  · rcases rollInterval_cases rolled with ⟨existing, rfl, same, added, rfl⟩ | ⟨-, -, rfl⟩
    · rw [Option.filter_none, eq_comm, Option.filter_eq_none_iff]
      rintro tested present found
      rw [← Option.some_inj.1 present, isOf_iff, same, KlineInterval.periodStart_inj] at found
      exact outside found.2
    · rfl

/-- The klines of one interval and period: those completed come from the blocks that have ended,
and the open one from the open block. -/
structure Records (symbol : SymbolId) (interval : KlineInterval) (period : Nat)
    (current : Option Kline) (completed : List Kline) (blocks : Blocks MarketTrade) : Prop where
  own : ∀ existing, current = some existing → existing.interval = interval
  isOpen : current.filter (isOf interval period) = klineOf symbol interval period blocks.last
  ended : completed.filter (isOf interval period) =
    blocks.ended.filterMap (klineOf symbol interval period)

private theorem Records.roll {completed : List Kline} {blocks : Blocks MarketTrade}
    (records : Records symbol interval period current completed blocks)
    (rolled : rollInterval symbol trade trade.quote interval current = some (kline, old)) :
    Records symbol interval period (some kline) (completed ++ old.toList)
      (blocks.push (interval.inPeriod period) trade) := by
  have now := rollInterval_isOf rolled records.own
  have own : ∀ existing, some kline = some existing → existing.interval = interval := by
    intro existing same
    rw [← Option.some_inj.1 same]
    exact (isOf_iff.1 now).1
  by_cases inside : interval.periodOf trade = period
  · subst inside
    obtain ⟨grown, kept⟩ := rollInterval_inside rolled records.own records.isOpen
    rw [Blocks.push_found ((interval.inPeriod_iff _ trade).2 rfl)]
    refine ⟨own, ?_, ?_⟩
    · rw [Option.filter_some, if_pos now, grown]
    · rw [List.filter_append, ← Option.toList_filter, kept, records.ended, Option.toList_none,
        List.append_nil]
  · obtain ⟨gone, closed⟩ := rollInterval_outside rolled records.own inside
    rw [records.isOpen] at closed
    have fails : interval.inPeriod period trade = false :=
      Bool.eq_false_iff.2 (mt (interval.inPeriod_iff period trade).1 inside)
    by_cases nothing : blocks.last = []
    · rw [Blocks.push_other_closed fails nothing]
      rw [nothing, klineOf_nil] at closed
      refine ⟨own, ?_, ?_⟩
      · rw [gone, nothing, klineOf_nil]
      · rw [List.filter_append, ← Option.toList_filter, closed, records.ended, Option.toList_none,
          List.append_nil]
    · rw [Blocks.push_other_open fails nothing]
      refine ⟨own, gone, ?_⟩
      rw [List.filter_append, ← Option.toList_filter, closed, records.ended, List.filterMap_append,
        klineOf_of_ne_nil nothing]
      simp [klineOf_of_ne_nil nothing]

/-- A kline that another interval completes changes nothing. -/
theorem Records.other {completed : List Kline} {blocks : Blocks MarketTrade}
    (records : Records symbol interval period current completed blocks)
    (apart : ∀ kline, old = some kline → kline.interval ≠ interval) :
    Records symbol interval period current (completed ++ old.toList) blocks := by
  refine ⟨records.own, records.isOpen, ?_⟩
  have none : old.filter (isOf interval period) = none := by
    rw [Option.filter_eq_none_iff]
    exact fun kline present found => apart kline present (isOf_iff.1 found).1
  rw [List.filter_append, ← Option.toList_filter, none, records.ended, Option.toList_none,
    List.append_nil]

end Roll

section Run

variable {symbol : SymbolId} {trade : MarketTrade} {period : Nat}

/-- Each interval's kline is one of that interval. -/
def OwnKlines (current : KlineInterval → Option Kline) : Prop :=
  ∀ interval kline, current interval = some kline → kline.interval = interval

private theorem OwnKlines.rollOne {current : KlineInterval → Option Kline} (own : OwnKlines current)
    {interval : KlineInterval} {kline : Kline} {old : Option Kline}
    (rolled : rollInterval symbol trade trade.quote interval (current interval) =
      some (kline, old)) :
    OwnKlines (Function.update current interval (some kline)) := by
  intro tested stored present
  by_cases same : tested = interval
  · subst same
    rw [Function.update_self, Option.some_inj] at present
    rw [← present]
    exact (isOf_iff.1 (rollInterval_isOf rolled (own tested))).1
  · rw [Function.update_of_ne same] at present
    exact own tested stored present

private theorem rollInterval_old {interval : KlineInterval} {current : Option Kline} {kline : Kline}
    {old : Option Kline}
    (rolled : rollInterval symbol trade trade.quote interval current = some (kline, old))
    (own : ∀ existing, current = some existing → existing.interval = interval) :
    ∀ closed, old = some closed → closed.interval = interval := by
  rcases rollInterval_cases rolled with ⟨-, -, -, -, rfl⟩ | ⟨-, -, rfl⟩
  · exact fun closed impossible => absurd impossible (by simp)
  · exact own

/-- The loop treats each interval once: for every period of it the trade is pushed on its blocks. -/
theorem rollEach {intervals : List KlineInterval} (nodup : intervals.Nodup)
    {current next : KlineInterval → Option Kline} {completed done : List Kline}
    (period : Nat) (before : List Kline) (own : OwnKlines current)
    (rolled : intervals.foldlM (rollOne symbol trade trade.quote) (current, completed) =
      some (next, done)) :
    OwnKlines next ∧
      ∀ interval blocks,
        Records symbol interval period (current interval) (before ++ completed) blocks →
        Records symbol interval period (next interval) (before ++ done)
          (if interval ∈ intervals then blocks.push (interval.inPeriod period) trade
            else blocks) := by
  induction intervals generalizing current completed with
  | nil =>
      simp only [List.foldlM_nil, pure, Option.some.injEq, Prod.mk.injEq] at rolled
      obtain ⟨rfl, rfl⟩ := rolled
      exact ⟨own, fun interval blocks records => by simpa using records⟩
  | cons head rest inductionHypothesis =>
      obtain ⟨fresh, nodupRest⟩ := List.nodup_cons.1 nodup
      rw [List.foldlM_cons] at rolled
      obtain ⟨state, first, others⟩ := Option.bind_eq_some_iff.1 rolled
      obtain ⟨⟨kline, old⟩, turned, stored⟩ := Option.bind_eq_some_iff.1 first
      rw [← Option.some_inj.1 stored] at others
      obtain ⟨ownNext, recordsNext⟩ := inductionHypothesis nodupRest (own.rollOne turned) others
      refine ⟨ownNext, fun interval blocks records => ?_⟩
      by_cases same : interval = head
      · subst same
        have now := recordsNext interval (blocks.push (interval.inPeriod period) trade) (by
          rw [Function.update_self, ← List.append_assoc]
          exact records.roll turned)
        rw [if_neg fresh] at now
        simpa only [List.mem_cons_self, if_true] using now
      · have now := recordsNext interval blocks (by
          rw [Function.update_of_ne same, ← List.append_assoc]
          refine records.other fun closed present => ?_
          rw [rollInterval_old turned (own head) closed present]
          exact Ne.symm same)
        simpa only [List.mem_cons, same, false_or] using now

private theorem addTrade_records {aggregator next : KlineAggregator} {done : List Kline}
    (period : Nat) (before : List Kline) (own : OwnKlines aggregator.current)
    (added : aggregator.addTrade trade = some (next, done)) :
    OwnKlines next.current ∧ next.symbol = aggregator.symbol ∧
      ∀ interval blocks,
        Records aggregator.symbol interval period (aggregator.current interval) before blocks →
        Records aggregator.symbol interval period (next.current interval) (before ++ done)
          (blocks.push (interval.inPeriod period) trade) := by
  obtain ⟨quoteVolume, product, added⟩ := Option.bind_eq_some_iff.1 added
  obtain ⟨-, rfl⟩ := (trade.computes_quote _).1 product
  obtain ⟨rolled, looped, added⟩ := Option.bind_eq_some_iff.1 added
  simp only [pure, Option.some.injEq, Prod.mk.injEq] at added
  obtain ⟨rfl, rfl⟩ := added
  obtain ⟨ownNext, recordsNext⟩ := rollEach KlineInterval.nodup_all period before own looped
  refine ⟨ownNext, rfl, fun interval blocks records => ?_⟩
  have now := recordsNext interval blocks (by rwa [List.append_nil])
  rwa [if_pos interval.mem_all] at now

/-- After a sequence of trades the klines of each interval and period come from the blocks of the
trades that fall in the period. -/
theorem addTrades_records (symbol : SymbolId) (maxCompleted : Nat) (trades : List MarketTrade)
    {aggregator : KlineAggregator} {returned : List Kline}
    (added : (new symbol maxCompleted).addTrades trades = some (aggregator, returned))
    (interval : KlineInterval) (period : Nat) :
    Records symbol interval period (aggregator.current interval) returned
      (blocksOf (interval.inPeriod period) trades) := by
  suffices whole : OwnKlines aggregator.current ∧ aggregator.symbol = symbol ∧
      Records symbol interval period (aggregator.current interval) returned
        (blocksOf (interval.inPeriod period) trades) from whole.2.2
  induction trades using List.reverseRecOn generalizing aggregator returned with
  | nil =>
      simp only [addTrades, List.foldlM_nil, pure, Option.some.injEq, Prod.mk.injEq] at added
      obtain ⟨rfl, rfl⟩ := added
      exact ⟨fun _ _ impossible => absurd impossible (by simp [new]), rfl,
        fun _ impossible => absurd impossible (by simp [new]), rfl, rfl⟩
  | append_singleton before last inductionHypothesis =>
      rw [addTrades, List.foldlM_append] at added
      obtain ⟨⟨earlier, sofar⟩, first, added⟩ := Option.bind_eq_some_iff.1 added
      obtain ⟨own, sameSymbol, records⟩ := inductionHypothesis first
      rw [List.foldlM_cons] at added
      obtain ⟨state, stepped, finished⟩ := Option.bind_eq_some_iff.1 added
      obtain ⟨⟨next, done⟩, addedLast, stepped⟩ := Option.bind_eq_some_iff.1 stepped
      rw [← Option.some_inj.1 stepped, List.foldlM_nil] at finished
      simp only [pure, Option.some.injEq, Prod.mk.injEq] at finished
      obtain ⟨rfl, rfl⟩ := finished
      obtain ⟨ownNext, symbolNext, recordsNext⟩ :=
        addTrade_records period sofar own addedLast
      rw [sameSymbol] at recordsNext symbolNext
      rw [blocksOf_concat]
      exact ⟨ownNext, symbolNext, recordsNext interval _ records⟩

end Run

/-! ## Each trade counted once -/

/-- The klines of an interval that were returned as completed, and the current one. -/
def klinesOf (aggregator : KlineAggregator) (returned : List Kline) (interval : KlineInterval) :
    List Kline :=
  returned ++ (aggregator.current interval).toList

/-- The klines of a period are one kline of the trades that fall in it: none without trades. -/
def CountsOnce (symbol : SymbolId) (klines : List Kline) (trades : List MarketTrade)
    (interval : KlineInterval) (period : Nat) : Prop :=
  klines.filter (isOf interval period) =
    (klineOf symbol interval period (trades.filter (interval.inPeriod period))).toList

section Counted

variable {symbol : SymbolId} {maxCompleted : Nat} {trades : List MarketTrade}
variable {aggregator : KlineAggregator} {returned : List Kline}

/-- The klines of a period are those of its blocks. -/
theorem klinesOf_eq
    (added : (new symbol maxCompleted).addTrades trades = some (aggregator, returned))
    (interval : KlineInterval) (period : Nat) :
    (aggregator.klinesOf returned interval).filter (isOf interval period) =
      (blocksOf (interval.inPeriod period) trades).all.filterMap
        (klineOf symbol interval period) := by
  have records := addTrades_records symbol maxCompleted trades added interval period
  rw [klinesOf, List.filter_append, records.ended, ← Option.toList_filter, records.isOpen]
  by_cases closed : (blocksOf (interval.inPeriod period) trades).last = []
  · rw [Blocks.all_of_closed closed, closed, klineOf_nil, Option.toList_none, List.append_nil]
  · rw [Blocks.all_of_open closed, List.filterMap_append, klineOf_of_ne_nil closed]
    simp [klineOf_of_ne_nil closed]

private theorem length_filterMap_klineOf (symbol : SymbolId) (interval : KlineInterval)
    (period : Nat) {blocks : List (List MarketTrade)} (nonempty : ∀ block ∈ blocks, block ≠ []) :
    (blocks.filterMap (klineOf symbol interval period)).length = blocks.length := by
  induction blocks with
  | nil => rfl
  | cons block rest inductionHypothesis =>
      have first : klineOf symbol interval period block = some _ :=
        klineOf_of_ne_nil (nonempty block List.mem_cons_self)
      rw [List.filterMap_cons_some first, List.length_cons, List.length_cons,
        inductionHypothesis fun other member => nonempty other (List.mem_cons_of_mem block member)]

/-- A period is counted once if and only if its trades are neighbours in the sequence of calls:
no trade of another period comes between two of them. -/
theorem countsOnce_iff
    (added : (new symbol maxCompleted).addTrades trades = some (aggregator, returned))
    (interval : KlineInterval) (period : Nat) :
    CountsOnce symbol (aggregator.klinesOf returned interval) trades interval period ↔
      trades.filter (interval.inPeriod period) <:+: trades := by
  have nonempty : ∀ block ∈ (blocksOf (interval.inPeriod period) trades).all, block ≠ [] :=
    fun block member => block_ne_nil member
  rw [← length_blocksOf_le_one_iff, CountsOnce, klinesOf_eq added, ← flatten_blocksOf]
  generalize (blocksOf (interval.inPeriod period) trades).all = blocks at nonempty
  constructor
  · intro once
    rw [← length_filterMap_klineOf symbol interval period nonempty, once]
    cases klineOf symbol interval period blocks.flatten <;> simp
  · intro few
    match blocks with
    | [] => rfl
    | [block] =>
        rw [List.flatten_singleton]
        cases built : klineOf symbol interval period block <;> simp [built]
    | first :: second :: rest => exact absurd few (by simp)

end Counted

/-! ## Trades in order -/

private theorem filter_infix_of_sorted {trades : List MarketTrade}
    (sorted : trades.Pairwise fun earlier later => earlier.timestamp ≤ later.timestamp)
    (interval : KlineInterval) (period : Nat) :
    trades.filter (interval.inPeriod period) <:+: trades := by
  have notBefore : trades.dropWhile (fun trade =>
      decide (trade.timestamp < interval.periodStart period)) =
      trades.filter fun trade => !decide (trade.timestamp < interval.periodStart period) := by
    refine dropWhile_eq_filter_of_pairwise (fun earlier later order passes => ?_) sorted
    exact decide_eq_true (order.trans_lt (of_decide_eq_true passes))
  have inside : (trades.dropWhile fun trade =>
      decide (trade.timestamp < interval.periodStart period)).takeWhile
        (fun trade => decide (trade.timestamp < interval.periodStart (period + 1))) =
      trades.filter (interval.inPeriod period) := by
    rw [takeWhile_eq_filter_of_pairwise (fun earlier later order passes => ?_)
      (sorted.sublist (List.dropWhile_sublist _)), notBefore, List.filter_filter]
    · refine List.filter_congr fun trade _ => ?_
      simp only [KlineInterval.inPeriod, Bool.and_comm, ← decide_not, Nat.not_lt]
    · exact decide_eq_true (order.trans_lt (of_decide_eq_true passes))
  rw [← inside]
  exact (List.takeWhile_prefix _).isInfix.trans (List.dropWhile_suffix _).isInfix

/-- A period is counted once if and only if its trades are neighbours in the sequence of calls.
So trades that come in the order of their timestamps are counted once in every period. -/
theorem klines_count_once_iff {symbol : SymbolId} {maxCompleted : Nat} {trades : List MarketTrade}
    {aggregator : KlineAggregator} {returned : List Kline}
    (added : (new symbol maxCompleted).addTrades trades = some (aggregator, returned)) :
    (∀ interval period,
      CountsOnce symbol (aggregator.klinesOf returned interval) trades interval period ↔
        trades.filter (interval.inPeriod period) <:+: trades) ∧
    ((trades.Pairwise fun earlier later => earlier.timestamp ≤ later.timestamp) →
      ∀ interval period,
        CountsOnce symbol (aggregator.klinesOf returned interval) trades interval period) :=
  ⟨fun interval period => countsOnce_iff added interval period, fun sorted interval period =>
    (countsOnce_iff added interval period).2 (filter_infix_of_sorted sorted interval period)⟩

/-- A trade of the first second comes after one of the next second. -/
def lateTrades : List MarketTrade := [.unitAt 0, .unitAt 1000000, .unitAt 500000]

theorem klines_count_once_iff_late :
    ∃ state, (new 1 10).addTrades lateTrades = some state ∧
      (CountsOnce 1 (state.1.klinesOf state.2 .m1) lateTrades .m1 0 ↔
        lateTrades.filter (KlineInterval.m1.inPeriod 0) <:+: lateTrades) := by
  obtain ⟨state, added⟩ := Option.isSome_iff_exists.1
    (by decide : ((new 1 10).addTrades lateTrades).isSome = true)
  exact ⟨state, added, (klines_count_once_iff added).1 .m1 0⟩

/-- The late trade opens the first second again: it has two klines. -/
theorem lateTrades_countedTwice :
    ∃ state, (new 1 10).addTrades lateTrades = some state ∧
      ¬ CountsOnce 1 (state.1.klinesOf state.2 .s1) lateTrades .s1 0 := by
  have klines : ((new 1 10).addTrades lateTrades).map (fun state =>
      ((state.1.klinesOf state.2 .s1).filter (isOf .s1 0)).length) = some 2 := by decide
  obtain ⟨state, added, two⟩ := Option.map_eq_some_iff.1 klines
  refine ⟨state, added, fun once => ?_⟩
  rw [once] at two
  exact absurd two (by decide)

end KlineAggregator
end Exg
