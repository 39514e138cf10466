import Exg.Matching.ReplayEquivalence
import Exg.Matching.ReplayTotal

/-!
# When the log of a run replays

A replayed taker has its final quantity after its first leg, so a later leg that is larger
than what the taker ends with does not fit.  `Replayable` leaves such steps out, and those
that accept a resting order once more; the log of every other run replays.
-/

namespace Exg

open Support

namespace MatchingEngine

variable {book : OrderBook} {taker : BookOrder} {rebuilt : Decimal128}

/-- The first leg is within what replay has rebuilt of the order. -/
def FirstLegFits (book : OrderBook) (taker : BookOrder) (rebuilt : Decimal128) : Prop :=
  ∀ maker ∈ (crossing taker.side.opposite book taker).head?,
    min taker.remainingQty (book.remaining maker) ≤ rebuilt

/-- If something of the order is left, the later legs are within that. -/
def LaterLegsFit (book : OrderBook) (taker : BookOrder) : Prop :=
  crossingQty book taker < taker.remainingQty →
    ∀ maker ∈ (crossing taker.side.opposite book taker).tail,
      book.remaining maker ≤ taker.remainingQty - crossingQty book taker

instance : Decidable (FirstLegFits book taker rebuilt) :=
  inferInstanceAs (Decidable (∀ maker ∈ (crossing taker.side.opposite book taker).head?, _))

instance : Decidable (LaterLegsFit book taker) :=
  inferInstanceAs (Decidable (_ < _ →
    ∀ maker ∈ (crossing taker.side.opposite book taker).tail, _))

/-- The log of a new order that is matched can be replayed. -/
structure OrderFits (book : OrderBook) (taker : BookOrder) (rebuilt : Decimal128) : Prop where
  /-- An order that is filled in full is not refilled from what it hides. -/
  hidesNothing : ¬LeftOpen book taker → taker.hiddenQty = 0
  legs : Trades book taker → FirstLegFits book taker rebuilt ∧ LaterLegsFit book taker
  whole : ¬Trades book taker → Rests taker → taker.remainingQty ≤ rebuilt

/-- Along the pass over the triggered orders, the later legs of each one fit. -/
def TriggersFit (timestamp : UnixMicros) : MatchingEngine → List BookOrder → Prop
  | _, [] => True
  | engine, order :: rest =>
      (Trades engine.orderbook (convertTriggered order) →
        (convertTriggered order).orderType.isLimit = true →
          LaterLegsFit engine.orderbook (convertTriggered order)) ∧
        TriggersFit timestamp (engine.triggerOne order timestamp).1 rest

/-- The records of the step can be replayed. -/
def Replayable (engine : MatchingEngine) : EngineInput → Prop
  | .command (.newOrder order) =>
      (icebergAccepted engine.symbolConfig order = true → ShowsPart order) ∧
      (0 < order.quantity → icebergAccepted engine.symbolConfig order = true →
        ∀ price, effectivePrice order = some price →
          let taker := newBookOrder engine.markPrice order price
          let rebuilt := order.visibleQuantity.getD order.quantity
          (order.orderType.isConditional = true → order.quantity ≤ rebuilt) ∧
            (order.orderType.isConditional = false → ¬Refused engine.orderbook taker →
              OrderFits engine.orderbook taker rebuilt))
  | .command (.amendOrder amend) =>
      ∀ old, engine.orderbook.getOrder amend.orderId = some old → old.userId = amend.userId →
        (losesPriority old amend = false → ∃ quantity ≤ 0, amend.newQuantity = some quantity) ∧
          (losesPriority old amend = true → ¬AmendInvalid old amend →
            let removed := engine.orderbook.removeOrder amend.orderId
            let amended := amendedOrder old amend
            let rebuilt := old.visibleQty.getD amended.originalQty
            ¬Refused removed amended →
              (Trades removed amended →
                FirstLegFits removed amended rebuilt ∧ LaterLegsFit removed amended) ∧
              (¬Trades removed amended → amended.remainingQty ≤ rebuilt))
  | .command (.updateMarkPrice _ mark index timestamp) =>
      let counted := { engine with sequence := engine.sequence + 1 }
      let passive := counted.applyMarkIndexPassive mark index
      let scanned := swapScan (shouldTrigger mark) passive.stopOrders
      TriggersFit timestamp { passive with stopOrders := scanned.2 } scanned.1
  | .command (.cancelOrder ..) => True
  | .command (.cancelAllOrders ..) => True
  | .command (.computeFunding ..) => True
  | .command (.adminCredit ..) => True
  | .expirySweep _ => True

theorem Replayable.acceptsShown {engine : MatchingEngine} {input : EngineInput}
    (replayable : engine.Replayable input) : engine.AcceptsShown input := by
  cases input with
  | expirySweep now => trivial
  | command issued =>
      cases issued with
      | newOrder order => exact replayable.1
      | _ => trivial

/-! ## The legs of a match -/

section Match

variable {shares : List (OrderId × Decimal128)} {share : OrderId × Decimal128}

private theorem greedyShares_of_shares (drawn : matchShares book taker = share :: shares) :
    greedyShares book taker = share :: shares := by
  rw [matchShares] at drawn
  split at drawn
  · cases drawn
  · exact drawn

private theorem firstShare_fits (wanted : taker.remainingQty ≠ 0)
    (drawn : matchShares book taker = share :: shares) (fits : FirstLegFits book taker rebuilt) :
    share.2 ≤ rebuilt := by
  have greedy := greedyShares_of_shares drawn
  rw [FirstLegFits] at fits
  rw [greedyShares] at greedy
  cases makers : crossing taker.side.opposite book taker with
  | nil =>
      rw [makers, allocate_nil] at greedy
      cases greedy
  | cons maker others =>
      rw [makers, allocate_cons wanted] at greedy
      rw [makers] at fits
      obtain ⟨rfl, -⟩ := List.cons.inj greedy
      exact fits maker rfl

private theorem laterShares_fit (wellFormed : book.WellFormed) (positive : AllPositive book)
    (incoming : 0 < taker.remainingQty) (drawn : matchShares book taker = share :: shares)
    (fits : LaterLegsFit book taker) (left : (matchOrder book taker).taker.remainingQty ≠ 0) :
    ∀ later ∈ shares, later.2 ≤ (matchOrder book taker).taker.remainingQty := by
  have greedy := greedyShares_of_shares drawn
  have total := allocated_greedyShares wellFormed positive incoming.le
  rw [matchOrder_taker wellFormed, BookOrder.withRemaining_remainingQty, drawn, ← greedy,
    total] at left ⊢
  have short : crossingQty book taker < taker.remainingQty := by
    by_contra enough
    rw [min_eq_left (not_lt.1 enough), sub_self] at left
    exact left rfl
  rw [greedyShares_of_leftOpen wellFormed positive incoming.le short] at greedy
  rw [min_eq_right short.le]
  intro later member
  have inTail : later ∈ ((crossing taker.side.opposite book taker).map fun makerId =>
      (makerId, book.remaining makerId)).tail := by
    rwa [greedy]
  rw [← List.map_tail] at inTail
  obtain ⟨maker, makerMember, rfl⟩ := List.mem_map.1 inTail
  exact fits short maker makerMember

variable {replayed : MatchingEngine} {stops : List BookOrder} {used : List OrderId}

private theorem bounded_matchShares (wellFormed : book.WellFormed) (positive : AllPositive book)
    (incoming : 0 < taker.remainingQty)
    (apart : ∀ stop ∈ stops, book.getOrder stop.orderId = none ∧ stop.orderId ≠ taker.orderId) :
    Bounded book stops taker.orderId (matchShares book taker) where
  shares := fun _ member => (matchShares_bounds wellFormed positive incoming.le member).2
  stops := apart

/-- The match of an order that its acceptance has put on the replayed book. -/
theorem acceptedMatch_succeeds (engine : MatchingEngine) (symbol : SymbolId)
    (timestamp : UnixMicros) (covers : Covers book stops used replayed)
    (wellFormed : book.WellFormed) (positive : AllPositive book)
    (incoming : 0 < taker.remainingQty) (missing : book.getOrder taker.orderId = none)
    (apart : ∀ stop ∈ stops, book.getOrder stop.orderId = none ∧ stop.orderId ≠ taker.orderId)
    (kept : replayed.Exactly taker.orderId rebuilt)
    (seen : taker.orderId ∈ replayed.replaySeenOrderIds)
    (fits : Trades book taker → FirstLegFits book taker rebuilt ∧ LaterLegsFit book taker) :
    let result := matchOrder book taker
    ∃ final, follow applyEvent replayed (engine.absorb result symbol timestamp).2 = .ok final ∧
      Covers result.book stops used final ∧
      (result.taker.remainingQty ≠ 0 → ∃ held, final.Exactly taker.orderId held ∧
        (held = result.taker.remainingQty ∨ (¬Trades book taker ∧ held = rebuilt))) := by
  intro result
  have drawn := drawn_matchShares wellFormed missing
  have bounded := bounded_matchShares wellFormed positive incoming apart
  have tradesIff := matchShares_ne_nil_iff wellFormed incoming.ne'
  simp only [result, absorb, matchOrder_fills wellFormed]
  cases shares : matchShares book taker with
  | nil =>
      refine ⟨replayed, rfl, ?_, fun _ => ⟨rebuilt, kept, Or.inr ⟨?_, rfl⟩⟩⟩
      · rw [matchOrder_book wellFormed, shares]
        exact covers
      · rw [← tradesIff, shares]
        simp
  | cons share rest =>
      have trades : Trades book taker := by
        rw [← tradesIff, shares]
        simp
      obtain ⟨first, later⟩ := fits trades
      rw [shares] at drawn bounded
      obtain ⟨final, followed, coversFinal, settled⟩ :=
        acceptedSweep_succeeds covers drawn bounded drawn.stored kept seen
          (firstShare_fits incoming.ne' shares first)
          (laterShares_fit wellFormed positive incoming shares later)
      refine ⟨final, followed, ?_, fun left => ?_⟩
      · rw [matchOrder_book wellFormed, shares]
        exact coversFinal
      · rcases settled with ⟨-, -, exactly⟩ | ⟨dropped, -⟩
        · exact ⟨_, exactly, Or.inl rfl⟩
        · exact absurd left dropped

/-- The acceptance of an order and its match. -/
theorem acceptance_succeeds (engine : MatchingEngine) (symbol : SymbolId)
    (timestamp : UnixMicros) (accepted : OrderAccepted) (covers : Covers book stops used replayed)
    (wellFormed : book.WellFormed) (positive : AllPositive book)
    (keyed : accepted.orderId = taker.orderId) (gone : Gone replayed taker.orderId)
    (known : taker.orderId ∈ used) (unconditional : accepted.orderType.isConditional = false)
    (incoming : 0 < taker.remainingQty) (missing : book.getOrder taker.orderId = none)
    (apart : ∀ stop ∈ stops, book.getOrder stop.orderId = none ∧ stop.orderId ≠ taker.orderId)
    (rebuilds : accepted.visibleQuantity.getD accepted.quantity = rebuilt)
    (fits : Trades book taker → FirstLegFits book taker rebuilt ∧ LaterLegsFit book taker) :
    let result := matchOrder book taker
    ∃ final, follow applyEvent replayed
        (.orderAccepted accepted :: (engine.absorb result symbol timestamp).2) = .ok final ∧
      Covers result.book stops used final ∧
      (result.taker.remainingQty ≠ 0 → ∃ held, final.Exactly taker.orderId held ∧
        (held = result.taker.remainingQty ∨ (¬Trades book taker ∧ held = rebuilt))) := by
  intro result
  rw [← keyed] at gone known
  obtain ⟨placed, accepting, tidy, onlyAt, kept, seen⟩ :=
    accepted_succeeds covers.toTidy gone known unconditional
  rw [keyed] at onlyAt kept seen
  rw [rebuilds] at kept
  have coversPlaced : Covers book stops used placed := by
    refine covers.of_onlyAt tidy onlyAt (fun _ _ _ stored => stored) ?_
      fun stop member => ⟨member, (apart stop member).2⟩
    intro order stored
    exact absurd (missing.symm.trans stored) (by simp)
  obtain ⟨final, sweeping, coversFinal, held⟩ :=
    acceptedMatch_succeeds engine symbol timestamp coversPlaced wellFormed positive incoming
      missing apart kept seen fits
  have applied : applyEvent replayed (.orderAccepted accepted) = .ok placed := accepting
  exact ⟨final, by rw [follow_cons_of_ok applied]; exact sweeping, coversFinal, held⟩

/-- What replay holds of a taker covers what is left of it. -/
theorem left_le_held (wellFormed : book.WellFormed) (incoming : 0 < taker.remainingQty)
    {held : Decimal128}
    (enough : held = (matchOrder book taker).taker.remainingQty ∨
      (¬Trades book taker ∧ held = rebuilt))
    (whole : ¬Trades book taker → taker.remainingQty ≤ rebuilt) :
    (matchOrder book taker).taker.remainingQty ≤ held := by
  rcases enough with same | ⟨noTrade, same⟩
  · exact same.ge
  · have untouched : matchShares book taker = [] := by
      by_contra traded
      exact noTrade ((matchShares_ne_nil_iff wellFormed incoming.ne').1 traded)
    rw [same, matchOrder_taker_untouched wellFormed untouched]
    exact whole noTrade

private theorem convertTriggered_isLimit_congr {order stop : BookOrder}
    (sameType : stop.orderType = order.orderType) :
    (convertTriggered stop).orderType.isLimit = (convertTriggered order).orderType.isLimit := by
  cases kind : order.orderType <;> simp [convertTriggered, kind, sameType]

/-- The match of a triggered order, which replay still has among the waiting ones. -/
theorem triggeredMatch_succeeds (engine : MatchingEngine) (symbol : SymbolId)
    (timestamp : UnixMicros) (covers : Covers book stops used replayed)
    (wellFormed : book.WellFormed) (positive : AllPositive book) {order stop : BookOrder}
    (incoming : 0 < order.remainingQty) (missing : book.getOrder order.orderId = none)
    (apart : ∀ other ∈ stops, book.getOrder other.orderId = none ∧ other.orderId ≠ order.orderId)
    (member : stop ∈ replayed.stopOrders) (keyed : stop.orderId = order.orderId)
    (sameType : stop.orderType = order.orderType) (enough : order.remainingQty ≤ stop.remainingQty)
    (fits : Trades book (convertTriggered order) →
      (convertTriggered order).orderType.isLimit = true →
        LaterLegsFit book (convertTriggered order)) :
    let result := matchOrder book (convertTriggered order)
    ∃ final, follow applyEvent replayed (engine.absorb result symbol timestamp).2 = .ok final ∧
      Covers result.book stops used final ∧
      (result.taker.remainingQty ≠ 0 → (convertTriggered order).orderType.isLimit = true →
        final.OnBook order.orderId result.taker.remainingQty ∨
          final.StillWaits order.orderId result.taker.remainingQty) := by
  intro result
  obtain ⟨sameId, -, -, sameQty, -⟩ := convertTriggered_frame order
  have sameLimit := convertTriggered_isLimit_congr sameType
  rw [← sameQty] at incoming enough
  rw [← sameId] at missing apart keyed ⊢
  have drawn := drawn_matchShares wellFormed missing
  have bounded := bounded_matchShares wellFormed positive incoming apart
  have tradesIff := matchShares_ne_nil_iff wellFormed incoming.ne'
  have waits : stop.orderId = (convertTriggered order).orderId := keyed
  simp only [result, absorb, matchOrder_fills wellFormed]
  cases shares : matchShares book (convertTriggered order) with
  | nil =>
      refine ⟨replayed, rfl, ?_, fun _ limited => Or.inr ⟨stop, member, waits, ?_, ?_⟩⟩
      · rw [matchOrder_book wellFormed, shares]
        exact covers
      · rw [matchOrder_taker wellFormed, shares]
        simpa using enough
      · rw [sameLimit, limited]
  | cons share rest =>
      have trades : Trades book (convertTriggered order) := by
        rw [← tradesIff, shares]
        simp
      have first : share.2 ≤ stop.remainingQty := by
        have total := greedyShares_of_shares shares
        have within := share_le_demand incoming.le (crossing_positive wellFormed positive)
          share (by rw [← greedyShares, total]; exact List.mem_cons_self)
        exact within.trans enough
      rw [shares] at drawn bounded
      obtain ⟨final, followed, coversFinal, settled⟩ :=
        triggeredSweep_succeeds covers drawn bounded drawn.stored member waits
          first fun left limited => laterShares_fit wellFormed positive incoming shares
            (fits trades (sameLimit ▸ limited)) left
      refine ⟨final, followed, ?_, fun left limited => Or.inl ?_⟩
      · rw [matchOrder_book wellFormed, shares]
        exact coversFinal
      · rcases settled with ⟨-, -, held, found, same⟩ | ⟨dropped, -⟩
        · exact ⟨held, found, same.ge⟩
        · exact absurd ⟨left, sameLimit.trans limited⟩ dropped

end Match

/-! ## Steps -/

section Steps

variable {engine replayed : MatchingEngine} {used : List OrderId} {timestamp : UnixMicros}

/-- The engine as the cover of a replayed one. -/
def CoveredBy (engine : MatchingEngine) (used : List OrderId) (replayed : MatchingEngine) : Prop :=
  Covers engine.orderbook engine.stopOrders used replayed

private theorem matchNewOrder_succeeds (wellFormed : engine.orderbook.WellFormed)
    (positive : AllPositive engine.orderbook) (covers : engine.CoveredBy used replayed)
    {taker : BookOrder} (missing : engine.orderbook.getOrder taker.orderId = none)
    (apart : ∀ stop ∈ engine.stopOrders,
      engine.orderbook.getOrder stop.orderId = none ∧ stop.orderId ≠ taker.orderId)
    (gone : Gone replayed taker.orderId) (known : taker.orderId ∈ used)
    (incoming : 0 < taker.remainingQty) (unconditional : taker.orderType.isConditional = false)
    (fits : ¬Refused engine.orderbook taker →
      OrderFits engine.orderbook taker (taker.visibleQty.getD taker.originalQty)) :
    ∃ final, follow applyEvent replayed (engine.matchNewOrder taker timestamp).2 = .ok final ∧
      (engine.matchNewOrder taker timestamp).1.CoveredBy used final := by
  let result := matchOrder engine.orderbook taker
  rcases engine.matchNewOrder_cases taker timestamp with ⟨-, same⟩ | ⟨admitted, same⟩ <;> rw [same]
  · exact ⟨replayed, rfl, covers⟩
  · have notRefused : ¬Refused engine.orderbook taker := by
      rw [← matchOrder_rejected_iff wellFormed, admitted]
      exact Bool.false_ne_true
    have orderFits := fits notRefused
    obtain ⟨swept, matching, coversSwept, held⟩ :=
      acceptance_succeeds engine taker.symbol timestamp (acceptedOf taker taker.symbol timestamp)
        covers wellFormed positive rfl gone known unconditional incoming missing apart rfl
        orderFits.legs
    have takerId : result.taker.orderId = taker.orderId := matchOrder_taker_orderId wellFormed
    have leftIff := taker_left_iff wellFormed positive incoming admitted
    have notRefilled : refillIceberg timestamp result.taker = result.taker := by
      by_cases left : result.taker.remainingQty = 0
      · apply refillIceberg_of_nothing_hidden
        rw [show result.taker.hiddenQty = _ from matchOrder_taker_hiddenQty wellFormed]
        exact orderFits.hidesNothing fun opened => leftIff.2 opened left
      · exact refillIceberg_of_left timestamp left
    simp only [result] at notRefilled matching takerId
    simp only [notRefilled]
    rcases placeRemaining_cases (engine.absorb result taker.symbol timestamp).1 result.taker
        timestamp with
      ⟨nothing, done⟩ | ⟨left, -, done⟩ | ⟨left, limited, notIoc, notFok, done⟩ <;>
      simp only [result] at done <;> simp only [done]
    · -- filled in full
      exact ⟨swept, (follow_append_of_ok matching).trans rfl, coversSwept⟩
    · -- the leftover is canceled
      obtain ⟨quantity, ⟨order, found, -⟩, -⟩ := held left
      obtain ⟨final, canceling, tidyFinal, onlyFinal, -⟩ :=
        canceled_succeeds coversSwept.toTidy (Or.inl ⟨order, found⟩)
      have applied : applyEvent swept (.orderCanceled result.taker.orderId result.taker.userId
          result.taker.symbol result.taker.remainingQty timestamp) = .ok final := by
        rw [takerId]
        exact canceling
      refine ⟨final, (follow_append_of_ok matching).trans ?_, coversSwept.of_onlyAt tidyFinal
        onlyFinal (fun _ _ _ stored => stored) ?_ fun stop member =>
          ⟨member, (apart stop member).2⟩⟩
      · rw [follow_cons_of_ok applied, follow_nil]
      · intro order stored
        have missingHere : result.book.getOrder taker.orderId = none :=
          getOrder_matchOrder_of_none wellFormed missing
        exact absurd (missingHere.symm.trans stored) (by simp)
    · -- the leftover rests
      obtain ⟨quantity, ⟨order, found, exactly⟩, enough⟩ := held left
      rw [show (matchOrder engine.orderbook taker).taker.orderType = _ from
        matchOrder_taker_orderType wellFormed] at limited
      rw [show (matchOrder engine.orderbook taker).taker.timeInForce = _ from
        matchOrder_taker_timeInForce wellFormed] at notIoc notFok
      refine ⟨swept, (follow_append_of_ok matching).trans rfl,
        coversSwept.insertOrder (Or.inl ⟨order, by rwa [takerId], ?_⟩)⟩
      rw [exactly]
      exact left_le_held wellFormed incoming enough fun noTrade =>
        orderFits.whole noTrade ⟨limited, notIoc, notFok⟩

private theorem handleNewOrder_succeeds (sound : engine.Sound used)
    (covers : engine.CoveredBy used replayed) {order : NewOrder} (fresh : order.orderId ∉ used)
    (replayable : engine.Replayable (.command (.newOrder order))) :
    ∃ final, follow applyEvent replayed (engine.handleNewOrder order).2 = .ok final ∧
      (engine.handleNewOrder order).1.CoveredBy (used ++ [order.orderId]) final := by
  obtain ⟨shows, told⟩ := replayable
  have grows : used ⊆ used ++ [order.orderId] := List.subset_append_left _ _
  have known : order.orderId ∈ used ++ [order.orderId] :=
    List.mem_append_right used (List.mem_singleton.2 rfl)
  have gone := covers.toTidy.gone_of_unused fresh
  have missing := sound.missing_of_unused fresh
  have covered := covers.mono grows
  have notWaiting := sound.notWaiting_of_unused fresh
  rcases engine.handleNewOrder_cases order with
    ⟨reason, same⟩ | ⟨price, positive, -, priced, accepted,
      ⟨conditional, same⟩ | ⟨unconditional, same⟩⟩ <;> rw [same]
  · exact ⟨replayed, rfl, covered⟩
  · obtain ⟨enough, -⟩ := told positive accepted price priced
    have plain : order.orderType ≠ .iceberg := by
      intro iceberg
      simp [iceberg, OrderType.isConditional] at conditional
    let record := acceptedOf (newBookOrder engine.markPrice order price) order.symbol
      order.timestamp
    have within : (newBookOrder engine.markPrice order price).remainingQty ≤
        record.visibleQuantity.getD record.quantity := by
      change (splitQuantity order).1 ≤ _
      rw [splitQuantity_of_plain plain]
      exact enough conditional
    have goneHere : Gone replayed record.orderId := gone
    obtain ⟨final, applied, coversFinal⟩ :=
      Covers.acceptWaiting covered goneHere known conditional rfl rfl within
    have accepting : applyEvent replayed (.orderAccepted record) = .ok final := applied
    exact ⟨final, by rw [follow_cons_of_ok accepting, follow_nil], coversFinal⟩
  · obtain ⟨-, fits⟩ := told positive accepted price priced
    refine matchNewOrder_succeeds sound.wellFormed sound.positive covered missing ?_ gone known
      (splitQuantity_bounds positive (shows accepted)).1 unconditional (fits unconditional)
    exact fun stop member =>
      ⟨sound.apart stop member, fun own => notWaiting (List.mem_map.2 ⟨stop, member, own⟩)⟩

/-! ### Cancellations -/

private theorem handleCancelOrder_succeeds (sound : engine.Sound used)
    (covers : engine.CoveredBy used replayed) (orderId : OrderId) (userId : UserId) :
    ∃ final, follow applyEvent replayed (engine.handleCancelOrder orderId userId timestamp).2 =
        .ok final ∧
      (engine.handleCancelOrder orderId userId timestamp).1.CoveredBy used final := by
  rcases engine.handleCancelOrder_cases orderId userId timestamp with
    ⟨-, -, same⟩ | ⟨order, found, -, same⟩ | ⟨order, found, -, same⟩ |
      ⟨order, missing, waiting, -, same⟩ | ⟨order, -, waiting, -, same⟩ <;> rw [same]
  · exact ⟨replayed, rfl, covers⟩
  · obtain ⟨final, canceling, coversFinal, -⟩ := Covers.cancelResting covers found sound.apart
    have applied : applyEvent replayed (.orderCanceled orderId userId order.symbol
        order.remainingQty timestamp) = .ok final := canceling
    exact ⟨final, by rw [follow_cons_of_ok applied, follow_nil], coversFinal⟩
  · have kept := OrderBook.getOrder_putBack (sound.wellFormed.toLevels.keyed found) found
    exact ⟨replayed, rfl, Covers.narrow covers kept (List.Subset.refl _)⟩
  · have keyed : order.orderId = orderId := by simpa using List.find?_some waiting
    have first := find_cons_eraseP_perm waiting
    have nodup := (first.map BookOrder.orderId).nodup_iff.2 sound.stopsNodup
    rw [← keyed] at missing
    obtain ⟨final, canceling, coversFinal⟩ :=
      Covers.cancelWaiting (Covers.narrow covers (fun _ => rfl) first.subset) missing nodup
    have applied : applyEvent replayed (.orderCanceled orderId userId order.symbol
        order.remainingQty timestamp) = .ok final := by
      rw [← keyed]
      exact canceling
    exact ⟨final, by rw [follow_cons_of_ok applied, follow_nil], coversFinal⟩
  · have moved := (List.perm_append_singleton order
      (engine.stopOrders.eraseP fun stop => stop.orderId = orderId)).trans
      (find_cons_eraseP_perm waiting)
    exact ⟨replayed, rfl, Covers.narrow covers (fun _ => rfl) moved.subset⟩

/-- The loop over the ids of one user. -/
theorem cancelOrders_succeeds {stops : List BookOrder} {orderIds : List OrderId}
    (userId : UserId) (symbol : SymbolId) (covers : Covers book stops used replayed)
    (wellFormed : book.LevelsWellFormed)
    (apart : ∀ stop ∈ stops, book.getOrder stop.orderId = none) :
    ∃ final, follow applyEvent replayed ((book.cancelOrders orderIds).2.map fun order =>
        .orderCanceled order.orderId userId symbol order.remainingQty timestamp) = .ok final ∧
      Covers (book.cancelOrders orderIds).1 stops used final := by
  induction orderIds generalizing book replayed with
  | nil => exact ⟨replayed, rfl, covers⟩
  | cons orderId rest inductionHypothesis =>
      rw [OrderBook.cancelOrders]
      cases found : book.getOrder orderId with
      | none => exact inductionHypothesis covers wellFormed apart
      | some order =>
          have keyed := wellFormed.keyed found
          obtain ⟨next, canceling, coversNext, -⟩ := covers.cancelResting found apart
          have applied : applyEvent replayed (.orderCanceled order.orderId userId symbol
              order.remainingQty timestamp) = .ok next := by
            rw [keyed]
            exact canceling
          have sameOrders := OrderBook.sameOrders_unlink_remove found
          have unlinked : Covers (book.unlinkOrder orderId order) stops used next :=
            coversNext.narrow (fun other => (sameOrders.getOrder other).symm)
              (List.Subset.refl _)
          have apartLeft : ∀ stop ∈ stops,
              (book.unlinkOrder orderId order).getOrder stop.orderId = none := by
            intro stop member
            rw [OrderBook.getOrder_unlinkOrder, apart stop member, ite_self]
          obtain ⟨final, following, coversFinal⟩ :=
            inductionHypothesis unlinked (wellFormed.unlinkOrder found) apartLeft
          exact ⟨final, by rw [List.map_cons, follow_cons_of_ok applied, following], coversFinal⟩

/-- The waiting orders of one user. -/
theorem cancelStops_succeeds {taken kept : List BookOrder} (userId : UserId) (symbol : SymbolId)
    (covers : Covers book (taken ++ kept) used replayed)
    (missing : ∀ stop ∈ taken, book.getOrder stop.orderId = none)
    (nodup : ((taken ++ kept).map BookOrder.orderId).Nodup) :
    ∃ final, follow applyEvent replayed (taken.map fun order =>
        .orderCanceled order.orderId userId symbol order.remainingQty timestamp) = .ok final ∧
      Covers book kept used final := by
  induction taken generalizing replayed with
  | nil => exact ⟨replayed, rfl, covers⟩
  | cons order rest inductionHypothesis =>
      rw [List.cons_append] at covers nodup
      obtain ⟨next, canceling, coversNext⟩ :=
        covers.cancelWaiting (missing order List.mem_cons_self) nodup
      have applied : applyEvent replayed (.orderCanceled order.orderId userId symbol
          order.remainingQty timestamp) = .ok next := canceling
      obtain ⟨final, following, coversFinal⟩ := inductionHypothesis coversNext
        (fun stop member => missing stop (List.mem_cons_of_mem order member))
        (nodup.sublist ((List.sublist_cons_self _ _).map _))
      exact ⟨final, by rw [List.map_cons, follow_cons_of_ok applied, following], coversFinal⟩

private theorem handleCancelAll_succeeds (sound : engine.Sound used)
    (covers : engine.CoveredBy used replayed) (userId : UserId) (symbol : SymbolId) :
    ∃ final, follow applyEvent replayed (engine.handleCancelAll userId symbol timestamp).2 =
        .ok final ∧
      (engine.handleCancelAll userId symbol timestamp).1.CoveredBy used final := by
  let owned := fun stop : BookOrder =>
    decide (stop.userId = userId) && decide (stop.symbol = symbol)
  have scanned := swapScan_perm owned engine.stopOrders
  have fromBook : ∃ middle, follow applyEvent replayed
      ((engine.orderbook.cancelAllUserOrders userId).2.map fun order =>
        .orderCanceled order.orderId userId symbol order.remainingQty timestamp) = .ok middle ∧
      Covers (engine.orderbook.cancelAllUserOrders userId).1 engine.stopOrders used middle := by
    rw [OrderBook.cancelAllUserOrders]
    cases entry : engine.orderbook.userOrders[userId]? with
    | none => exact ⟨replayed, rfl, covers⟩
    | some orderIds =>
        have erased : Covers { engine.orderbook with
            userOrders := engine.orderbook.userOrders.erase userId } engine.stopOrders used
            replayed := Covers.narrow covers (fun _ => rfl) (List.Subset.refl _)
        exact cancelOrders_succeeds userId symbol erased
          (sound.wellFormed.toLevels.congr rfl rfl rfl) sound.apart
  obtain ⟨middle, canceling, coversMiddle⟩ := fromBook
  have soundBook := (sound.cancelAllUserOrders userId).perm scanned
  obtain ⟨final, following, coversFinal⟩ := cancelStops_succeeds userId symbol
    (coversMiddle.narrow (fun _ => rfl) scanned.subset)
    (fun stop member => soundBook.apart stop (List.mem_append_left _ member)) soundBook.stopsNodup
  exact ⟨final, (follow_append_of_ok canceling).trans following, coversFinal⟩

/-- The loop over the due entries of the expiry heap. -/
theorem expireEntries_succeeds {stops : List BookOrder} {now : UnixMicros}
    {entries : List (UnixMicros × OrderId)} (covers : Covers book stops used replayed)
    (apart : ∀ stop ∈ stops, book.getOrder stop.orderId = none) :
    ∃ final, follow applyEvent replayed (expireEntries now book entries).2.2 = .ok final ∧
      Covers (expireEntries now book entries).1 stops used final := by
  induction entries generalizing book replayed with
  | nil => exact ⟨replayed, rfl, covers⟩
  | cons entry rest inductionHypothesis =>
      rw [expireEntries]
      split
      · exact ⟨replayed, rfl, covers⟩
      · cases found : book.getOrder entry.2 with
        | none => exact inductionHypothesis covers apart
        | some order =>
            obtain ⟨next, canceling, coversNext, -⟩ := covers.cancelResting found apart
            have applied : applyEvent replayed (.orderCanceled entry.2 order.userId order.symbol
                order.remainingQty now) = .ok next := canceling
            have apartLeft : ∀ stop ∈ stops,
                (book.removeOrder entry.2).getOrder stop.orderId = none := by
              intro stop member
              rw [OrderBook.getOrder_removeOrder, apart stop member, ite_self]
            obtain ⟨final, following, coversFinal⟩ := inductionHypothesis coversNext apartLeft
            exact ⟨final, by rw [follow_cons_of_ok applied, following], coversFinal⟩

/-! ### Amendments -/

/-- An amendment to nothing or less, which keeps the order's priority, is refused. -/
theorem handleAmendOrder_of_nothing {amend : AmendOrder} {old : BookOrder} {quantity : Decimal128}
    (found : engine.orderbook.getOrder amend.orderId = some old)
    (owner : old.userId = amend.userId) (keeps : losesPriority old amend = false)
    (asked : amend.newQuantity = some quantity) (nothing : quantity ≤ 0)
    (live : 0 < old.remainingQty) :
    engine.handleAmendOrder amend =
      (engine, [.orderRejected amend.orderId amend.userId .invalidOrder amend.timestamp]) := by
  have lower : quantity < old.remainingQty := nothing.trans_lt live
  have invalid : (quantity.isZero || quantity.isNegative) = true := by
    simpa [le_iff_eq_or_lt] using nothing
  simp only [handleAmendOrder, found, owner, keeps, asked, Option.filter_some, lower, decide_true,
    if_true, invalid, ne_eq, not_true_eq_false, if_false, Bool.false_eq_true]

private theorem reinsertAmended_succeeds (sound : engine.Sound used)
    (covers : engine.CoveredBy used replayed) {old : BookOrder} {amend : AmendOrder}
    (found : engine.orderbook.getOrder amend.orderId = some old)
    (fits : ¬AmendInvalid old amend →
      let removed := engine.orderbook.removeOrder amend.orderId
      let amended := amendedOrder old amend
      let rebuilt := old.visibleQty.getD amended.originalQty
      ¬Refused removed amended →
        (Trades removed amended →
          FirstLegFits removed amended rebuilt ∧ LaterLegsFit removed amended) ∧
        (¬Trades removed amended → amended.remainingQty ≤ rebuilt)) :
    ∃ final, follow applyEvent replayed (engine.reinsertAmended old amend).2 = .ok final ∧
      (engine.reinsertAmended old amend).1.CoveredBy used final := by
  let removed := engine.orderbook.removeOrder amend.orderId
  let amended := amendedOrder old amend
  have soundRemoved := sound.removeOrder amend.orderId
  have keyed : old.orderId = amend.orderId := sound.wellFormed.toLevels.keyed found
  obtain ⟨canceled, canceling, coversCanceled, gone⟩ :=
    Covers.cancelResting covers found sound.apart
  have applied : applyEvent replayed (.orderCanceled amend.orderId amend.userId amend.symbol
      old.remainingQty amend.timestamp) = .ok canceled := canceling
  rcases engine.reinsertAmended_cases old amend with ⟨reason, -, same⟩ | ⟨valid, admitted, same⟩ <;>
    rw [same]
  · exact ⟨canceled, by rw [follow_cons_of_ok applied]; rfl, coversCanceled⟩
  · have notRefused : ¬Refused removed amended := by
      rw [← matchOrder_rejected_iff soundRemoved.wellFormed, admitted]
      exact Bool.false_ne_true
    obtain ⟨legs, whole⟩ := fits valid notRefused
    have resting := sound.resting found
    have amendedId : amended.orderId = amend.orderId := keyed
    have takerId : (matchOrder removed amended).taker.orderId = amended.orderId :=
      matchOrder_taker_orderId soundRemoved.wellFormed
    have takerType : (matchOrder removed amended).taker.orderType = old.orderType :=
      matchOrder_taker_orderType soundRemoved.wellFormed
    have incoming : 0 < amended.remainingQty := by
      rw [AmendInvalid, not_or, not_le] at valid
      exact valid.1
    have missing : removed.getOrder amended.orderId = none := by
      rw [amendedId, OrderBook.getOrder_removeOrder, if_pos rfl]
    have notWaiting := sound.notWaiting_of_resting found
    rw [← amendedId] at notWaiting gone
    have apart : ∀ stop ∈ engine.stopOrders,
        removed.getOrder stop.orderId = none ∧ stop.orderId ≠ amended.orderId := fun stop member =>
      ⟨soundRemoved.apart stop member, fun own => notWaiting (List.mem_map.2 ⟨stop, member, own⟩)⟩
    have rebuilds : (matchOrder removed amended).taker.visibleQty.getD
        (matchOrder removed amended).taker.originalQty =
          old.visibleQty.getD amended.originalQty := by
      rw [matchOrder_taker_eq soundRemoved.wellFormed]
      rfl
    obtain ⟨swept, matching, coversSwept, held⟩ :=
      acceptance_succeeds engine amend.symbol amend.timestamp
        (acceptedOf (matchOrder removed amended).taker amend.symbol amend.timestamp)
        coversCanceled soundRemoved.wellFormed soundRemoved.positive takerId gone
        (amendedId ▸ sound.bookUsed found)
        ((congrArg OrderType.isConditional takerType).trans resting.unconditional) incoming missing
        apart rebuilds legs
    refine ⟨swept, ?_, ?_⟩
    · rw [follow_cons_of_ok applied]
      exact matching
    · dsimp only
      split
      · exact coversSwept
      · rename_i rests
        have left : (matchOrder removed amended).taker.remainingQty ≠ 0 :=
          fun filled => rests (Or.inl filled)
        obtain ⟨quantity, ⟨order, stored, exactly⟩, enough⟩ := held left
        rw [← takerId] at stored
        refine coversSwept.insertOrder (Or.inl ⟨order, stored, ?_⟩)
        rw [exactly]
        exact left_le_held soundRemoved.wellFormed incoming enough whole

private theorem handleAmendOrder_succeeds (sound : engine.Sound used)
    (covers : engine.CoveredBy used replayed) {amend : AmendOrder}
    (replayable : engine.Replayable (.command (.amendOrder amend))) :
    ∃ final, follow applyEvent replayed (engine.handleAmendOrder amend).2 = .ok final ∧
      (engine.handleAmendOrder amend).1.CoveredBy used final := by
  -- an amendment that keeps the order's priority must be refused
  have refused : ∀ existing, engine.orderbook.getOrder amend.orderId = some existing →
      existing.userId = amend.userId → losesPriority existing amend = false →
      ∃ final, follow applyEvent replayed (engine.handleAmendOrder amend).2 = .ok final ∧
        (engine.handleAmendOrder amend).1.CoveredBy used final := by
    intro existing found owner keeps
    obtain ⟨quantity, nothing, asked⟩ := (replayable existing found owner).1 keeps
    rw [handleAmendOrder_of_nothing found owner keeps asked nothing
      (sound.resting found).remaining_pos]
    exact ⟨replayed, rfl, covers⟩
  rcases engine.handleAmendOrder_cases amend with
    ⟨reason, -, same⟩ | ⟨existing, found, owner, ⟨loses, same⟩ | ⟨keeps, -⟩ | ⟨keeps, -⟩⟩
  · rw [same]
    exact ⟨replayed, rfl, covers⟩
  · rw [same]
    exact reinsertAmended_succeeds sound covers found ((replayable existing found owner).2 loses)
  · exact refused existing found owner keeps
  · exact refused existing found owner keeps

/-! ### Triggered orders -/

private theorem triggerOne_succeeds {order : BookOrder} {rest : List BookOrder}
    (sound : OrdersSound engine.orderbook (order :: rest) used)
    (covers : Covers engine.orderbook (order :: rest) used replayed)
    (fits : Trades engine.orderbook (convertTriggered order) →
      (convertTriggered order).orderType.isLimit = true →
        LaterLegsFit engine.orderbook (convertTriggered order)) :
    ∃ final, follow applyEvent replayed (engine.triggerOne order timestamp).2 = .ok final ∧
      Covers (engine.triggerOne order timestamp).1.orderbook rest used final := by
  let result := matchOrder engine.orderbook (convertTriggered order)
  obtain ⟨stop, member, keyed, sameType, enough⟩ := covers.waiting order List.mem_cons_self
  have coversRest : Covers engine.orderbook rest used replayed :=
    covers.narrow (fun _ => rfl) (List.subset_cons_self order rest)
  have nodup := sound.stopsNodup
  rw [List.map_cons, List.nodup_cons] at nodup
  have apart : ∀ other ∈ rest,
      engine.orderbook.getOrder other.orderId = none ∧ other.orderId ≠ order.orderId := by
    intro other otherMember
    refine ⟨sound.apart other (List.mem_cons_of_mem order otherMember), fun same => ?_⟩
    exact nodup.1 (List.mem_map.2 ⟨other, otherMember, same⟩)
  obtain ⟨final, following, coversFinal, held⟩ :=
    triggeredMatch_succeeds engine result.taker.symbol timestamp coversRest sound.wellFormed
      sound.positive (sound.waiting order List.mem_cons_self).remaining_pos
      (sound.apart order List.mem_cons_self) apart member keyed sameType enough fits
  rcases engine.triggerOne_cases order timestamp with
    ⟨-, same⟩ | ⟨-, -, same⟩ | ⟨-, left, limited, same⟩ <;> rw [same]
  · exact ⟨replayed, rfl, coversRest⟩
  · exact ⟨final, following, coversFinal⟩
  · refine ⟨final, following, coversFinal.insertOrder ?_⟩
    have takerId : (matchOrder engine.orderbook (convertTriggered order)).taker.orderId =
        order.orderId :=
      (matchOrder_taker_orderId sound.wellFormed).trans (convertTriggered_frame order).1
    rw [matchOrder_taker_orderType sound.wellFormed] at limited
    rw [takerId]
    exact held left limited

private theorem triggerAll_succeeds {pending kept : List BookOrder}
    (sound : OrdersSound engine.orderbook (pending ++ kept) used)
    (covers : Covers engine.orderbook (pending ++ kept) used replayed)
    (fit : TriggersFit timestamp engine pending) :
    ∃ final, follow applyEvent replayed (triggerAll timestamp engine pending).2 = .ok final ∧
      Covers (triggerAll timestamp engine pending).1.orderbook kept used final := by
  induction pending generalizing engine replayed with
  | nil => exact ⟨replayed, rfl, covers⟩
  | cons order rest inductionHypothesis =>
      obtain ⟨middle, first, coversMiddle⟩ := triggerOne_succeeds sound covers fit.1
      obtain ⟨final, later, coversFinal⟩ :=
        inductionHypothesis (triggerOne_sound sound) coversMiddle fit.2
      exact ⟨final, (follow_append_of_ok first).trans later, coversFinal⟩

private theorem updateTrailingPeak_frame (mark : Decimal128) (order : BookOrder) :
    (updateTrailingPeak mark order).orderId = order.orderId ∧
      (updateTrailingPeak mark order).orderType = order.orderType ∧
      (updateTrailingPeak mark order).remainingQty = order.remainingQty := by
  obtain ⟨peak, same⟩ := updateTrailingPeak_eq mark order
  rw [same]
  exact ⟨rfl, rfl, rfl⟩

/-- A mark price moves the same trailing peaks live and in replay. -/
theorem covers_applyMarkIndexPassive (covers : engine.CoveredBy used replayed)
    (mark index : Decimal128) :
    (engine.applyMarkIndexPassive mark index).CoveredBy used
      (replayed.applyMarkIndexPassive mark index) := by
  have kept : ∀ stop ∈ replayed.stopOrders,
      updateTrailingPeak mark stop ∈ (replayed.applyMarkIndexPassive mark index).stopOrders :=
    fun stop member => List.mem_map_of_mem member
  have ids : (replayed.applyMarkIndexPassive mark index).stopOrders.map BookOrder.orderId =
      replayed.stopOrders.map BookOrder.orderId := by
    change (replayed.stopOrders.map (updateTrailingPeak mark)).map BookOrder.orderId = _
    rw [List.map_map]
    exact List.map_congr_left fun stop _ => updateTrailingPeak_orderId mark stop
  refine ⟨⟨?_, by rw [ids]; exact covers.nodup, covers.bookUsed, ?_, ?_⟩, ?_, ?_⟩
  · intro stop member
    obtain ⟨before, beforeMember, rfl⟩ := List.mem_map.1 member
    rw [updateTrailingPeak_orderId]
    exact covers.apart before beforeMember
  · intro stop member
    obtain ⟨before, beforeMember, rfl⟩ := List.mem_map.1 member
    rw [updateTrailingPeak_orderId]
    exact covers.stopsUsed before beforeMember
  · intro stop member
    obtain ⟨before, beforeMember, rfl⟩ := List.mem_map.1 member
    rw [updateTrailingPeak_orderId]
    exact covers.stopsSeen before beforeMember
  · intro orderId order found
    rcases covers.resting orderId order found with onBook | ⟨stop, member, keyed, enough, limited⟩
    · exact Or.inl onBook
    · obtain ⟨sameId, sameType, sameQty⟩ := updateTrailingPeak_frame mark stop
      refine Or.inr ⟨_, kept stop member, sameId.trans keyed, sameQty ▸ enough, ?_⟩
      rw [convertTriggered_isLimit_congr sameType, limited]
  · intro stop member
    obtain ⟨before, beforeMember, rfl⟩ := List.mem_map.1 member
    obtain ⟨stored, storedMember, keyed, sameType, enough⟩ := covers.waiting before beforeMember
    obtain ⟨storedId, storedType, storedQty⟩ := updateTrailingPeak_frame mark stored
    obtain ⟨beforeId, beforeType, beforeQty⟩ := updateTrailingPeak_frame mark before
    refine ⟨_, kept stored storedMember, ?_, ?_, ?_⟩
    · rw [storedId, beforeId, keyed]
    · rw [storedType, beforeType, sameType]
    · rw [storedQty, beforeQty]
      exact enough

private theorem updateMarkPrice_succeeds (sound : engine.Sound used)
    (covers : engine.CoveredBy used replayed) (symbol : SymbolId) {mark index : Decimal128}
    (fit : TriggersFit timestamp
      { engine.applyMarkIndexPassive mark index with
        stopOrders := (swapScan (shouldTrigger mark)
          (engine.applyMarkIndexPassive mark index).stopOrders).2 }
      (swapScan (shouldTrigger mark) (engine.applyMarkIndexPassive mark index).stopOrders).1) :
    ∃ final, follow applyEvent replayed (engine.updateMarkPrice symbol mark index timestamp).2 =
        .ok final ∧
      (engine.updateMarkPrice symbol mark index timestamp).1.CoveredBy used final := by
  let live := engine.applyMarkIndexPassive mark index
  let scanned := swapScan (shouldTrigger mark) live.stopOrders
  have parts : (scanned.1 ++ scanned.2).Perm live.stopOrders := swapScan_perm _ _
  let waiting : MatchingEngine := { live with stopOrders := scanned.2 }
  have soundLive : OrdersSound waiting.orderbook (scanned.1 ++ scanned.2) used :=
    OrdersSound.perm (sound.applyMarkIndexPassive mark index) parts
  have coversLive : Covers waiting.orderbook (scanned.1 ++ scanned.2) used
      (replayed.applyMarkIndexPassive mark index) :=
    Covers.narrow (covers_applyMarkIndexPassive covers mark index) (fun _ => rfl) parts.subset
  obtain ⟨final, following, coversFinal⟩ := triggerAll_succeeds soundLive coversLive fit
  have applied : applyEvent replayed (.markPriceUpdate symbol mark index timestamp) =
      .ok (replayed.applyMarkIndexPassive mark index) := rfl
  refine ⟨final, (follow_cons_of_ok applied).trans following, ?_⟩
  rw [CoveredBy, updateMarkPrice, triggerAndMatchStops, triggerAll_stopOrders]
  exact coversFinal

/-- One input and its records. -/
theorem step_succeeds (sound : engine.Sound used) (covers : engine.CoveredBy used replayed)
    {input : EngineInput}
    (fresh : ∀ orderId, input.newOrderId? = some orderId → orderId ∉ used)
    (replayable : engine.Replayable input) :
    ∃ final, follow applyEvent replayed (engine.step input).2 = .ok final ∧
      (engine.step input).1.CoveredBy (used ++ input.newOrderId?.toList) final := by
  have grows : used ⊆ used ++ input.newOrderId?.toList := List.subset_append_left _ _
  cases input with
  | expirySweep now =>
      obtain ⟨final, following, coversFinal⟩ := expireEntries_succeeds covers sound.apart
      exact ⟨final, following, coversFinal.mono grows⟩
  | command issued =>
      let counted : MatchingEngine := { engine with sequence := engine.sequence + 1 }
      have soundCounted : counted.Sound used := sound
      have coversCounted : counted.CoveredBy used replayed := covers
      cases issued with
      | newOrder order =>
          exact handleNewOrder_succeeds soundCounted coversCounted (fresh order.orderId rfl)
            replayable
      | cancelOrder orderId userId symbol timestamp =>
          obtain ⟨final, following, coversFinal⟩ :=
            handleCancelOrder_succeeds soundCounted coversCounted orderId userId
          exact ⟨final, following, Covers.mono coversFinal grows⟩
      | amendOrder amend =>
          obtain ⟨final, following, coversFinal⟩ :=
            handleAmendOrder_succeeds soundCounted coversCounted replayable
          exact ⟨final, following, Covers.mono coversFinal grows⟩
      | cancelAllOrders userId symbol timestamp =>
          obtain ⟨final, following, coversFinal⟩ :=
            handleCancelAll_succeeds soundCounted coversCounted userId symbol
          exact ⟨final, following, Covers.mono coversFinal grows⟩
      | updateMarkPrice symbol mark index timestamp =>
          obtain ⟨final, following, coversFinal⟩ :=
            updateMarkPrice_succeeds soundCounted coversCounted symbol replayable
          exact ⟨final, following, Covers.mono coversFinal grows⟩
      | computeFunding symbol timestamp =>
          have covered : ∀ rate, engine.CoveredBy used { replayed with lastFundingRate := rate } :=
            fun _ => ⟨⟨covers.apart, covers.nodup, covers.bookUsed, covers.stopsUsed,
              covers.stopsSeen⟩, covers.resting, covers.waiting⟩
          exact ⟨_, rfl, Covers.mono (covered _) grows⟩
      | adminCredit userId amount key timestamp =>
          exact ⟨replayed, rfl, Covers.mono coversCounted grows⟩

end Steps

/-! ## Runs -/

theorem coveredBy_new (config : SymbolConfig) (ids replayIds : Nat → TradeId)
    (interestRate : Decimal128) :
    (new config ids interestRate).CoveredBy [] (new config replayIds interestRate) := by
  refine ⟨⟨?_, List.nodup_nil, ?_, ?_, ?_⟩, ?_, ?_⟩ <;> simp [new]

theorem replay_run {start replayStart : MatchingEngine} (soundStart : start.Sound [])
    (coversStart : start.CoveredBy [] replayStart) {inputs : List EngineInput}
    (distinct : (newOrderIds inputs).Nodup)
    (replayable : StepsMeet step Replayable start inputs) :
    ∃ replayed, follow applyEvent replayStart (run step start inputs).2 = .ok replayed ∧
      (run step start inputs).1.CoveredBy (newOrderIds inputs) replayed := by
  have shows := replayable.mono fun _ _ => Replayable.acceptsShown
  refine sound_run_induction (motive := fun before engine log => ∃ replayed,
    follow applyEvent replayStart log = .ok replayed ∧
      engine.CoveredBy (newOrderIds before) replayed) soundStart distinct shows ?_ ?_
  · exact ⟨replayStart, rfl, coversStart⟩
  · rintro before input engine log ran isPrefix sound fresh ⟨middle, earlier, covers⟩
    have here : engine.Replayable input := by
      have meets := replayable.of_prefix isPrefix
      rwa [ran] at meets
    obtain ⟨final, later, coversFinal⟩ := step_succeeds sound covers fresh here
    rw [newOrderIds_concat]
    exact ⟨final, (follow_append_of_ok earlier).trans later, coversFinal⟩

/-- The log of a run whose steps are all replayable replays without an error. -/
theorem log_replays (config : SymbolConfig) (ids replayIds : Nat → TradeId)
    (interestRate : Decimal128) (inputs : List EngineInput) (distinct : (newOrderIds inputs).Nodup)
    (replayable : StepsMeet step Replayable (new config ids interestRate) inputs) :
    ∃ replayed, follow applyEvent (new config replayIds interestRate)
      (run step (new config ids interestRate) inputs).2 = .ok replayed := by
  obtain ⟨replayed, replays, -⟩ :=
    replay_run (sound_new config ids interestRate)
      (coveredBy_new config ids replayIds interestRate) distinct replayable
  exact ⟨replayed, replays⟩

/-- A limit order of the gateway is replayable when its legs fit. -/
theorem replayable_gatewayOrder (engine : MatchingEngine) (orderId : OrderId) (userId : UserId)
    (side : Side) (price quantity : Int) (positive : 0 < price)
    (first : FirstLegFits engine.orderbook (newBookOrder engine.markPrice
      (gatewayOrder orderId userId side price quantity) (.ofInt price)) (.ofInt quantity))
    (later : LaterLegsFit engine.orderbook (newBookOrder engine.markPrice
      (gatewayOrder orderId userId side price quantity) (.ofInt price))) :
    engine.Replayable (.command (.newOrder (gatewayOrder orderId userId side price quantity))) := by
  have priced : effectivePrice (gatewayOrder orderId userId side price quantity) =
      some (.ofInt price) := by
    have shown : (Decimal128.ofInt price).isPositive = true := by
      rw [Decimal128.isPositive_iff, Decimal128.lt_iff_raw]
      exact Int.mul_pos positive (by decide)
    simp [effectivePrice, gatewayOrder, Option.filter_some, shown]
  refine ⟨fun _ => by simp [ShowsPart, gatewayOrder], fun _ _ found known => ?_⟩
  cases priced.symm.trans known
  refine ⟨fun _ => le_refl _, fun _ _ =>
    ⟨fun _ => rfl, fun _ => ⟨first, later⟩, fun _ _ => le_refl _⟩⟩

theorem log_replays_swept :
    ∃ replayed, follow applyEvent (new plainConfig id 0)
      (run step (new plainConfig id 0) sweptInputs).2 = .ok replayed := by
  refine log_replays plainConfig id id 0 sweptInputs (by decide) ⟨?_, ?_, ?_, trivial, trivial⟩
  · exact replayable_gatewayOrder _ 1 7 .sell 100 2 (by decide)
      (by decide +kernel) (by decide +kernel)
  · exact replayable_gatewayOrder _ 2 7 .sell 100 5 (by decide)
      (by decide +kernel) (by decide +kernel)
  · exact replayable_gatewayOrder _ 3 8 .buy 100 4 (by decide)
      (by decide +kernel) (by decide +kernel)

/-- Two asks, and a bid that takes both and rests with less than the second gave. -/
def shortLeftover : List Command :=
  [.newOrder (gatewayOrder 1 7 .sell 100 1), .newOrder (gatewayOrder 2 7 .sell 100 5),
    .newOrder (gatewayOrder 3 8 .buy 100 8)]

/-- Replay sets the bid to 2 with its first leg, and the second leg fills 5. -/
theorem log_overfills_shortLeftover :
    ¬∀ (config : SymbolConfig) (ids : Nat → TradeId) (interestRate : Decimal128)
      (commands : List Command), (commands.filterMap Command.newOrderId?).Nodup →
      ∃ replayed, follow applyEvent (new config ids interestRate)
        (run step (new config ids interestRate) (commands.map .command)).2 = .ok replayed := by
  intro claimed
  obtain ⟨replayed, replays⟩ := claimed plainConfig id 0 shortLeftover (by decide)
  have fails : (follow applyEvent (new plainConfig id 0)
      (run step (new plainConfig id 0) (shortLeftover.map .command)).2).toOption.isSome =
        false := by
    decide +kernel
  rw [replays] at fails
  cases fails

end MatchingEngine
end Exg
