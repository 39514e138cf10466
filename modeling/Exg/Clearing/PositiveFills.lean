import Exg.Clearing.Soundness
import Exg.Matching.BookOperations

/-!
# An engine fills positive quantities

A match takes from makers that have something left, and takes no more than the taker wants.
So while the invariant of the engine holds, every fill that it emits has a positive quantity.
-/

namespace Exg
namespace MatchingEngine

open Support
open PostTradeProcessor (PositiveFill)

variable {engine : MatchingEngine} {used : List OrderId}

/-- Fills that take positive quantities. -/
def PositiveFills (events : List Event) : Prop := ∀ event ∈ events, PositiveFill event

theorem PositiveFills.append {first second : List Event} (early : PositiveFills first)
    (late : PositiveFills second) : PositiveFills (first ++ second) := by
  intro event member
  rcases List.mem_append.1 member with before | after
  · exact early event before
  · exact late event after

theorem PositiveFills.of_unfilled {events : List Event}
    (unfilled : ∀ event ∈ events, event.legKey? = none) : PositiveFills events := by
  intro event member
  have plain := unfilled event member
  cases event with
  | orderFilled filled => cases plain
  | _ => trivial

theorem PositiveFills.cons {event : Event} {rest : List Event} (unfilled : event.legKey? = none)
    (later : PositiveFills rest) : PositiveFills (event :: rest) := by
  have first : PositiveFills [event] := .of_unfilled fun other member => by
    rwa [List.mem_singleton.1 member]
  exact first.append later

private theorem positiveFills_absorb (engine : MatchingEngine) {book : OrderBook}
    {taker : BookOrder} (wellFormed : book.WellFormed) (resting : AllPositive book)
    (incoming : 0 ≤ taker.remainingQty) (symbol : SymbolId) (timestamp : UnixMicros) :
    PositiveFills (engine.absorb (matchOrder book taker) symbol timestamp).2 := by
  intro event emitted
  obtain ⟨fill, filled, tradeId, inside⟩ := mem_emitFillEvents emitted
  rw [matchOrder_fills wellFormed] at filled
  obtain ⟨share, drawn, maker, found, rfl⟩ := mem_fillsOf.1 filled
  have taken : 0 < share.2 := (matchShares_bounds wellFormed resting incoming drawn).1
  simp only [fillEvents, List.mem_cons, List.not_mem_nil, or_false] at inside
  rcases inside with rfl | rfl | rfl
  · exact taken
  · exact taken
  · trivial

/-! ## The handlers -/

private theorem positiveFills_placeRemaining (order : BookOrder) (timestamp : UnixMicros) :
    PositiveFills (engine.placeRemaining order timestamp).2 := by
  rcases engine.placeRemaining_cases order timestamp with
    ⟨-, placed⟩ | ⟨-, -, placed⟩ | ⟨-, -, -, -, placed⟩ <;> rw [placed]
  · exact .of_unfilled (by simp)
  · exact .cons rfl (.of_unfilled (by simp))
  · exact .of_unfilled (by simp)

private theorem positiveFills_matchNewOrder (sound : engine.Sound used) {order : BookOrder}
    (incoming : 0 ≤ order.remainingQty) (timestamp : UnixMicros) :
    PositiveFills (engine.matchNewOrder order timestamp).2 := by
  rcases engine.matchNewOrder_cases order timestamp with ⟨-, same⟩ | ⟨-, same⟩ <;> rw [same]
  · exact .cons rfl (.of_unfilled (by simp))
  · have emitted := positiveFills_absorb engine sound.wellFormed sound.positive incoming
      order.symbol timestamp
    exact .cons rfl (emitted.append (positiveFills_placeRemaining _ timestamp))

private theorem positiveFills_handleNewOrder (sound : engine.Sound used) {order : NewOrder}
    (shows : icebergAccepted engine.symbolConfig order = true → ShowsPart order) :
    PositiveFills (engine.handleNewOrder order).2 := by
  rcases engine.handleNewOrder_cases order with
    ⟨reason, same⟩ | ⟨price, positive, -, -, accepted, ⟨-, same⟩ | ⟨-, same⟩⟩ <;> rw [same]
  · exact .cons rfl (.of_unfilled (by simp))
  · exact .cons rfl (.of_unfilled (by simp))
  · refine positiveFills_matchNewOrder sound ?_ order.timestamp
    exact (splitQuantity_bounds positive (shows accepted)).1.le

private theorem positiveFills_handleAmendOrder (sound : engine.Sound used) (amend : AmendOrder) :
    PositiveFills (engine.handleAmendOrder amend).2 := by
  rcases engine.handleAmendOrder_cases amend with
    ⟨reason, -, same⟩ | ⟨existing, -, -, ⟨-, same⟩ | ⟨-, same⟩ | ⟨-, quantity, -, -, -, same⟩⟩ <;>
    rw [same]
  · exact .cons rfl (.of_unfilled (by simp))
  · rcases engine.reinsertAmended_cases existing amend with
      ⟨reason, -, outcome⟩ | ⟨valid, -, outcome⟩ <;> rw [outcome]
    · exact .cons rfl (.cons rfl (.of_unfilled (by simp)))
    · have removed := OrdersSound.removeOrder sound amend.orderId
      rw [AmendInvalid, not_or, not_le] at valid
      have emitted := positiveFills_absorb engine removed.wellFormed removed.positive
        valid.1.le amend.symbol amend.timestamp
      exact .cons rfl (.cons rfl emitted)
  · exact .cons rfl (.of_unfilled (by simp))
  · exact .cons rfl (.of_unfilled (by simp))

private theorem positiveFills_triggerAll {pending kept : List BookOrder}
    (sound : OrdersSound engine.orderbook (pending ++ kept) used) (timestamp : UnixMicros) :
    PositiveFills (triggerAll timestamp engine pending).2 := by
  induction pending generalizing engine with
  | nil => exact .of_unfilled (by simp [triggerAll])
  | cons order rest inductionHypothesis =>
      refine PositiveFills.append ?_ (inductionHypothesis (triggerOne_sound sound))
      have incoming : 0 ≤ (convertTriggered order).remainingQty := by
        rw [(convertTriggered_frame order).2.2.2.1]
        exact (sound.waiting order List.mem_cons_self).remaining_pos.le
      have emitted (symbol : SymbolId) :=
        positiveFills_absorb engine sound.wellFormed sound.positive incoming symbol timestamp
      rcases engine.triggerOne_cases order timestamp with
        ⟨-, same⟩ | ⟨-, -, same⟩ | ⟨-, -, -, same⟩ <;> rw [same]
      · exact .of_unfilled (by simp)
      · exact emitted _
      · exact emitted _

private theorem positiveFills_step (sound : engine.Sound used) {input : EngineInput}
    (shows : engine.AcceptsShown input) : PositiveFills (engine.step input).2 := by
  cases input with
  | expirySweep now =>
      refine .of_unfilled fun event emitted => ?_
      obtain ⟨orderId, order, rfl⟩ := canceled_of_expireEntries emitted
      rfl
  | command issued =>
      let counted : MatchingEngine := { engine with sequence := engine.sequence + 1 }
      have soundCounted : counted.Sound used := sound
      cases issued with
      | newOrder order => exact positiveFills_handleNewOrder soundCounted shows
      | cancelOrder orderId userId symbol timestamp =>
          change PositiveFills (counted.handleCancelOrder orderId userId timestamp).2
          rcases counted.handleCancelOrder_cases orderId userId timestamp with
            ⟨-, -, same⟩ | ⟨order, -, -, same⟩ | ⟨order, -, -, same⟩ | ⟨order, -, -, -, same⟩ |
              ⟨order, -, -, -, same⟩ <;> rw [same] <;> exact .cons rfl (.of_unfilled (by simp))
      | amendOrder amend => exact positiveFills_handleAmendOrder soundCounted amend
      | cancelAllOrders userId symbol timestamp =>
          refine .of_unfilled fun event emitted => ?_
          obtain ⟨order, rfl⟩ := canceled_of_handleCancelAll counted emitted
          rfl
      | updateMarkPrice symbol mark index timestamp =>
          let passive := counted.applyMarkIndexPassive mark index
          let scanned := swapScan (shouldTrigger passive.markPrice) passive.stopOrders
          let scanning : MatchingEngine := { passive with stopOrders := scanned.2 }
          have ready : OrdersSound scanning.orderbook (scanned.1 ++ scanned.2) used :=
            OrdersSound.perm (soundCounted.applyMarkIndexPassive mark index)
              (swapScan_perm (shouldTrigger passive.markPrice) passive.stopOrders)
          exact .cons rfl (positiveFills_triggerAll ready timestamp)
      | computeFunding symbol timestamp => exact .cons rfl (.of_unfilled (by simp))
      | adminCredit userId amount key timestamp =>
          exact .of_unfilled fun event emitted => by cases emitted

/-- In a run with distinct ids every fill takes a positive quantity. -/
theorem positiveFills_run {start : MatchingEngine} (base : start.Sound [])
    {inputs : List EngineInput} (distinct : (newOrderIds inputs).Nodup)
    (shows : StepsMeet step AcceptsShown start inputs) :
    PositiveFills (run step start inputs).2 := by
  refine sound_run_induction (motive := fun _ _ log => PositiveFills log) base distinct shows
    (.of_unfilled (by simp)) ?_
  intro before input engine log reached isPrefix sound fresh earlier
  refine earlier.append (positiveFills_step sound ?_)
  have met := shows.of_prefix isPrefix
  rwa [reached] at met

/-- With a positive lot size iceberg orders show a positive part throughout. -/
theorem acceptsShown_from {start : MatchingEngine} (validLot : 0 < start.symbolConfig.lotSize)
    (inputs : List EngineInput) : StepsMeet step AcceptsShown start inputs := by
  induction inputs generalizing start with
  | nil => trivial
  | cons input rest inductionHypothesis =>
      refine ⟨acceptsShown_of_lot validLot input, inductionHypothesis ?_⟩
      rwa [(step_touches start input).symbolConfig]

end MatchingEngine
end Exg
