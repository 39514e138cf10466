import Exg.Clearing.Rebuild
import Exg.Matching.BookOperations

/-!
# The engine's events on one symbol

The server trades a single symbol.  When every command names it, so does every waiting
order, and with it every fill that the engine hands to the post-trade processor.
-/

namespace Exg

open Support PostTradeProcessor

/-- The symbol a command is about. -/
def Command.symbol? : Command → Option SymbolId
  | .newOrder order => some order.symbol
  | .cancelOrder _ _ symbol _ => some symbol
  | .amendOrder amend => some amend.symbol
  | .cancelAllOrders _ symbol _ => some symbol
  | .updateMarkPrice symbol _ _ _ => some symbol
  | .computeFunding symbol _ => some symbol
  | .adminCredit .. => none

/-! ## A match keeps the taker's symbol -/

private theorem matchOrder_symbol (book : OrderBook) (taker : BookOrder) :
    (matchOrder book taker).taker.symbol = taker.symbol := by
  obtain ⟨left, same⟩ := matchOrder_taker_withRemaining book taker
  rw [same]
  rfl

namespace MatchingEngine

variable {only : SymbolId} {engine : MatchingEngine} {event : Event}

private theorem absorb_fromEngine {result : MatchResult} {timestamp : UnixMicros}
    (emitted : event ∈ (engine.absorb result only timestamp).2) : FromEngine only event := by
  obtain ⟨fill, -, tradeId, member⟩ := mem_emitFillEvents emitted
  simp only [fillEvents, List.mem_cons, List.not_mem_nil, or_false] at member
  rcases member with rfl | rfl | rfl
  · exact rfl
  · exact rfl
  · trivial

/-! ## Handlers -/

private theorem placeRemaining_fromEngine {order : BookOrder} {timestamp : UnixMicros}
    (emitted : event ∈ (engine.placeRemaining order timestamp).2) : FromEngine only event := by
  rcases engine.placeRemaining_cases order timestamp with
    ⟨-, same⟩ | ⟨-, -, same⟩ | ⟨-, -, -, -, same⟩ <;> rw [same] at emitted
  · cases emitted
  · rw [List.mem_singleton.1 emitted]
    trivial
  · cases emitted

private theorem handleNewOrder_fromEngine {order : NewOrder} (named : order.symbol = only)
    (emitted : event ∈ (engine.handleNewOrder order).2) : FromEngine only event := by
  rcases engine.handleNewOrder_cases order with
    ⟨reason, same⟩ | ⟨price, -, -, -, -, ⟨-, same⟩ | ⟨-, same⟩⟩ <;> rw [same] at emitted
  · rw [List.mem_singleton.1 emitted]
    trivial
  · rw [List.mem_singleton.1 emitted]
    trivial
  · let bookOrder := newBookOrder engine.markPrice order price
    have symbol : bookOrder.symbol = only := named
    rcases engine.matchNewOrder_cases bookOrder order.timestamp with ⟨-, same⟩ | ⟨-, same⟩ <;>
      rw [same] at emitted
    · rw [List.mem_singleton.1 emitted]
      trivial
    · dsimp only at emitted
      rw [symbol, List.cons_append, List.mem_cons, List.mem_append] at emitted
      rcases emitted with rfl | filled | placed
      · trivial
      · exact absorb_fromEngine filled
      · exact placeRemaining_fromEngine placed

private theorem handleCancelOrder_fromEngine {orderId : OrderId} {userId : UserId}
    {timestamp : UnixMicros}
    (emitted : event ∈ (engine.handleCancelOrder orderId userId timestamp).2) :
    FromEngine only event := by
  rcases engine.handleCancelOrder_cases orderId userId timestamp with
    ⟨-, -, same⟩ | ⟨order, -, -, same⟩ | ⟨order, -, -, same⟩ | ⟨order, -, -, -, same⟩ |
      ⟨order, -, -, -, same⟩ <;>
  · rw [same, List.mem_singleton] at emitted
    rw [emitted]
    trivial

private theorem reinsertAmended_fromEngine {old : BookOrder} {amend : AmendOrder}
    (named : amend.symbol = only) (emitted : event ∈ (engine.reinsertAmended old amend).2) :
    FromEngine only event := by
  rcases engine.reinsertAmended_cases old amend with ⟨reason, -, same⟩ | ⟨-, -, same⟩ <;>
    rw [same] at emitted
  · simp only [List.mem_cons, List.not_mem_nil, or_false] at emitted
    rcases emitted with rfl | rfl <;> trivial
  · dsimp only at emitted
    rw [named, List.mem_cons, List.mem_cons] at emitted
    rcases emitted with rfl | rfl | filled
    · trivial
    · trivial
    · exact absorb_fromEngine filled

private theorem handleAmendOrder_fromEngine {amend : AmendOrder} (named : amend.symbol = only)
    (emitted : event ∈ (engine.handleAmendOrder amend).2) : FromEngine only event := by
  rcases engine.handleAmendOrder_cases amend with
    ⟨reason, -, same⟩ | ⟨existing, -, -, ⟨-, same⟩ | ⟨-, same⟩ | ⟨-, quantity, -, -, -, same⟩⟩ <;>
    rw [same] at emitted
  · rw [List.mem_singleton.1 emitted]
    trivial
  · exact reinsertAmended_fromEngine named emitted
  · rw [List.mem_singleton.1 emitted]
    trivial
  · rw [List.mem_singleton.1 emitted]
    trivial

private theorem handleCancelAll_fromEngine {userId : UserId} {symbol : SymbolId}
    {timestamp : UnixMicros}
    (emitted : event ∈ (engine.handleCancelAll userId symbol timestamp).2) :
    FromEngine only event := by
  obtain ⟨order, rfl⟩ := engine.canceled_of_handleCancelAll emitted
  trivial

private theorem triggerOne_fromEngine {order : BookOrder} {timestamp : UnixMicros}
    (named : order.symbol = only) (emitted : event ∈ (engine.triggerOne order timestamp).2) :
    FromEngine only event := by
  have symbol : (matchOrder engine.orderbook (convertTriggered order)).taker.symbol = only :=
    (matchOrder_symbol _ _).trans ((convertTriggered_frame order).2.2.1.trans named)
  have matched := engine.mem_triggerOne emitted
  simp only [symbol] at matched
  exact absorb_fromEngine matched

private theorem triggerAll_fromEngine {pending : List BookOrder} {timestamp : UnixMicros}
    (named : ∀ order ∈ pending, order.symbol = only)
    (emitted : event ∈ (triggerAll timestamp engine pending).2) : FromEngine only event := by
  obtain ⟨reached, order, member, triggered⟩ := engine.mem_triggerAll emitted
  exact triggerOne_fromEngine (named order member) triggered

theorem WaitingFor.applyMarkIndexPassive (waiting : engine.WaitingFor only)
    (mark index : Decimal128) : (engine.applyMarkIndexPassive mark index).WaitingFor only := by
  intro stop member
  obtain ⟨before, old, rfl⟩ := List.mem_map.1 member
  exact (updateTrailingPeak_symbol mark before).trans (waiting before old)

private theorem updateMarkPrice_fromEngine (waiting : engine.WaitingFor only) {symbol : SymbolId}
    {mark index : Decimal128} {timestamp : UnixMicros}
    (emitted : event ∈ (engine.updateMarkPrice symbol mark index timestamp).2) :
    FromEngine only event := by
  rw [updateMarkPrice, List.mem_cons] at emitted
  rcases emitted with rfl | triggered
  · trivial
  · refine triggerAll_fromEngine (fun order member => ?_) triggered
    have scanned := swapScan_perm (shouldTrigger mark)
      (engine.applyMarkIndexPassive mark index).stopOrders
    exact waiting.applyMarkIndexPassive mark index order
      (scanned.subset (List.mem_append_left _ member))

/-! ## Commands -/

/-- The events of a command are about the symbol it names. -/
theorem processCommand_fromEngine (waiting : engine.WaitingFor only) {command : Command}
    (named : ∀ symbol ∈ command.symbol?, symbol = only)
    (emitted : event ∈ (engine.processCommand command).2) : FromEngine only event := by
  have counted : { engine with sequence := engine.sequence + 1 }.WaitingFor only := waiting
  cases command with
  | newOrder order => exact handleNewOrder_fromEngine (named order.symbol rfl) emitted
  | cancelOrder orderId userId symbol timestamp => exact handleCancelOrder_fromEngine emitted
  | amendOrder amend => exact handleAmendOrder_fromEngine (named amend.symbol rfl) emitted
  | cancelAllOrders userId symbol timestamp => exact handleCancelAll_fromEngine emitted
  | updateMarkPrice symbol mark index timestamp => exact updateMarkPrice_fromEngine counted emitted
  | computeFunding symbol timestamp =>
      rw [List.mem_singleton.1 emitted]
      trivial
  | adminCredit userId amount key timestamp => cases emitted

/-- A command that names the symbol leaves only orders for it waiting. -/
theorem WaitingFor.processCommand (waiting : engine.WaitingFor only) {command : Command}
    (named : ∀ symbol ∈ command.symbol?, symbol = only) :
    (engine.processCommand command).1.WaitingFor only := by
  refine WaitingFor.step waiting (.command command) fun order same => ?_
  cases same
  exact named order.symbol rfl

end MatchingEngine
end Exg
