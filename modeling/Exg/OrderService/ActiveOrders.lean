import Exg.OrderService.Service
import Mathlib.Logic.Function.Basic

/-!
# Active orders

What the order service says of an active order is its owner, its side and what is open of it.
As long as no fill repeats a trade id for the same order, commands and events act on these
alone: every event updates the entry of one order.
-/

namespace Exg

/-- What an active order stands for. -/
structure ActiveOrder where
  userId : UserId
  side : Side
  openQty : Decimal128
  deriving DecidableEq, Repr

/-- The active orders by id. -/
abbrev ActiveOrders := OrderId → Option ActiveOrder

def Order.active (order : Order) : ActiveOrder := ⟨order.userId, order.side, order.remainingQty⟩

/-- What is left of an entry when an order is reported to have a quantity remaining. -/
def settle (remainingQty : Decimal128) (entry : Option ActiveOrder) : Option ActiveOrder :=
  if remainingQty = 0 then
    none
  else
    entry.map fun order => { order with openQty := remainingQty }

@[simp]
theorem settle_none (remainingQty : Decimal128) : settle remainingQty none = none := by
  rw [settle]
  split <;> rfl

@[simp]
theorem settle_zero (entry : Option ActiveOrder) : settle 0 entry = none := if_pos rfl

/-- The same report twice says what it says once. -/
@[simp]
theorem settle_settle (remainingQty : Decimal128) (entry : Option ActiveOrder) :
    settle remainingQty (settle remainingQty entry) = settle remainingQty entry := by
  by_cases nothing : remainingQty = 0
  · rw [nothing, settle_zero, settle_zero]
  · cases entry with
    | none => simp
    | some order => simp [settle, nothing]

/-- What an order service receives: new orders before they are processed, and events. -/
inductive OrderInput where
  | create (order : NewOrder)
  | event (emitted : Event)
  deriving DecidableEq, Repr

def OrderInput.legKey? : OrderInput → Option (OrderId × TradeId)
  | .create _ => none
  | .event emitted => emitted.legKey?

namespace ActiveOrders

/-- What an input means for the active orders. -/
def step (active : ActiveOrders) : OrderInput → ActiveOrders
  | .create order =>
      Function.update active order.orderId
        (some ((active order.orderId).getD ⟨order.userId, order.side, order.quantity⟩))
  | .event (.orderAccepted accepted) =>
      Function.update active accepted.orderId
        (some ((active accepted.orderId).getD ⟨accepted.userId, .buy, 0⟩))
  | .event (.orderRejected orderId _ _ _) => Function.update active orderId none
  | .event (.orderCanceled orderId _ _ _ _) => Function.update active orderId none
  | .event (.orderFilled filled) =>
      Function.update active filled.orderId (settle filled.remainingQty (active filled.orderId))
  | .event _ => active

def receive (active : ActiveOrders) (inputs : List OrderInput) : ActiveOrders :=
  inputs.foldl step active

@[simp]
theorem receive_nil (active : ActiveOrders) : active.receive [] = active := rfl

@[simp]
theorem receive_cons (active : ActiveOrders) (input : OrderInput) (rest : List OrderInput) :
    active.receive (input :: rest) = (active.step input).receive rest := rfl

theorem receive_append (active : ActiveOrders) (before after : List OrderInput) :
    active.receive (before ++ after) = (active.receive before).receive after :=
  List.foldl_append

/-- Accepting an order that is already active says nothing new. -/
theorem step_accepted {active : ActiveOrders} {accepted : OrderAccepted} {order : ActiveOrder}
    (stored : active accepted.orderId = some order) :
    active.step (.event (.orderAccepted accepted)) = active := by
  rw [step, stored, Option.getD_some, ← stored, Function.update_eq_self]

end ActiveOrders

namespace OrderService

def step (service : OrderService) : OrderInput → OrderService
  | .create order => (service.createOrder (.newOrder order)).1
  | .event emitted => service.applyEvent emitted

def receive (service : OrderService) (inputs : List OrderInput) : OrderService :=
  inputs.foldl step service

def activeOrders (service : OrderService) : ActiveOrders := fun orderId =>
  (service.getOrder orderId).map Order.active

/-! ## Stored records -/

section GetOrder

variable (service : OrderService) (orderId : OrderId) (order : Order) (other : OrderId)

theorem getOrder_new (maxCompletedHistory : Nat) :
    (new maxCompletedHistory).getOrder orderId = none := by
  simp [getOrder, new]

theorem getOrder_insertRecord :
    (service.insertRecord order).getOrder other =
      if order.orderId = other then some order else service.getOrder other := by
  simp [getOrder, insertRecord, Std.ExtTreeMap.getElem?_insert]

theorem getOrder_updateRecord :
    (service.updateRecord orderId order).getOrder other =
      if orderId = other then some order else service.getOrder other := by
  simp [getOrder, updateRecord, Std.ExtTreeMap.getElem?_insert]

private theorem getOrder_pushCompleted :
    (service.pushCompleted order).getOrder other = service.getOrder other := rfl

theorem getOrder_moveToCompleted (userId : UserId) :
    (service.moveToCompleted orderId userId).getOrder other =
      if orderId = other then none else service.getOrder other := by
  rw [moveToCompleted]
  cases found : service.getOrder orderId with
  | none =>
      by_cases own : orderId = other
      · rw [if_pos own, ← own]
        exact found
      · rw [if_neg own]
  | some order =>
      change (service.orders.erase orderId)[other]? = _
      simp [getOrder, Std.ExtTreeMap.getElem?_erase]

/-- A record that is updated and completed at once is gone. -/
theorem getOrder_completed (userId : UserId) :
    ((service.updateRecord orderId order).moveToCompleted orderId userId).getOrder other =
      if orderId = other then none else service.getOrder other := by
  rw [getOrder_moveToCompleted, getOrder_updateRecord]
  by_cases own : orderId = other
  · rw [if_pos own, if_pos own]
  · rw [if_neg own, if_neg own, if_neg own]

/-- An order that is active has not ended yet. -/
def Unended (service : OrderService) (orderId : OrderId) : Prop :=
  ∀ order, service.getOrder orderId = some order → order.status.isTerminal = false

variable {service orderId order} in
theorem Unended.not_terminal (unended : service.Unended orderId)
    (found : service.getOrder orderId = some order) : ¬order.status.isTerminal = true := by
  simp [unended order found]

theorem getOrder_handleOrderRejected (unended : service.Unended orderId) (userId : UserId)
    (timestamp : UnixMicros) :
    (service.handleOrderRejected orderId userId timestamp).getOrder other =
      if orderId = other then none else service.getOrder other := by
  rw [handleOrderRejected]
  cases found : service.getOrder orderId with
  | none =>
      have absent : service.getOrder other =
          if orderId = other then none else service.getOrder other := by
        split
        case isTrue own => rw [← own, found]
        case isFalse => rfl
      dsimp only
      split
      · exact absent
      · rw [getOrder_pushCompleted]
        exact absent
  | some order =>
      dsimp only
      rw [if_neg (unended.not_terminal found), getOrder_completed]

theorem getOrder_handleOrderCanceled (unended : service.Unended orderId)
    (timestamp : UnixMicros) :
    (service.handleOrderCanceled orderId timestamp).getOrder other =
      if orderId = other then none else service.getOrder other := by
  rw [handleOrderCanceled]
  cases found : service.getOrder orderId with
  | none =>
      dsimp only
      split
      case isTrue own => rw [← own, found]
      case isFalse => rfl
  | some order =>
      dsimp only
      rw [if_neg (unended.not_terminal found), getOrder_completed]

end GetOrder

/-! ## The service acts on its active orders -/

/-- The service keeps these active orders, none of them in a terminal state, and has recorded
fills of these trades only. -/
structure Represents (service : OrderService) (active : ActiveOrders)
    (legs : List (OrderId × TradeId)) : Prop where
  active_eq : ∀ orderId, (service.getOrder orderId).map Order.active = active orderId
  unfinished : ∀ {orderId order}, service.getOrder orderId = some order →
    order.status.isTerminal = false
  recorded : ∀ {orderId order}, service.getOrder orderId = some order →
    ∀ fill ∈ order.fills, (orderId, fill.tradeId) ∈ legs

variable {service next : OrderService} {active : ActiveOrders}
variable {legs more : List (OrderId × TradeId)}

theorem represents_new (maxCompletedHistory : Nat) :
    (new maxCompletedHistory).Represents (fun _ => none) [] where
  active_eq orderId := by rw [getOrder_new, Option.map_none]
  unfinished found := by
    rw [getOrder_new] at found
    cases found
  recorded found := by
    rw [getOrder_new] at found
    cases found

/-- One entry is replaced. -/
theorem Represents.set (represents : service.Represents active legs) {orderId : OrderId}
    {entry : Option Order}
    (stored : ∀ other, next.getOrder other =
      if orderId = other then entry else service.getOrder other)
    (unfinished : ∀ order, entry = some order → order.status.isTerminal = false)
    (recorded : ∀ order, entry = some order → ∀ fill ∈ order.fills, (orderId, fill.tradeId) ∈ more)
    (grows : legs ⊆ more) :
    next.Represents (Function.update active orderId (entry.map Order.active)) more where
  active_eq other := by
    rw [stored]
    by_cases own : orderId = other
    · rw [if_pos own, ← own, Function.update_self]
    · rw [if_neg own, Function.update_of_ne (Ne.symm own)]
      exact represents.active_eq other
  unfinished {other order} found := by
    rw [stored] at found
    by_cases own : orderId = other
    · rw [if_pos own] at found
      exact unfinished order found
    · rw [if_neg own] at found
      exact represents.unfinished found
  recorded {other order} found := by
    rw [stored] at found
    by_cases own : orderId = other
    · rw [if_pos own] at found
      rw [← own]
      exact recorded order found
    · rw [if_neg own] at found
      exact fun fill member => grows (represents.recorded found fill member)

/-- One entry is removed. -/
theorem Represents.remove (represents : service.Represents active legs) {orderId : OrderId}
    (stored : ∀ other, next.getOrder other =
      if orderId = other then none else service.getOrder other) :
    next.Represents (Function.update active orderId none) legs :=
  represents.set stored (fun _ absent => by cases absent) (fun _ absent => by cases absent)
    (List.Subset.refl legs)

theorem Represents.of_same (represents : service.Represents active legs)
    (stored : ∀ orderId, next.getOrder orderId = service.getOrder orderId) :
    next.Represents active legs where
  active_eq orderId := by
    rw [stored]
    exact represents.active_eq orderId
  unfinished found := by
    rw [stored] at found
    exact represents.unfinished found
  recorded found := by
    rw [stored] at found
    exact represents.recorded found

private theorem Represents.none_of_none (represents : service.Represents active legs)
    {orderId : OrderId} (missing : service.getOrder orderId = none) : active orderId = none := by
  rw [← represents.active_eq, missing]
  rfl

private theorem Represents.some_of_some (represents : service.Represents active legs)
    {orderId : OrderId} {order : Order} (found : service.getOrder orderId = some order) :
    active orderId = some order.active := by
  rw [← represents.active_eq, found]
  rfl

theorem Represents.createOrder (represents : service.Represents active legs) (order : NewOrder) :
    (service.createOrder (.newOrder order)).1.Represents (active.step (.create order)) legs := by
  rw [OrderService.createOrder, ActiveOrders.step]
  cases found : service.getOrder order.orderId with
  | some existing =>
      rw [represents.some_of_some found, Option.getD_some, ← represents.some_of_some found,
        Function.update_eq_self]
      exact represents
  | none =>
      rw [represents.none_of_none found, Option.getD_none]
      apply represents.set (getOrder_insertRecord service order.record)
      · rintro _ ⟨⟩
        rfl
      · rintro _ ⟨⟩ fill member
        cases member
      · exact List.Subset.refl legs

theorem Represents.handleOrderAccepted (represents : service.Represents active legs)
    (accepted : OrderAccepted) :
    (service.applyEvent (.orderAccepted accepted)).Represents
      (active.step (.event (.orderAccepted accepted))) legs := by
  rw [applyEvent, OrderService.handleOrderAccepted, ActiveOrders.step]
  cases found : service.getOrder accepted.orderId with
  | some order =>
      have same := represents.some_of_some found
      rw [same, Option.getD_some]
      dsimp only
      split
      · rw [← same, Function.update_eq_self]
        exact represents
      · rename_i fresh
        rw [not_or, not_not] at fresh
        apply represents.set (getOrder_updateRecord service accepted.orderId _)
        · rintro _ ⟨⟩
          dsimp only
          split
          · rfl
          · exact represents.unfinished found
        · rintro _ ⟨⟩ fill member
          exact represents.recorded found fill member
        · exact List.Subset.refl legs
  | none =>
      rw [represents.none_of_none found, Option.getD_none]
      apply represents.set (getOrder_insertRecord service _)
      · rintro _ ⟨⟩
        rfl
      · rintro _ ⟨⟩ fill member
        cases member
      · exact List.Subset.refl legs

theorem Represents.handleOrderRejected (represents : service.Represents active legs)
    (orderId : OrderId) (userId : UserId) (timestamp : UnixMicros) :
    (service.handleOrderRejected orderId userId timestamp).Represents
      (Function.update active orderId none) legs :=
  represents.remove fun other => getOrder_handleOrderRejected service orderId other
    (fun _ found => represents.unfinished found) userId timestamp

theorem Represents.handleOrderCanceled (represents : service.Represents active legs)
    (orderId : OrderId) (timestamp : UnixMicros) :
    (service.handleOrderCanceled orderId timestamp).Represents
      (Function.update active orderId none) legs :=
  represents.remove fun other => getOrder_handleOrderCanceled service orderId other
    (fun _ found => represents.unfinished found) timestamp

/-- A fill of a trade that is not recorded sets what is left of its order. -/
theorem Represents.handleOrderFilled (represents : service.Represents active legs)
    {filled : OrderFilled} (unrecorded : (filled.orderId, filled.tradeId) ∉ legs) :
    (service.applyEvent (.orderFilled filled)).Represents
      (active.step (.event (.orderFilled filled)))
      (legs ++ [(filled.orderId, filled.tradeId)]) := by
  have grows : legs ⊆ legs ++ [(filled.orderId, filled.tradeId)] := List.subset_append_left _ _
  rw [applyEvent, OrderService.handleOrderFilled, ActiveOrders.step]
  cases found : service.getOrder filled.orderId with
  | none =>
      rw [represents.none_of_none found, settle_none, ← represents.none_of_none found,
        Function.update_eq_self]
      exact ⟨represents.active_eq, represents.unfinished,
        fun stored fill member => grows (represents.recorded stored fill member)⟩
  | some order =>
      have unseen : ¬(order.fills.any fun fill => fill.tradeId = filled.tradeId) = true := by
        intro seen
        obtain ⟨fill, member, same⟩ := List.any_eq_true.1 seen
        apply unrecorded
        rw [← of_decide_eq_true same]
        exact represents.recorded found fill member
      dsimp only
      rw [if_neg unseen, if_neg (by simp [represents.unfinished found]),
        represents.some_of_some found]
      by_cases nothing : filled.remainingQty = 0
      · rw [if_pos (Decimal128.isZero_iff.2 nothing), nothing, settle_zero]
        apply represents.set (fun other => getOrder_completed service _ _ other order.userId)
        · rintro _ ⟨⟩
        · rintro _ ⟨⟩
        · exact grows
      · have left : ¬filled.remainingQty.isZero = true := by rwa [Decimal128.isZero_iff]
        rw [if_neg left, settle, if_neg nothing]
        apply represents.set (getOrder_updateRecord service filled.orderId _)
        · rintro _ ⟨⟩
          rw [filledRecord, if_neg left]
          rfl
        · rintro _ ⟨⟩ fill member
          rcases List.mem_append.1 member with before | added
          · exact grows (represents.recorded found fill before)
          · rw [List.mem_singleton.1 added]
            exact List.mem_append_right _ (List.mem_singleton_self _)
        · exact grows

/-- The service follows the active orders. -/
theorem Represents.step (represents : service.Represents active legs) {input : OrderInput}
    (unrecorded : ∀ leg ∈ input.legKey?, leg ∉ legs) :
    (service.step input).Represents (active.step input) (legs ++ input.legKey?.toList) := by
  have unchanged : input.legKey? = none → legs ++ input.legKey?.toList = legs := by
    intro none
    rw [none, Option.toList_none, List.append_nil]
  cases input with
  | create order =>
      rw [unchanged rfl]
      exact represents.createOrder order
  | event event =>
      cases event with
      | orderAccepted accepted =>
          rw [unchanged rfl]
          exact represents.handleOrderAccepted accepted
      | orderRejected orderId userId reason timestamp =>
          rw [unchanged rfl]
          exact represents.handleOrderRejected orderId userId timestamp
      | orderCanceled orderId userId symbol remainingQty timestamp =>
          rw [unchanged rfl]
          exact represents.handleOrderCanceled orderId timestamp
      | orderFilled filled => exact represents.handleOrderFilled (unrecorded _ rfl)
      | _ =>
          rw [unchanged rfl]
          exact represents

/-- So it does over any inputs in which no fill repeats a trade for the same order. -/
theorem Represents.receive (represents : service.Represents active legs)
    {inputs : List OrderInput}
    (distinct : (legs ++ inputs.filterMap OrderInput.legKey?).Nodup) :
    (service.receive inputs).Represents (active.receive inputs)
      (legs ++ inputs.filterMap OrderInput.legKey?) := by
  induction inputs generalizing service active legs with
  | nil =>
      rw [List.filterMap_nil, List.append_nil]
      exact represents
  | cons input rest inductionHypothesis =>
      have split : (input :: rest).filterMap OrderInput.legKey? =
          input.legKey?.toList ++ rest.filterMap OrderInput.legKey? := by
        cases leg : input.legKey? <;> simp [leg]
      rw [split, ← List.append_assoc] at distinct ⊢
      have unrecorded : ∀ leg ∈ input.legKey?, leg ∉ legs := by
        intro leg own seen
        have here := (List.nodup_append.1 distinct).1
        exact (List.nodup_append.1 here).2.2 leg seen leg (Option.mem_toList.2 own) rfl
      exact inductionHypothesis (represents.step unrecorded) distinct

end OrderService
end Exg
