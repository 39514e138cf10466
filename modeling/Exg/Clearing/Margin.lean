import Exg.Clearing.Atomicity
import Mathlib.Algebra.Order.BigOperators.Group.List
import Mathlib.Algebra.Order.Ring.Int

/-!
# Margin of positions and of wallets

A user's positions hold margin, and so does the user's Futures wallet.  A granted stage
with a new key moves both by the same amount, as long as a position that is closed whole
releases all of its margin in spite of the rounding.
-/

namespace Exg

open Support
open Ledger (LedgerCall Effect Accepts)

/-- A part of a margin in the proportion of two sizes is at most the margin. -/
theorem Decimal128.mul_div_le {margin quantity size : Decimal128} (nonneg : 0 ≤ margin)
    (positive : 0 < size) (within : quantity ≤ size) : margin * quantity / size ≤ margin := by
  rw [Decimal128.le_iff_raw] at nonneg within ⊢
  rw [Decimal128.lt_iff_raw] at positive
  change ((margin.raw * quantity.raw).tdiv scale * scale).tdiv size.raw ≤ margin.raw
  have product : margin.raw * quantity.raw ≤ margin.raw * size.raw :=
    mul_le_mul_of_nonneg_left within nonneg
  have scaled : (margin.raw * quantity.raw).tdiv scale * scale ≤ margin.raw * size.raw := by
    by_cases sign : 0 ≤ margin.raw * quantity.raw
    · rw [mul_comm]
      exact (Int.mul_tdiv_self_le sign).trans product
    · have below : (margin.raw * quantity.raw).tdiv scale ≤ 0 :=
        (Int.tdiv_le_tdiv (by decide) (not_le.1 sign).le).trans_eq (Int.zero_tdiv scale)
      exact (mul_nonpos_of_nonpos_of_nonneg below (by decide)).trans
        (mul_nonneg nonneg positive.le)
  calc ((margin.raw * quantity.raw).tdiv scale * scale).tdiv size.raw
      ≤ (margin.raw * size.raw).tdiv size.raw := Int.tdiv_le_tdiv positive scaled
    _ = margin.raw := Int.mul_tdiv_cancel _ positive.ne'

namespace PositionManager

variable {manager : PositionManager} {userId : UserId} {symbol : SymbolId}

/-- The margin of all positions of a user. -/
def userMargin (manager : PositionManager) (userId : UserId) : Decimal128 :=
  mapTotal (fun key position => if key.1 = userId then position.margin else 0) manager.positions

/-- The margin of one position. -/
def marginAt (manager : PositionManager) (userId : UserId) (symbol : SymbolId) : Decimal128 :=
  (manager.getPosition userId symbol).elim 0 Position.margin

theorem userMargin_insert (position : Position) (other : UserId) :
    userMargin ⟨manager.positions.insert (userId, symbol) position⟩ other =
      manager.userMargin other +
        if userId = other then position.margin - manager.marginAt userId symbol else 0 := by
  rw [userMargin, mapTotal_insert_eq, marginAt, getPosition, userMargin]
  by_cases same : userId = other
  · simp only [if_pos same]
  · simp only [if_neg same]
    cases manager.positions[(userId, symbol)]? <;> simp

private theorem userMargin_erase (other : UserId) :
    userMargin ⟨manager.positions.erase (userId, symbol)⟩ other =
      manager.userMargin other -
        if userId = other then manager.marginAt userId symbol else 0 := by
  rw [userMargin, mapTotal_erase_eq, marginAt, getPosition, userMargin]
  by_cases same : userId = other
  · simp only [if_pos same]
  · simp only [if_neg same]
    cases manager.positions[(userId, symbol)]? <;> simp

/-- No position has a negative margin. -/
def MarginsNonneg (manager : PositionManager) : Prop :=
  ∀ userId symbol position, manager.getPosition userId symbol = some position →
    0 ≤ position.margin

theorem MarginsNonneg.insert (nonneg : manager.MarginsNonneg) {position : Position}
    (own : 0 ≤ position.margin) :
    MarginsNonneg ⟨manager.positions.insert (userId, symbol) position⟩ :=
  everyPosition_insert nonneg own

theorem MarginsNonneg.erase (nonneg : manager.MarginsNonneg) :
    MarginsNonneg ⟨manager.positions.erase (userId, symbol)⟩ :=
  everyPosition_erase nonneg

/-- One position has at most the margin of all of them. -/
theorem MarginsNonneg.le_userMargin (nonneg : manager.MarginsNonneg) {position : Position}
    (found : manager.getPosition userId symbol = some position) :
    position.margin ≤ manager.userMargin userId := by
  rw [userMargin, mapTotal_split _ manager.positions (userId, symbol)]
  have held : manager.positions[(userId, symbol)]? = some position := found
  rw [held, Option.elim_some, if_pos rfl]
  apply le_add_of_nonneg_right
  apply List.sum_nonneg
  intro amount member
  obtain ⟨⟨⟨otherUser, otherSymbol⟩, other⟩, listed, rfl⟩ := List.mem_map.1 member
  have stored := Std.ExtTreeMap.mem_toList_iff_getElem?_eq_some.1 (List.mem_filter.1 listed).1
  simp only
  split
  · exact nonneg otherUser otherSymbol other stored
  · exact le_rfl

end PositionManager

/-! ## One granted call -/

namespace ClearingService

variable {manager : PositionManager} {ledger : Ledger} {call : LedgerCall} {key : String}

/-- A granted call with a key of its own was a duplicate, or has been carried out. -/
theorem granted_cases (granted : (askLedger ledger call).2 = none) (keyed : call.key? = some key)
    (active : ¬call.Idle) :
    (key ∈ ledger.idempotencyKeys ∧ (askLedger ledger call).1 = ledger) ∨
      (Accepts ledger call key ∧
        Effect (ledger.addKey key) (askLedger ledger call).1 (ledger.postings call)
          (ledger.bookings call)) := by
  have done := done_of_granted granted
  have outcome := Ledger.perform_outcome ledger call
  rw [askLedger]
  generalize ledger.perform call = next at outcome done
  cases outcome with
  | idle idle => exact absurd idle active
  | repeated other used =>
      obtain rfl := Option.some.inj (other.symm.trans keyed)
      exact Or.inl ⟨used, rfl⟩
  | opened same =>
      subst same
      cases keyed
  | performed accepts within effect =>
      obtain rfl := Option.some.inj (accepts.keyed.symm.trans keyed)
      exact Or.inr ⟨accepts, effect⟩
  | refused | orphaned | short | panicked => cases done

/-- What a granted call with an unused key does to the slots and the keys. -/
theorem granted_effect (granted : (askLedger ledger call).2 = none)
    (keyed : call.key? = some key) (active : ¬call.Idle)
    (unused : key ∉ ledger.idempotencyKeys) :
    (∀ slot, (askLedger ledger call).1.holding slot =
        ledger.holding slot + netAt (ledger.postings call) slot) ∧
      (askLedger ledger call).1.idempotencyKeys = key :: ledger.idempotencyKeys := by
  rcases granted_cases granted keyed active with ⟨used, -⟩ | ⟨-, effect⟩
  · exact absurd used unused
  · refine ⟨fun slot => ?_, effect.keys⟩
    rw [effect.holding, Ledger.holding_addKey]

theorem netAt_feePostings (fee : Decimal128) (userId : UserId) (wallet : WalletType)
    (field : BalanceField) : netAt (Ledger.feePostings fee) (.user userId wallet field) = 0 := by
  rw [Ledger.feePostings]
  split <;> simp

/-- A surplus goes from escrow into the insurance fund, and a deficit the other way. -/
theorem netAt_surplusPostings (surplus : Decimal128) (slot : Slot) :
    netAt (Ledger.surplusPostings surplus) slot =
      (if .system .insuranceFund = slot then surplus else 0) -
        if .system .escrow = slot then surplus else 0 := by
  have signed : (if .system .escrow = slot then -surplus else 0) =
      -if .system .escrow = slot then surplus else 0 := by
    rw [apply_ite Neg.neg, neg_zero]
  rw [Ledger.surplusPostings]
  split
  · rw [netAt_cons, netAt_cons, netAt_nil, add_zero, signed, neg_add_eq_sub]
  · split
    · rename_i negative
      have size := Decimal128.abs_of_nonpos (Decimal128.isNegative_iff.1 negative).le
      rw [netAt_cons, netAt_cons, netAt_nil, add_zero, size, neg_neg, signed, sub_eq_add_neg]
    · rename_i nonpos nonneg
      rw [Decimal128.isPositive_iff, not_lt] at nonpos
      rw [Decimal128.isNegative_iff, not_lt] at nonneg
      rw [le_antisymm nonpos nonneg, ite_self, ite_self, sub_zero, netAt_nil]

/-- Positions and wallets hold the same margin for every user. -/
structure Agrees (manager : PositionManager) (ledger : Ledger) : Prop where
  nonneg : manager.MarginsNonneg
  margins : ∀ userId, manager.userMargin userId = ledger.holding (.user userId .futures .margin)

/-! ## One granted stage -/

section Stages

variable {userId : UserId} {symbol : SymbolId} {position : Position}
variable {quantity price fee : Decimal128} {timestamp : UnixMicros}

theorem Agrees.reduction (agrees : Agrees manager ledger) (tidy : manager.Tidy)
    (found : manager.getPosition userId symbol = some position)
    (within : quantity ≤ position.size)
    (whole : quantity = position.size →
      position.margin * quantity / position.size = position.margin)
    (unused : key ∉ ledger.idempotencyKeys)
    (granted : (askLedger ledger (ClearingStage.reduction manager userId symbol quantity price
      fee key timestamp).call).2 = none) :
    Agrees (manager.afterReduction userId symbol quantity price)
      (askLedger ledger (ClearingStage.reduction manager userId symbol quantity price fee key
        timestamp).call).1 := by
  have effect := (granted_effect granted rfl id unused).1
  have released : (manager.calcMarginReleased userId symbol quantity).getD 0 =
      position.margin * quantity / position.size := by
    simp [PositionManager.calcMarginReleased, found]
  have ledgerMargin : ∀ other, (askLedger ledger (ClearingStage.reduction manager userId symbol
      quantity price fee key timestamp).call).1.holding (.user other .futures .margin) =
        ledger.holding (.user other .futures .margin) -
          if userId = other then position.margin * quantity / position.size else 0 := by
    intro other
    rw [effect]
    simp only [ClearingStage.reduction, Ledger.postings, released, netAt_append, netAt_cons,
      netAt_nil, netAt_feePostings]
    by_cases same : userId = other <;> simp [same, sub_eq_add_neg]
  have held : manager.marginAt userId symbol = position.margin := by
    simp [PositionManager.marginAt, found]
  by_cases all : position.size - quantity = 0
  · have shape : manager.afterReduction userId symbol quantity price =
        ⟨manager.positions.erase (userId, symbol)⟩ := by
      simp [PositionManager.afterReduction, PositionManager.reduceOrClose, found, not_lt.2 within,
        all]
    have full := whole (sub_eq_zero.1 all).symm
    rw [shape]
    refine ⟨agrees.nonneg.erase, fun other => ?_⟩
    rw [PositionManager.userMargin_erase, held, ledgerMargin, agrees.margins, full]
  · have shape : manager.afterReduction userId symbol quantity price =
        ⟨manager.positions.insert (userId, symbol)
          { position with
            size := position.size - quantity
            margin := position.margin - position.margin * quantity / position.size }⟩ := by
      simp [PositionManager.afterReduction, PositionManager.reduceOrClose, found, not_lt.2 within,
        all]
    rw [shape]
    constructor
    · apply agrees.nonneg.insert
      exact sub_nonneg.2 (Decimal128.mul_div_le (agrees.nonneg _ _ _ found)
        (tidy.positive _ _ _ found) within)
    · intro other
      rw [PositionManager.userMargin_insert, held, ledgerMargin, agrees.margins]
      by_cases same : userId = other
      · simp only [if_pos same]
        abel
      · simp [same]

theorem Agrees.opening {side : TradeSide} {closeQty openQty : Decimal128}
    (agrees : Agrees manager ledger) (unused : side.openKey ∉ ledger.idempotencyKeys)
    (granted : (askLedger ledger (ClearingStage.opening side closeQty openQty).call).2 = none) :
    Agrees (manager.openOrIncrease side.userId side.symbol side.intendedSide openQty side.price
        side.leverage side.marginMode)
      (askLedger ledger (ClearingStage.opening side closeQty openQty).call).1 := by
  have effect := (granted_effect granted rfl id unused).1
  have positive : 0 < openQty * side.price / side.leverage := by
    rcases granted_cases granted rfl id with ⟨used, -⟩ | ⟨accepts, -⟩
    · exact absurd used unused
    · have valid := accepts.valid
      simp only [ClearingStage.opening, LedgerCall.invalid, Ledger.requirePositive] at valid
      split at valid
      · rename_i sign
        exact Decimal128.isPositive_iff.1 sign
      · cases valid
  have before : ((manager.getPosition side.userId side.symbol).getD
      (PositionManager.emptyPosition side.userId side.symbol side.intendedSide side.leverage
        side.marginMode)).margin = manager.marginAt side.userId side.symbol := by
    rw [PositionManager.marginAt]
    cases manager.getPosition side.userId side.symbol <;> rfl
  rw [PositionManager.openOrIncrease]
  constructor
  · apply agrees.nonneg.insert
    refine add_nonneg ?_ positive.le
    rw [before, PositionManager.marginAt]
    cases found : manager.getPosition side.userId side.symbol with
    | none => exact le_rfl
    | some position => exact agrees.nonneg _ _ _ found
  · intro other
    rw [PositionManager.userMargin_insert, before, effect, agrees.margins]
    simp only [ClearingStage.opening, Ledger.postings, netAt_append, netAt_cons, netAt_nil,
      netAt_feePostings]
    by_cases same : side.userId = other <;> simp [same]

theorem Agrees.seizure {exitPrice : Decimal128} {now : UnixMicros}
    (agrees : Agrees manager ledger) (found : manager.getPosition userId symbol = some position)
    (unused : liquidationKey userId symbol ∉ ledger.idempotencyKeys)
    (granted : (askLedger ledger
      (ClearingStage.seizure position userId symbol exitPrice now).call).2 = none) :
    Agrees ⟨manager.positions.erase (userId, symbol)⟩
      (askLedger ledger (ClearingStage.seizure position userId symbol exitPrice now).call).1 := by
  have effect := (granted_effect granted rfl id unused).1
  have held : manager.marginAt userId symbol = position.margin := by
    simp [PositionManager.marginAt, found]
  refine ⟨agrees.nonneg.erase, fun other => ?_⟩
  rw [PositionManager.userMargin_erase, held, effect, agrees.margins]
  simp only [ClearingStage.seizure, Ledger.postings, netAt_append, netAt_cons, netAt_nil,
    netAt_surplusPostings]
  by_cases same : userId = other <;> simp [same, sub_eq_add_neg]

end Stages

end ClearingService
end Exg
