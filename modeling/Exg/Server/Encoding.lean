import Exg.Server.MatchingThread
import Mathlib.Data.Nat.Digits.Lemmas
import Mathlib.Logic.Equiv.List
import Mathlib.Tactic.DeriveEncodable

/-!
# Encodings of commands and events

Every value has a number, and so an encoding whose decoder gives it back.  Numbers of whole
commands are long; the values of a list are written in one byte.
-/

namespace Exg

instance encodableChar : Encodable Char :=
  Encodable.ofLeftInverse Char.toNat Char.ofNat Char.ofNat_toNat

instance encodableString : Encodable String :=
  Encodable.ofLeftInverse String.toList String.ofList fun _ => String.ofList_toList

deriving instance Encodable for Decimal128
deriving instance Encodable for Side
deriving instance Encodable for OrderType
deriving instance Encodable for TimeInForce
deriving instance Encodable for MarginMode
deriving instance Encodable for PositionSide
deriving instance Encodable for RejectReason
deriving instance Encodable for NewOrder
deriving instance Encodable for AmendOrder
deriving instance Encodable for Command
deriving instance Encodable for OrderAccepted
deriving instance Encodable for OrderFilled
deriving instance Encodable for TradeExecuted
deriving instance Encodable for Event

/-- An encoding that writes the listed values in one byte, and others behind two more. -/
def Codec.listed {α : Type} [DecidableEq α] [Encodable α] (values : List α)
    (few : values.length ≤ 256) : Codec α where
  toBytes value :=
    if value ∈ values then [.ofNat (values.idxOf value)]
    else 0 :: 0 :: (Nat.digits 256 (Encodable.encode value)).map .ofNat
  fromBytes bytes :=
    let found := match bytes with
      | [index] => values[index.toNat]?
      | _ => Encodable.decode (Nat.ofDigits 256 ((bytes.drop 2).map UInt8.toNat))
    match found with
    | some value => .ok value
    | none => .error "unknown value"
  fromBytes_toBytes value := by
    by_cases listed : value ∈ values
    · have index := List.idxOf_lt_length_of_mem listed
      simp [listed, Nat.mod_eq_of_lt (lt_of_lt_of_le index few)]
    · have digits : ((Nat.digits 256 (Encodable.encode value)).map UInt8.ofNat).map UInt8.toNat =
          Nat.digits 256 (Encodable.encode value) := by
        rw [List.map_map]
        refine (List.map_congr_left fun digit member => ?_).trans (List.map_id _)
        have small := Nat.digits_lt_base (by decide) member
        simp [Nat.mod_eq_of_lt small]
      simp only [listed, if_false, List.drop_succ_cons, List.drop_zero, digits,
        Nat.ofDigits_digits, Encodable.encodek]

end Exg
