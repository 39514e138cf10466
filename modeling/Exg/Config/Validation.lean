import Exg.Common.DecimalGrammar
import Exg.Support.FloatingPoint

/-!
# Validation of a trading symbol's configuration

The configuration holds its decimals as texts.  Validation scans the characters of a text and
reads it as a double, for all comparisons; it does not use the parser of decimals.
-/

namespace Exg

open Support

/-! ## Doubles -/

abbrev F64 := binary64.Number

/-- `strip_prefix(['+', '-'])`: whether the sign is a minus, and what stands after it. -/
def takeSign : List Char → Bool × List Char
  | '-' :: rest => (true, rest)
  | '+' :: rest => (false, rest)
  | text => (false, text)

/-- `f64::from_str`, on texts without letters: the double that is nearest to the number. -/
def F64.fromStr (text : List Char) : Option F64 :=
  let whole := (Decimal128.splitDot (takeSign text).2).1
  let fraction := (Decimal128.splitDot (takeSign text).2).2
  if AllDigits whole ∧ AllDigits fraction ∧ (whole ≠ [] ∨ fraction ≠ []) then
    some (binary64.round (takeSign text).1 (Decimal128.denoted false whole fraction))
  else none

/-! ## Entries of the configuration -/

structure MarginTierEntry where
  notionalFloor : String
  notionalCap : String
  maintenanceMarginRate : String
  maintenanceAmount : String
  deriving DecidableEq, Repr

structure SymbolConfigEntry where
  id : Nat
  name : String
  tickSize : String
  lotSize : String
  minNotional : String
  maxLeverage : String
  makerFee : String
  takerFee : String
  markPrice : String
  marginTiers : List MarginTierEntry
  deriving DecidableEq, Repr

/-- The refusals of validation, with the field they are about. -/
inductive ConfigError where
  | emptyDecimal (field : String)
  | invalidDecimal (field value : String)
  | notPositive (field value : String)
  | negative (field value : String)
  | capNotAboveFloor (field : String) (cap floor : F64)
  | overlaps (field : String) (floor prev : F64)
  deriving DecidableEq

namespace ConfigError

def field : ConfigError → String
  | emptyDecimal field => field
  | invalidDecimal field _ => field
  | notPositive field _ => field
  | negative field _ => field
  | capNotAboveFloor field _ _ => field
  | overlaps field _ _ => field

/-- The message of a validation error, given how doubles are printed. -/
def text (display : F64 → String) : ConfigError → String
  | emptyDecimal field => field ++ ": empty decimal string"
  | invalidDecimal field value => field ++ ": invalid decimal '" ++ value ++ "'"
  | notPositive field value => field ++ ": must be positive, got '" ++ value ++ "'"
  | negative field value => field ++ ": must be non-negative, got '" ++ value ++ "'"
  | capNotAboveFloor field cap floor =>
      field ++ ": notional_cap (" ++ display cap ++ ") must be > notional_floor (" ++
        display floor ++ ")"
  | overlaps field floor prev =>
      field ++ ": notional_floor (" ++ display floor ++ ") overlaps with previous tier cap (" ++
        display prev ++ ")"

end ConfigError

/-! ## Checks of one field -/

/-- The scan of the characters: digits and at most one dot, and whether there was a digit. -/
def scanDecimal : List Char → (hasDigit hasDot : Bool) → Option Bool
  | [], hasDigit, _ => some hasDigit
  | ch :: rest, hasDigit, hasDot =>
      if ch.isDigit then scanDecimal rest true hasDot
      else if ch = '.' ∧ hasDot = false then scanDecimal rest hasDigit true
      else none

def parseDecimal (field value : String) : Except ConfigError F64 :=
  let text := trim value.toList
  if text = [] then .error (.emptyDecimal field)
  else
    let s := (takeSign text).2
    if s = [] then .error (.invalidDecimal field value)
    else
      match scanDecimal s false false with
      | some true =>
          match F64.fromStr text with
          | some number => .ok number
          | none => .error (.invalidDecimal field value)
      | _ => .error (.invalidDecimal field value)

def requirePositive (field value : String) : Except ConfigError Unit := do
  let v ← parseDecimal field value
  if v ≤ 0 then .error (.notPositive field value)
  else .ok ()

def requireNonNegative (field value : String) : Except ConfigError Unit := do
  let v ← parseDecimal field value
  if v < 0 then .error (.negative field value)
  else .ok ()

/-! ## Checks of a symbol -/

/-- The loop over the tiers, with the cap of the tier before. -/
def validateTiers (symbolPrefix : String) :
    Nat → Option F64 → List MarginTierEntry → Except ConfigError Unit
  | _, _, [] => .ok ()
  | i, prevCap, tier :: rest => do
      let tierPrefix := symbolPrefix ++ ".margin_tiers[" ++ toString i ++ "]"
      let floor ← parseDecimal (tierPrefix ++ ".notional_floor") tier.notionalFloor
      let cap ← parseDecimal (tierPrefix ++ ".notional_cap") tier.notionalCap
      let _ ← parseDecimal (tierPrefix ++ ".maintenance_margin_rate") tier.maintenanceMarginRate
      let _ ← parseDecimal (tierPrefix ++ ".maintenance_amount") tier.maintenanceAmount
      if cap ≤ floor then .error (.capNotAboveFloor tierPrefix cap floor)
      else
        match prevCap with
        | some prev =>
            if floor < prev then .error (.overlaps tierPrefix floor prev)
            else validateTiers symbolPrefix (i + 1) (some cap) rest
        | none => validateTiers symbolPrefix (i + 1) (some cap) rest

def validateSymbol (sym : SymbolConfigEntry) : Except ConfigError Unit := do
  let symbolPrefix := "symbol[" ++ sym.name ++ "]"
  requirePositive (symbolPrefix ++ ".tick_size") sym.tickSize
  requirePositive (symbolPrefix ++ ".lot_size") sym.lotSize
  let _ ← parseDecimal (symbolPrefix ++ ".min_notional") sym.minNotional
  let _ ← parseDecimal (symbolPrefix ++ ".max_leverage") sym.maxLeverage
  requireNonNegative (symbolPrefix ++ ".maker_fee") sym.makerFee
  requireNonNegative (symbolPrefix ++ ".taker_fee") sym.takerFee
  requirePositive (symbolPrefix ++ ".mark_price") sym.markPrice
  validateTiers symbolPrefix 0 none sym.marginTiers

/-! ## What a check accepts -/

theorem bind_ok_iff {ε α β : Type} {checked : Except ε α} {rest : α → Except ε β} {result : β} :
    checked >>= rest = .ok result ↔ ∃ value, checked = .ok value ∧ rest value = .ok result := by
  cases checked with
  | error error => exact iff_of_false (fun same => by cases same) (by simp)
  | ok value =>
      constructor
      · exact fun same => ⟨value, rfl, same⟩
      · intro found
        obtain ⟨_, same, later⟩ := found
        cases same
        exact later

namespace Decimal128

/-- The text is a numeral, and the double is the nearest to its number. -/
def ReadsAs (value : String) (number : F64) : Prop :=
  ∃ negative whole fraction, IsNumeral (trim value.toList) negative whole fraction ∧
    number = binary64.round negative (denoted false whole fraction)

theorem IsNumeral.body_ne_nil {text body whole fraction : List Char} {negative : Bool}
    (numeral : IsNumeral text negative whole fraction) (parts : splitDot body = (whole, fraction)) :
    body ≠ [] := by
  intro empty
  rw [empty] at parts
  cases parts
  exact numeral.someDigit.elim (absurd rfl) (absurd rfl)

private theorem takeSign_of_stripSign {text body : List Char} {negative : Bool}
    (stripped : stripSign text = some (negative, body)) : takeSign text = (negative, body) := by
  unfold stripSign at stripped
  split at stripped
  · split at stripped
    · cases stripped
    · cases stripped
      rfl
  · split at stripped
    · cases stripped
    · cases stripped
      rfl
  · rename_i noMinus noPlus
    cases stripped
    unfold takeSign
    split
    · exact absurd rfl (noMinus _)
    · exact absurd rfl (noPlus _)
    · rfl

/-- Taking a sign off leaves a text that is taken apart in the same way by the parser, unless a
second sign follows. -/
theorem stripSign_of_takeSign {text : List Char}
    (unsigned : startsWithSign (takeSign text).2 = false) :
    stripSign text = some (takeSign text) := by
  cases text with
  | nil => rfl
  | cons ch rest =>
      by_cases minus : ch = '-'
      · subst minus
        exact if_neg (Bool.eq_false_iff.1 unsigned)
      · by_cases plus : ch = '+'
        · subst plus
          exact if_neg (Bool.eq_false_iff.1 unsigned)
        · simp [stripSign, takeSign, minus, plus]

/-- After a dot, the scan takes digits only. -/
theorem scanDecimal_dotted {text : List Char} {hasDigit seen : Bool} :
    scanDecimal text hasDigit true = some seen ↔
      AllDigits text ∧ seen = (hasDigit || !text.isEmpty) := by
  induction text generalizing hasDigit with
  | nil => simp [scanDecimal, allDigits_nil, eq_comm]
  | cons ch rest inductionHypothesis =>
      rw [scanDecimal, allDigits_cons]
      by_cases digit : ch.isDigit = true
      · rw [if_pos digit, inductionHypothesis]
        simp [digit]
      · simp [digit]

private theorem splitDot_cons_of_ne {ch : Char} (rest : List Char) (undotted : ch ≠ '.') :
    splitDot (ch :: rest) = (ch :: (splitDot rest).1, (splitDot rest).2) := by
  simp [splitDot, undotted]

/-- The scan takes digits on both sides of at most one dot. -/
theorem scanDecimal_iff {text : List Char} {hasDigit seen : Bool} :
    scanDecimal text hasDigit false = some seen ↔
      AllDigits (splitDot text).1 ∧ AllDigits (splitDot text).2 ∧
        seen = (hasDigit || !(splitDot text).1.isEmpty || !(splitDot text).2.isEmpty) := by
  induction text generalizing hasDigit with
  | nil => simp [scanDecimal, splitDot, allDigits_nil, eq_comm]
  | cons ch rest inductionHypothesis =>
      rw [scanDecimal]
      by_cases dot : ch = '.'
      · subst dot
        have split : splitDot ('.' :: rest) = ([], rest) := rfl
        rw [if_neg (by decide), if_pos ⟨rfl, rfl⟩, split, scanDecimal_dotted]
        simp [allDigits_nil]
      · rw [splitDot_cons_of_ne rest dot, allDigits_cons]
        by_cases digit : ch.isDigit = true
        · rw [if_pos digit, inductionHypothesis]
          simp [digit]
        · simp [digit, dot]

end Decimal128

section Accepted

open Decimal128

variable {field value : String} {number : F64}

/-- Digits after a sign are read as the double that is nearest to their number. -/
theorem F64.fromStr_of_digits (text : List Char)
    (whole : AllDigits (splitDot (takeSign text).2).1)
    (fraction : AllDigits (splitDot (takeSign text).2).2)
    (someDigit : (splitDot (takeSign text).2).1 ≠ [] ∨ (splitDot (takeSign text).2).2 ≠ []) :
    F64.fromStr text = some (binary64.round (takeSign text).1
      (denoted false (splitDot (takeSign text).2).1 (splitDot (takeSign text).2).2)) :=
  if_pos ⟨whole, fraction, someDigit⟩

/-- The scan accepts exactly the numerals, and reads the nearest double. -/
theorem parseDecimal_ok_iff : parseDecimal field value = .ok number ↔ ReadsAs value number := by
  unfold parseDecimal ReadsAs
  generalize trim value.toList = text
  constructor
  · intro accepted
    simp only at accepted
    split at accepted
    · cases accepted
    · split at accepted
      · cases accepted
      · split at accepted
        · rename_i scanned
          obtain ⟨whole, fraction, seen⟩ := scanDecimal_iff.1 scanned
          have someDigit : (splitDot (takeSign text).2).1 ≠ [] ∨
              (splitDot (takeSign text).2).2 ≠ [] := by
            simpa [List.isEmpty_iff] using seen.symm
          have stripped := stripSign_of_takeSign
            (unsigned_of_parts whole (splitDot_parts (takeSign text).2).2)
          rw [F64.fromStr_of_digits text whole fraction someDigit] at accepted
          exact ⟨_, _, _, (isNumeral_iff stripped).2 ⟨rfl, rfl, rfl, whole, fraction, someDigit⟩,
            (Except.ok.inj accepted).symm⟩
        · cases accepted
  · rintro ⟨negative, whole, fraction, numeral, rfl⟩
    obtain ⟨body, stripped, parts⟩ := numeral.parts
    have sign := takeSign_of_stripSign stripped
    have filled := numeral.body_ne_nil parts
    have nonempty : text ≠ [] := by
      rintro rfl
      cases sign
      exact filled rfl
    have scanned : scanDecimal body false false = some true := by
      refine scanDecimal_iff.2 ?_
      rw [parts]
      refine ⟨numeral.wholeDigits, numeral.fractionDigits, ?_⟩
      simpa [List.isEmpty_iff] using numeral.someDigit
    have read := F64.fromStr_of_digits text
    rw [sign, parts] at read
    simp only [if_neg nonempty, sign, if_neg filled, scanned,
      read numeral.wholeDigits numeral.fractionDigits numeral.someDigit]

theorem requirePositive_ok_iff :
    requirePositive field value = .ok () ↔ ∃ number, ReadsAs value number ∧ 0 < number := by
  rw [requirePositive, bind_ok_iff]
  refine exists_congr fun number => and_congr parseDecimal_ok_iff ?_
  rw [← FloatFormat.Number.not_le]
  split
  · simp [*]
  · simp [*]

theorem requireNonNegative_ok_iff :
    requireNonNegative field value = .ok () ↔ ∃ number, ReadsAs value number ∧ 0 ≤ number := by
  rw [requireNonNegative, bind_ok_iff]
  refine exists_congr fun number => and_congr parseDecimal_ok_iff ?_
  rw [← FloatFormat.Number.not_lt]
  split
  · simp [*]
  · simp [*]

end Accepted

end Exg
