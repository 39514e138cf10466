import Mathlib.Data.List.Basic
import Mathlib.Tactic.Common
import Mathlib.Tactic.IntervalCases

/-!
# Numbers in bytes and in digits

Little-endian bytes and zero-padded decimal digits, both of a fixed width, with their
readers.  A writer of width `w` keeps the number modulo `base ^ w`, so that reading returns
the number whenever it fits.
-/

namespace Support

/-! ## Little-endian bytes -/

/-- The lowest bytes of a number, lowest first. -/
def leBytes : Nat → Nat → List UInt8
  | 0, _ => []
  | width + 1, number => UInt8.ofNat number :: leBytes width (number / 256)

def leValue : List UInt8 → Nat
  | [] => 0
  | byte :: rest => byte.toNat + 256 * leValue rest

@[simp]
theorem length_leBytes (width number : Nat) : (leBytes width number).length = width := by
  induction width generalizing number with
  | zero => rfl
  | succ width inductionHypothesis => simp [leBytes, inductionHypothesis]

/-- A field keeps what fits into it. -/
theorem leValue_leBytes_mod (width number : Nat) :
    leValue (leBytes width number) = number % 256 ^ width := by
  induction width generalizing number with
  | zero => rw [leBytes, leValue, Nat.pow_zero, Nat.mod_one]
  | succ width inductionHypothesis =>
      have low : (UInt8.ofNat number).toNat = number % 256 := UInt8.toNat_ofNat'
      rw [leBytes, leValue, inductionHypothesis, low, Nat.pow_succ, Nat.mul_comm (256 ^ width),
        Nat.mod_mul]

theorem leValue_leBytes {width number : Nat} (fits : number < 256 ^ width) :
    leValue (leBytes width number) = number := by
  rw [leValue_leBytes_mod, Nat.mod_eq_of_lt fits]

theorem leBytes_leValue (bytes : List UInt8) : leBytes bytes.length (leValue bytes) = bytes := by
  induction bytes with
  | nil => rfl
  | cons byte rest inductionHypothesis =>
      have bound : byte.toNat < 256 := byte.toNat_lt
      have high : (byte.toNat + 256 * leValue rest) / 256 = leValue rest := by omega
      have low : UInt8.ofNat (byte.toNat + 256 * leValue rest) = byte := by
        apply UInt8.toNat_inj.1
        rw [UInt8.toNat_ofNat']
        omega
      rw [List.length_cons, leBytes, leValue, high, low, inductionHypothesis]

theorem leValue_lt (bytes : List UInt8) : leValue bytes < 256 ^ bytes.length := by
  induction bytes with
  | nil => exact Nat.one_pos
  | cons byte rest inductionHypothesis =>
      have bound : byte.toNat < 256 := byte.toNat_lt
      rw [leValue, List.length_cons, Nat.pow_succ]
      omega

/-- Different bytes of one length are different numbers. -/
theorem leValue_inj {first second : List UInt8} (length : first.length = second.length)
    (same : leValue first = leValue second) : first = second := by
  rw [← leBytes_leValue first, ← leBytes_leValue second, length, same]

section Changed

variable {width number : Nat} {before after : List UInt8} {old new : UInt8}

theorem length_changed (field : leBytes width number = before ++ old :: after) :
    (before ++ new :: after).length = width := by
  rw [← length_leBytes width number, field, List.length_append, List.length_append]
  rfl

/-- A field with a changed byte holds another number. -/
theorem leValue_changed (field : leBytes width number = before ++ old :: after)
    (fits : number < 256 ^ width) (changes : old ≠ new) :
    leValue (before ++ new :: after) ≠ number := by
  intro same
  have length : (before ++ new :: after).length = (before ++ old :: after).length := by
    rw [length_changed field, ← field, length_leBytes]
  rw [← leValue_leBytes fits, field] at same
  have equal := List.append_cancel_left (leValue_inj length same)
  exact changes (List.cons.inj equal).1.symm

end Changed

/-! ## Zero-padded digits -/

/-- The last decimal digits of a number, highest first. -/
def paddedDigits : Nat → Nat → List Char
  | 0, _ => []
  | width + 1, number => paddedDigits width (number / 10) ++ [Nat.digitChar (number % 10)]

/-- The value of a string of digits read on from a value; none on any other character. -/
def digitsValue (value : Nat) : List Char → Option Nat
  | [] => some value
  | char :: rest =>
      if char.isDigit then digitsValue (10 * value + (char.toNat - '0'.toNat)) rest else none

theorem digitsValue_append (value : Nat) (first second : List Char) :
    digitsValue value (first ++ second) =
      (digitsValue value first).bind fun middle => digitsValue middle second := by
  induction first generalizing value with
  | nil => rfl
  | cons char rest inductionHypothesis =>
      rw [List.cons_append, digitsValue, digitsValue]
      split
      · exact inductionHypothesis _
      · rfl

theorem digitChar_isDigit {digit : Nat} (single : digit < 10) :
    (Nat.digitChar digit).isDigit = true ∧ (Nat.digitChar digit).toNat - '0'.toNat = digit := by
  interval_cases digit <;> decide

@[simp]
theorem length_paddedDigits (width number : Nat) : (paddedDigits width number).length = width := by
  induction width generalizing number with
  | zero => rfl
  | succ width inductionHypothesis => simp [paddedDigits, inductionHypothesis]

theorem digitsValue_paddedDigits {width number : Nat} (fits : number < 10 ^ width) :
    digitsValue 0 (paddedDigits width number) = some number := by
  induction width generalizing number with
  | zero =>
      rw [Nat.pow_zero] at fits
      simp only [paddedDigits, digitsValue, Option.some.injEq]
      omega
  | succ width inductionHypothesis =>
      have smaller : number / 10 < 10 ^ width := by
        apply Nat.div_lt_of_lt_mul
        rwa [Nat.pow_succ, Nat.mul_comm] at fits
      obtain ⟨isDigit, digit⟩ := digitChar_isDigit (Nat.mod_lt number (by decide : 0 < 10))
      rw [paddedDigits, digitsValue_append, inductionHypothesis smaller]
      simp only [Option.bind_some, digitsValue, isDigit, if_true, digit]
      congr 1
      omega

end Support
