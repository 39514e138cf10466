import Mathlib.Data.List.Basic
import Mathlib.Data.List.DropRight
import Mathlib.Tactic.Ring

/-!
# Decimal digits

The number that a string of digits denotes, and what padding with zeros, trimming zeros and
cutting the string do to it.
-/

namespace Support

/-- Every character is one of the ten digits. -/
def AllDigits (text : List Char) : Prop := ∀ char ∈ text, char.isDigit = true

instance : DecidablePred AllDigits := fun text =>
  show Decidable (∀ char ∈ text, char.isDigit = true) from List.decidableBAll _ text

/-- The number that a string of digits denotes. -/
def decimalValue (text : List Char) : Nat := Nat.ofDigitChars 10 text 0

section AllDigits

variable {text left right : List Char}

theorem allDigits_nil : AllDigits [] := fun _ member => absurd member List.not_mem_nil

theorem allDigits_cons {char : Char} :
    AllDigits (char :: text) ↔ char.isDigit = true ∧ AllDigits text := by
  simp [AllDigits]

theorem allDigits_append : AllDigits (left ++ right) ↔ AllDigits left ∧ AllDigits right := by
  simp [AllDigits, or_imp, forall_and]

theorem allDigits_zeros (count : Nat) : AllDigits (List.replicate count '0') := by
  intro char member
  rw [List.eq_of_mem_replicate member]
  decide

theorem allDigits_toDigits (number : Nat) : AllDigits (Nat.toDigits 10 number) :=
  fun _ member => Nat.isDigit_of_mem_toDigits (by decide) (by decide) member

theorem AllDigits.take (digits : AllDigits text) (count : Nat) : AllDigits (text.take count) :=
  fun char member => digits char (List.mem_of_mem_take member)

theorem AllDigits.rdropWhile (digits : AllDigits text) (dropped : Char → Bool) :
    AllDigits (text.rdropWhile dropped) :=
  fun char member => digits char ((List.rdropWhile_prefix dropped text).subset member)

end AllDigits

section Value

variable {text left right : List Char}

/-- The number that a character stands for as a digit. -/
theorem digit_lt {char : Char} (digit : char.isDigit = true) : char.toNat - '0'.toNat < 10 := by
  have bounds : 48 ≤ char.toNat ∧ char.toNat ≤ 57 := by
    simpa [Char.isDigit, UInt32.le_iff_toNat_le] using digit
  have zero : '0'.toNat = 48 := by decide
  omega

theorem decimalValue_append :
    decimalValue (left ++ right) = decimalValue left * 10 ^ right.length + decimalValue right := by
  rw [decimalValue, Nat.ofDigitChars_append, Nat.ofDigitChars_eq_ofDigitChars_zero, mul_comm]
  rfl

theorem decimalValue_zeros (count : Nat) : decimalValue (List.replicate count '0') = 0 := by
  rw [decimalValue, Nat.ofDigitChars_replicate_zero, mul_zero]

@[simp]
theorem decimalValue_toDigits (number : Nat) : decimalValue (Nat.toDigits 10 number) = number :=
  Nat.ofDigitChars_ten_toDigits

/-- Zeros before a number change nothing. -/
theorem decimalValue_leftpad (count : Nat) :
    decimalValue (text.leftpad count '0') = decimalValue text := by
  rw [List.leftpad, decimalValue_append, decimalValue_zeros, zero_mul, zero_add]

/-- Each digit that is read makes the number at least ten times as large. -/
theorem le_ofDigitChars (text : List Char) (start : Nat) :
    start ≤ Nat.ofDigitChars 10 text start := by
  rw [Nat.ofDigitChars_eq_ofDigitChars_zero]
  exact (Nat.le_mul_of_pos_left start (Nat.pow_pos (by decide))).trans (Nat.le_add_right _ _)

theorem decimalValue_lt (digits : AllDigits text) : decimalValue text < 10 ^ text.length := by
  induction text using List.reverseRecOn with
  | nil => decide
  | append_singleton before last inductionHypothesis =>
      obtain ⟨earlier, final⟩ := allDigits_append.1 digits
      have bound := inductionHypothesis earlier
      have small := digit_lt (final last List.mem_cons_self)
      have value : decimalValue [last] = last.toNat - '0'.toNat := by
        simp [decimalValue, Nat.ofDigitChars]
      rw [decimalValue_append, value, List.length_append, List.length_singleton, pow_one, pow_succ]
      omega

/-- Cutting digits off the end divides by ten for each of them. -/
theorem decimalValue_take (digits : AllDigits text) (count : Nat) :
    decimalValue (text.take count) = decimalValue text / 10 ^ (text.length - count) := by
  have rest : AllDigits (text.drop count) :=
    fun char member => digits char (List.mem_of_mem_drop member)
  have bound := decimalValue_lt rest
  rw [List.length_drop] at bound
  have parts : decimalValue (text.take count ++ text.drop count) = _ := decimalValue_append
  rw [List.take_append_drop, List.length_drop] at parts
  rw [parts, mul_comm, Nat.mul_add_div (Nat.pow_pos (by decide)), Nat.div_eq_of_lt bound, add_zero]

/-- What trimming has taken off a string was a run of the trimmed character. -/
theorem rdropWhile_append_replicate (char : Char) (text : List Char) :
    text.rdropWhile (· == char) ++
      List.replicate (text.length - (text.rdropWhile (· == char)).length) char = text := by
  induction text using List.reverseRecOn with
  | nil => rfl
  | append_singleton before last inductionHypothesis =>
      by_cases same : last = char
      · have shorter := (List.rdropWhile_prefix (· == char) before).length_le
        rw [List.rdropWhile_concat_pos _ _ _ (by simpa using same), List.length_append,
          List.length_singleton, Nat.sub_add_comm shorter, List.replicate_succ',
          ← List.append_assoc, inductionHypothesis, same]
      · rw [List.rdropWhile_concat_neg _ _ _ (by simpa using same)]
        simp

end Value

end Support
