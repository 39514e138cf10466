import Exg.Common.DecimalParser

/-!
# Printing and parsing

Parsing undoes printing for every decimal but the least, whose magnitude does not fit, and
the least decimal is never parsed.
-/

namespace Exg

open Support

namespace Decimal128

/-! ## What is printed -/

private theorem trim_of_visible {text : List Char}
    (visible : ∀ char ∈ text, isWhiteSpace char = false) :
    trim text = text := by
  have front : text.dropWhile isWhiteSpace = text := by
    cases text with
    | nil => rfl
    | cons char rest =>
        exact List.dropWhile_cons_of_neg (by simp [visible char List.mem_cons_self])
  rw [trim, front, List.rdropWhile_eq_self_iff]
  intro nonempty
  simp [visible _ (List.getLast_mem nonempty)]

private theorem visible_digit {char : Char} (digit : char.isDigit = true) :
    isWhiteSpace char = false := by
  have bounds : 48 ≤ char.toNat ∧ char.toNat ≤ 57 := by
    simpa [Char.isDigit, UInt32.le_iff_toNat_le] using digit
  simp [isWhiteSpace]
  omega

section Printed

variable (value : Decimal128)

/-- The digits that are printed after the dot. -/
def printedFraction : List Char :=
  if value.raw.natAbs % scaleWord = 0 then []
  else ((Nat.toDigits 10 (value.raw.natAbs % scaleWord)).leftpad scaleDigits '0').rdropWhile
    (· == '0')

/-- The text that is printed after the sign. -/
def printedBody : List Char :=
  Nat.toDigits 10 (value.raw.natAbs / scaleWord) ++
    if value.raw.natAbs % scaleWord = 0 then [] else '.' :: value.printedFraction

private theorem fmt_eq :
    value.fmt = (if value.raw < 0 then ['-'] else []) ++ value.printedBody := by
  rw [fmt, printedBody, printedFraction]
  by_cases zero : value.raw = 0
  · rw [if_pos zero, zero]
    rfl
  · rw [if_neg zero]
    by_cases whole : value.raw.natAbs % scaleWord = 0
    · simp [whole]
    · simp [whole]

private theorem allDigits_printedFraction : AllDigits value.printedFraction := by
  rw [printedFraction]
  split
  · exact allDigits_nil
  · apply AllDigits.rdropWhile
    rw [List.leftpad, allDigits_append]
    exact ⟨allDigits_zeros _, allDigits_toDigits _⟩

private theorem splitDot_printedBody :
    splitDot value.printedBody =
      (Nat.toDigits 10 (value.raw.natAbs / scaleWord), value.printedFraction) := by
  have undotted := undotted_of_allDigits (allDigits_toDigits (value.raw.natAbs / scaleWord))
  rw [printedBody]
  split
  · rename_i whole
    rw [List.append_nil, splitDot_undotted undotted, printedFraction, if_pos whole]
  · exact splitDot_dotted _ undotted

/-- The printed digits are the magnitude. -/
theorem rawMagnitude_printed :
    rawMagnitude (Nat.toDigits 10 (value.raw.natAbs / scaleWord)) value.printedFraction =
      value.raw.natAbs := by
  rw [rawMagnitude, decimalValue_toDigits]
  suffices fraction : decimalValue value.printedFraction * scaleWord /
      10 ^ value.printedFraction.length = value.raw.natAbs % scaleWord by
    rw [fraction]
    exact Nat.div_add_mod' value.raw.natAbs scaleWord
  rw [printedFraction]
  by_cases whole : value.raw.natAbs % scaleWord = 0
  · rw [if_pos whole, whole]
    rfl
  · rw [if_neg whole]
    have small : value.raw.natAbs % scaleWord < 10 ^ 18 := Nat.mod_lt _ (by decide)
    generalize value.raw.natAbs % scaleWord = number at small ⊢
    have fits : (Nat.toDigits 10 number).length ≤ 18 :=
      (Nat.length_toDigits_le_iff (by decide) (by decide)).2 small
    have width : ((Nat.toDigits 10 number).leftpad scaleDigits '0').length = 18 := by
      rw [List.length_leftpad]
      exact max_eq_left fits
    have padded : decimalValue ((Nat.toDigits 10 number).leftpad scaleDigits '0') = number :=
      (decimalValue_leftpad scaleDigits).trans (decimalValue_toDigits number)
    generalize (Nat.toDigits 10 number).leftpad scaleDigits '0' = text at width padded ⊢
    have shorter := (List.rdropWhile_prefix (· == '0') text).length_le
    have restored := rdropWhile_append_replicate '0' text
    generalize text.rdropWhile (· == '0') = trimmed at shorter restored ⊢
    have value : decimalValue trimmed * 10 ^ (18 - trimmed.length) = number := by
      rw [← padded, ← restored, decimalValue_append, decimalValue_zeros, List.length_replicate,
        width, add_zero]
    have scaled : scaleWord = 10 ^ (18 - trimmed.length) * 10 ^ trimmed.length := by
      rw [← pow_add, Nat.sub_add_cancel (by omega)]
      rfl
    rw [scaled, ← mul_assoc, Nat.mul_div_cancel _ (Nat.pow_pos (by decide)), value]

private theorem stripSign_fmt :
    stripSign value.fmt = some (decide (value.raw < 0), value.printedBody) := by
  rw [stripSign_eq_some_iff, fmt_eq]
  constructor
  · by_cases negative : value.raw < 0
    · exact Or.inl ⟨by rw [if_pos negative]; rfl, decide_eq_true negative⟩
    · exact Or.inr ⟨Or.inl (by rw [if_neg negative]; rfl), decide_eq_false negative⟩
  · rw [printedBody]
    have digits := allDigits_toDigits (value.raw.natAbs / scaleWord)
    cases written : Nat.toDigits 10 (value.raw.natAbs / scaleWord) with
    | nil => exact absurd written Nat.toDigits_ne_nil
    | cons char rest =>
        rw [written] at digits
        exact (startsWithSign_cons char _ rest).trans (unsigned_of_allDigits digits)

/-- Nothing that is printed is a blank. -/
theorem trim_fmt : trim value.fmt = value.fmt := by
  apply trim_of_visible
  intro char member
  have digit : ∀ text : List Char, AllDigits text → char ∈ text → isWhiteSpace char = false :=
    fun text digits within => visible_digit (digits char within)
  rw [fmt_eq, printedBody, List.mem_append, List.mem_append] at member
  rcases member with sign | whole | fraction
  · split at sign
    · rw [List.mem_singleton.1 sign]
      decide
    · cases sign
  · exact digit _ (allDigits_toDigits _) whole
  · split at fraction
    · cases fraction
    · rcases List.mem_cons.1 fraction with rfl | within
      · decide
      · exact digit _ value.allDigits_printedFraction within

end Printed

/-- Parsing undoes printing, except for the least decimal. -/
theorem fromStr_toText {value : Decimal128} (inRange : value.InRange)
    (greater : value.raw ≠ I128.minValue) : fromStr value.toText = .parsed value := by
  have stripped : stripSign (trim value.toText.toList) =
      some (decide (value.raw < 0), value.printedBody) := by
    rw [toText, String.toList_ofList, trim_fmt, stripSign_fmt]
  have nonempty : value.printedBody ≠ [] := by
    rw [printedBody]
    exact fun empty => Nat.toDigits_ne_nil (List.append_eq_nil_iff.1 empty).1
  have parts := value.splitDot_printedBody
  have magnitude := value.rawMagnitude_printed
  have small : value.raw.natAbs < 2 ^ 127 := by
    rw [InRange, I128.fits_iff] at inRange
    rw [I128.minValue_eq] at greater
    omega
  have read := fromStr_parsed stripped nonempty (by rw [parts]; exact allDigits_toDigits _)
    (by rw [parts]; exact value.allDigits_printedFraction) (by rw [parts, magnitude]; exact small)
  rw [read, parts, magnitude, I128.signed_natAbs]

/-! ## Round trips -/

/-- Parsing undoes printing, and reading undoes writing, for every decimal but the least; and
every value that parsing gives is such a decimal. -/
theorem parsing_undoes_printing (format : TextFormat) :
    (∀ value : Decimal128, value.InRange → value.raw ≠ I128.minValue →
      fromStr value.toText = .parsed value ∧
        deserialize format (serialize format value) = .parsed value) ∧
    ∀ s value, fromStr s = .parsed value →
      value.InRange ∧ value.raw ≠ I128.minValue ∧ fromStr value.toText = .parsed value := by
  constructor
  · intro value inRange greater
    have undone := fromStr_toText inRange greater
    refine ⟨undone, ?_⟩
    rw [deserialize, serialize, format.reads]
    exact undone
  · intro s value parsed
    obtain ⟨inRange, greater⟩ := inRange_of_parsed parsed
    exact ⟨inRange, greater, fromStr_toText inRange greater⟩

/-- A format that keeps text as it is. -/
def plainFormat : TextFormat where
  Wire := String
  serializeStr := id
  deserializeStr := .ok
  reads _ := rfl

/-- A value between minus one and zero with leading zeros in its fraction, and a text with a
sign, blanks and trailing zeros. -/
theorem parsing_undoes_printing_small :
    deserialize plainFormat (serialize plainFormat ⟨-50000000000000000⟩) =
        .parsed ⟨-50000000000000000⟩ ∧
      fromStr (toText ⟨1500000000000000000⟩) = .parsed ⟨1500000000000000000⟩ := by
  obtain ⟨printed, parsed⟩ := parsing_undoes_printing plainFormat
  have read : fromStr " +1.500 " = .parsed ⟨1500000000000000000⟩ := by decide +kernel
  exact ⟨(printed _ (by decide) (by decide)).2, (parsed _ _ read).2.2⟩

end Decimal128
end Exg
