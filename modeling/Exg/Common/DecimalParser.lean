import Exg.Common.DecimalText

/-!
# What the decimal parser reads

Digits on both sides of a dot are read as the number they denote, cut after eighteen digits.
A text that is parsed has digits before its dot, and its value is in range.
-/

namespace Exg

open Support

namespace Decimal128

/-! ## The steps of the parser -/

theorem fits_natCast_iff {number : Nat} : I128.Fits number ↔ number < 2 ^ 127 := by
  rw [I128.fits_iff]
  omega

section Steps

variable {whole fraction : List Char} {rest : Int → ParseOutcome}

theorem parseThen_ok {text : List Char} {value : Int} (ok : I128.parse text = .ok value) :
    parseThen text rest = rest value := by
  rw [parseThen, ok]

private theorem parse_digits (nonempty : whole ≠ []) (digits : AllDigits whole)
    (fits : I128.Fits (decimalValue whole)) : I128.parse whole = .ok (decimalValue whole) :=
  I128.parse_ok_iff.2 ⟨false, whole, Or.inr ⟨Or.inl rfl, rfl⟩, nonempty, digits, fits, rfl⟩

/-- Digits before the dot are the integer part. -/
theorem readInteger_digits (digits : AllDigits whole) (fits : I128.Fits (decimalValue whole)) :
    readInteger whole rest = rest (decimalValue whole) := by
  rw [readInteger]
  by_cases empty : whole = []
  · rw [if_pos empty, empty]
    rfl
  · rw [if_neg empty, parseThen_ok (parse_digits empty digits fits)]

/-- Anything else without a sign before the dot is rejected. -/
theorem readInteger_rejected (unsigned : startsWithSign whole = false)
    (wrong : ¬(AllDigits whole ∧ I128.Fits (decimalValue whole))) :
    ∃ error, readInteger whole rest = .rejected error := by
  have nonempty : whole ≠ [] := by
    rintro rfl
    exact wrong ⟨allDigits_nil, by decide⟩
  rw [readInteger, if_neg nonempty, parseThen, I128.parse_unsigned nonempty unsigned]
  cases ended : I128.readDigits false whole 0 with
  | error kind => exact ⟨kind.text, rfl⟩
  | ok value =>
      obtain ⟨digits, fits, -⟩ := I128.readDigits_zero_ok_iff.1 ended
      exact absurd ⟨digits, fits⟩ wrong

private theorem utf8Size_digit {char : Char} (digit : char.isDigit = true) : char.utf8Size = 1 := by
  have bounds : 48 ≤ char.val.toNat ∧ char.val.toNat ≤ 57 := by
    simpa [Char.isDigit, UInt32.le_iff_toNat_le] using digit
  have ascii : char.val ≤ 0x7f := by
    rw [UInt32.le_iff_toNat_le]
    exact bounds.2.trans (by decide)
  exact Char.utf8Size_eq_one_iff.2 ascii

/-- Digits are one byte each. -/
theorem byteLength_digits (digits : AllDigits fraction) :
    byteLength fraction = fraction.length := by
  induction fraction with
  | nil => rfl
  | cons char rest inductionHypothesis =>
      obtain ⟨digit, others⟩ := allDigits_cons.1 digits
      have tail : (rest.map Char.utf8Size).sum = rest.length := inductionHypothesis others
      rw [byteLength, List.map_cons, List.sum_cons, utf8Size_digit digit, tail, List.length_cons,
        add_comm]

/-- Among digits every byte is the end of a character. -/
theorem takeBytes_digits (digits : AllDigits fraction) {count : Nat}
    (within : count ≤ fraction.length) : takeBytes fraction count = some (fraction.take count) := by
  induction fraction generalizing count with
  | nil =>
      obtain rfl := Nat.le_zero.1 within
      rfl
  | cons char rest inductionHypothesis =>
      obtain ⟨digit, others⟩ := allDigits_cons.1 digits
      cases count with
      | zero => rfl
      | succ count =>
          have one := utf8Size_digit digit
          rw [takeBytes, if_pos (by omega), one, Nat.add_sub_cancel,
            inductionHypothesis others (Nat.le_of_succ_le_succ within)]
          rfl

/-- Eighteen digits fit. -/
theorem fits_of_lt_scale {number : Nat} (small : number < 10 ^ 18) : I128.Fits number := by
  rw [fits_natCast_iff]
  omega

/-- Digits after the dot are the fraction, cut after eighteen of them. -/
theorem readFraction_digits (digits : AllDigits fraction) :
    readFraction fraction rest =
      rest ((decimalValue fraction * scaleWord / 10 ^ fraction.length : Nat)) := by
  have word : scaleWord = 10 ^ 18 := by norm_num [scaleWord]
  rw [readFraction, byteLength_digits digits]
  by_cases empty : fraction = []
  · rw [if_pos empty, empty]
    rfl
  · rw [if_neg empty]
    by_cases long : scaleDigits < fraction.length
    · have within : 18 < fraction.length := long
      have whole : 10 ^ fraction.length = 10 ^ (fraction.length - 18) * scaleWord := by
        rw [word, ← pow_add]
        congr 1
        omega
      have value : decimalValue (fraction.take scaleDigits) =
          decimalValue fraction * scaleWord / 10 ^ fraction.length := by
        rw [decimalValue_take digits, whole, Nat.mul_div_mul_right _ _ (by decide)]
        rfl
      have small := decimalValue_lt (digits.take scaleDigits)
      rw [List.length_take, min_eq_left long.le] at small
      have nonempty : fraction.take scaleDigits ≠ [] := by
        intro none
        have counted := congrArg List.length none
        rw [List.length_take, min_eq_left long.le] at counted
        cases counted
      rw [if_pos long, takeBytes_digits digits long.le, ← value]
      exact parseThen_ok (parse_digits nonempty (digits.take scaleDigits) (fits_of_lt_scale small))
    · have within : fraction.length ≤ 18 := not_lt.1 long
      have padded : AllDigits (fraction ++ List.replicate (scaleDigits - fraction.length) '0') :=
        allDigits_append.2 ⟨digits, allDigits_zeros _⟩
      have whole : scaleWord = 10 ^ (18 - fraction.length) * 10 ^ fraction.length := by
        rw [word, ← pow_add]
        congr 1
        omega
      have value : decimalValue (fraction ++ List.replicate (scaleDigits - fraction.length) '0') =
          decimalValue fraction * scaleWord / 10 ^ fraction.length := by
        rw [decimalValue_append, decimalValue_zeros, List.length_replicate, add_zero, whole,
          ← mul_assoc, Nat.mul_div_cancel _ (Nat.pow_pos (by decide))]
        rfl
      have small := decimalValue_lt padded
      rw [List.length_append, List.length_replicate, Nat.add_sub_cancel' (not_lt.1 long)] at small
      rw [if_neg long, ← value]
      exact parseThen_ok (parse_digits (by simp [empty]) padded (fits_of_lt_scale small))

end Steps

/-! ## The whole parser -/

/-- A product and a sum that both have to fit. -/
theorem checkedMul_bind_checkedAdd (left factor right : Int) :
    ((I128.checkedMul left factor).bind fun scaled => I128.checkedAdd scaled right) =
      if I128.Fits (left * factor) ∧ I128.Fits (left * factor + right) then
        some (left * factor + right)
      else none := by
  by_cases scaled : I128.Fits (left * factor)
  · by_cases fits : I128.Fits (left * factor + right)
    · simp [I128.checkedMul, I128.checkedAdd, I128.checked, scaled, fits]
    · simp [I128.checkedMul, I128.checkedAdd, I128.checked, scaled, fits]
  · simp [I128.checkedMul, I128.checked, scaled]

/-- A number that has been read can be negated: it is not the least one. -/
theorem assemble_eq (negative : Bool) {whole : Nat} {fracVal : Int} (above : -scale < fracVal) :
    assemble negative whole fracVal =
      if I128.Fits (whole * scale) ∧ I128.Fits (whole * scale + fracVal) then
        .parsed ⟨if negative then -(whole * scale + fracVal) else whole * scale + fracVal⟩
      else .rejected "value out of range" := by
  rw [assemble, checkedMul_bind_checkedAdd]
  have lower : -scale < whole * scale + fracVal := by
    have scaled : 0 ≤ (whole : Int) * scale := mul_nonneg (Int.natCast_nonneg whole) (by decide)
    omega
  generalize (whole : Int) * scale + fracVal = raw at lower ⊢
  by_cases fits : I128.Fits (whole * scale) ∧ I128.Fits raw
  · have opposite : I128.Fits (-raw) := by
      have within := fits.2
      rw [I128.fits_iff] at within ⊢
      rw [scale] at lower
      omega
    rw [if_pos fits, if_pos fits]
    cases negative with
    | false => rfl
    | true => simp only [if_true, I128.neg, if_pos opposite]
  · rw [if_neg fits, if_neg fits]

/-- Where the sign has been stripped, the two sides of the dot are read. -/
theorem fromStr_body {s : String} {negative : Bool} {body : List Char}
    (stripped : stripSign (trim s.toList) = some (negative, body)) (nonempty : body ≠ []) :
    fromStr s =
      readInteger (splitDot body).1 fun intVal =>
        readFraction (splitDot body).2 fun fracVal => assemble negative intVal fracVal := by
  have filled : trim s.toList ≠ [] := by
    intro empty
    rw [empty] at stripped
    cases stripped
    exact nonempty rfl
  simp only [fromStr, if_neg filled, stripped, if_neg nonempty]

/-- The raw value of digits around a dot, cut after eighteen digits. -/
def rawMagnitude (whole fraction : List Char) : Nat :=
  decimalValue whole * scaleWord + decimalValue fraction * scaleWord / 10 ^ fraction.length

private theorem cast_rawMagnitude (whole fraction : List Char) :
    (rawMagnitude whole fraction : Int) = decimalValue whole * scale +
      (decimalValue fraction * scaleWord / 10 ^ fraction.length : Nat) := by
  rw [rawMagnitude, Int.natCast_add, Int.natCast_mul]
  rfl

section Digits

variable {s : String} {negative : Bool} {body : List Char}

/-- What is left to do once both sides of the dot are known to be digits. -/
theorem fromStr_of_digits (stripped : stripSign (trim s.toList) = some (negative, body))
    (nonempty : body ≠ []) (fraction : AllDigits (splitDot body).2) :
    fromStr s = readInteger (splitDot body).1 fun intVal => assemble negative intVal
      (decimalValue (splitDot body).2 * scaleWord / 10 ^ (splitDot body).2.length : Nat) := by
  rw [fromStr_body stripped nonempty]
  congr 1
  funext intVal
  exact readFraction_digits fraction

/-- Digits on both sides are read as the number they denote, if its magnitude fits. -/
theorem fromStr_parsed (stripped : stripSign (trim s.toList) = some (negative, body))
    (nonempty : body ≠ []) (whole : AllDigits (splitDot body).1)
    (fraction : AllDigits (splitDot body).2)
    (fits : rawMagnitude (splitDot body).1 (splitDot body).2 < 2 ^ 127) :
    fromStr s =
      .parsed ⟨I128.signed negative (rawMagnitude (splitDot body).1 (splitDot body).2)⟩ := by
  rw [fromStr_of_digits stripped nonempty fraction]
  generalize splitDot body = parts at whole fraction fits ⊢
  have scaled : decimalValue parts.1 * scaleWord < 2 ^ 127 :=
    lt_of_le_of_lt (Nat.le_add_right _ _) fits
  have single : decimalValue parts.1 < 2 ^ 127 :=
    lt_of_le_of_lt (Nat.le_mul_of_pos_right _ (by decide)) scaled
  have product : I128.Fits (decimalValue parts.1 * scale) := fits_natCast_iff.2 scaled
  rw [readInteger_digits whole (fits_natCast_iff.2 single),
    assemble_eq negative (lt_of_lt_of_le (by decide) (Int.natCast_nonneg _)),
    ← cast_rawMagnitude, if_pos ⟨product, fits_natCast_iff.2 fits⟩]
  rfl

/-- Digits whose number is out of range are rejected. -/
theorem fromStr_outOfRange (stripped : stripSign (trim s.toList) = some (negative, body))
    (nonempty : body ≠ []) (whole : AllDigits (splitDot body).1)
    (fraction : AllDigits (splitDot body).2)
    (outside : ¬rawMagnitude (splitDot body).1 (splitDot body).2 < 2 ^ 127) :
    ∃ error, fromStr s = .rejected error := by
  rw [fromStr_of_digits stripped nonempty fraction]
  generalize splitDot body = parts at whole fraction outside ⊢
  by_cases single : decimalValue parts.1 < 2 ^ 127
  · rw [readInteger_digits whole (fits_natCast_iff.2 single),
      assemble_eq negative (lt_of_lt_of_le (by decide) (Int.natCast_nonneg _)),
      ← cast_rawMagnitude, if_neg fun both => outside (fits_natCast_iff.1 both.2)]
    exact ⟨_, rfl⟩
  · exact readInteger_rejected (unsigned_of_allDigits whole)
      fun both => single (fits_natCast_iff.1 both.2)

end Digits

/-! ## What has been parsed -/

section Parsed

variable {text whole fraction : List Char} {rest : Int → ParseOutcome} {value : Decimal128}

private theorem parseThen_parsed (parsed : parseThen text rest = .parsed value) :
    ∃ number, I128.parse text = .ok number ∧ rest number = .parsed value := by
  rw [parseThen] at parsed
  cases ended : I128.parse text with
  | error kind =>
      rw [ended] at parsed
      cases parsed
  | ok number =>
      rw [ended] at parsed
      exact ⟨number, rfl, parsed⟩

/-- Where a text is parsed, digits stand before its dot. -/
theorem readInteger_parsed (unsigned : startsWithSign whole = false)
    (parsed : readInteger whole rest = .parsed value) :
    AllDigits whole ∧ I128.Fits (decimalValue whole) ∧
      rest (decimalValue whole) = .parsed value := by
  by_cases right : AllDigits whole ∧ I128.Fits (decimalValue whole)
  · rw [readInteger_digits right.1 right.2] at parsed
    exact ⟨right.1, right.2, parsed⟩
  · have rejected : ∃ error, readInteger whole rest = .rejected error :=
      readInteger_rejected unsigned right
    obtain ⟨error, ended⟩ := rejected
    rw [ended] at parsed
    cases parsed

theorem length_le_byteLength (text : List Char) : text.length ≤ byteLength text := by
  induction text with
  | nil => exact le_rfl
  | cons char rest inductionHypothesis =>
      have positive := char.utf8Size_pos
      rw [byteLength, List.map_cons, List.sum_cons, List.length_cons]
      rw [byteLength] at inductionHypothesis
      omega

private theorem byteLength_takeBytes {count : Nat} {taken : List Char}
    (took : takeBytes text count = some taken) : byteLength taken = count := by
  induction text generalizing count taken with
  | nil =>
      cases count with
      | zero =>
          cases took
          rfl
      | succ count => cases took
  | cons char rest inductionHypothesis =>
      cases count with
      | zero =>
          cases took
          rfl
      | succ count =>
          rw [takeBytes] at took
          split at took
          · rename_i within
            obtain ⟨tail, tookTail, rfl⟩ := Option.map_eq_some_iff.1 took
            have length := inductionHypothesis tookTail
            rw [byteLength] at length ⊢
            rw [List.map_cons, List.sum_cons, length]
            omega
          · cases took

private theorem byteLength_append_zeros (text : List Char) (count : Nat) :
    byteLength (text ++ List.replicate count '0') = byteLength text + count := by
  have zeros := byteLength_digits (allDigits_zeros count)
  rw [List.length_replicate] at zeros
  rw [byteLength, List.map_append, List.sum_append]
  exact congrArg (byteLength text + ·) zeros

/-- The text that is handed to the parser of `i128` for a fraction. -/
def handedFraction (fraction : List Char) : Option (List Char) :=
  if scaleDigits < byteLength fraction then takeBytes fraction scaleDigits
  else some (fraction ++ List.replicate (scaleDigits - byteLength fraction) '0')

theorem readFraction_eq (nonempty : fraction ≠ []) :
    readFraction fraction rest =
      (handedFraction fraction).elim (.panicked "end byte index 18 is not a char boundary")
        fun handed => parseThen handed rest := by
  rw [readFraction, if_neg nonempty, handedFraction]
  split
  · cases takeBytes fraction scaleDigits with
    | none => rfl
    | some truncated => rfl
  · rfl

theorem byteLength_handedFraction {handed : List Char}
    (given : handedFraction fraction = some handed) : byteLength handed = 18 := by
  rw [handedFraction] at given
  split at given
  · exact byteLength_takeBytes given
  · rename_i short
    cases given
    rw [byteLength_append_zeros]
    exact Nat.add_sub_cancel' (not_lt.1 short)

/-- Eighteen bytes are a number of at most eighteen digits. -/
theorem natAbs_parse_lt {number : Int} (short : byteLength text ≤ 18)
    (ok : I128.parse text = .ok number) : number.natAbs < 10 ^ 18 := by
  obtain ⟨negative, digits, signedText, -, allDigits, -, rfl⟩ := I128.parse_ok_iff.1 ok
  have within : digits.length ≤ 18 := by
    have fewer := (length_le_byteLength text).trans short
    rcases signedText with ⟨rfl, -⟩ | ⟨rfl | rfl, -⟩
    · rw [List.length_cons] at fewer
      omega
    · exact fewer
    · rw [List.length_cons] at fewer
      omega
  have below := (decimalValue_lt allDigits).trans_le (Nat.pow_le_pow_right (by decide) within)
  cases negative with
  | false => simpa [I128.signed] using below
  | true => simpa [I128.signed] using below

private theorem readFraction_parsed (parsed : readFraction fraction rest = .parsed value) :
    ∃ number : Int, number.natAbs < 10 ^ 18 ∧ rest number = .parsed value := by
  by_cases empty : fraction = []
  · rw [readFraction, if_pos empty] at parsed
    exact ⟨0, by decide, parsed⟩
  · rw [readFraction_eq empty] at parsed
    cases given : handedFraction fraction with
    | none =>
        rw [given] at parsed
        cases parsed
    | some handed =>
        rw [given] at parsed
        obtain ⟨number, ok, ended⟩ := parseThen_parsed parsed
        exact ⟨number, natAbs_parse_lt (byteLength_handedFraction given).le ok, ended⟩

end Parsed

section FromStr

variable {s : String} {value : Decimal128} {body : List Char}

/-- Before its dot, a text without a sign has none either. -/
theorem unsigned_splitDot (unsigned : startsWithSign body = false) :
    startsWithSign (splitDot body).1 = false := by
  obtain ⟨-, shape⟩ := splitDot_parts body
  generalize splitDot body = parts at shape ⊢
  cases whole : parts.1 with
  | nil => rfl
  | cons char rest =>
      rw [whole] at shape
      rcases shape with rfl | ⟨rfl, -⟩
      · exact (startsWithSign_cons char rest _).trans unsigned
      · exact unsigned

/-- How a text that has been parsed was read. -/
theorem fromStr_parsed_cases (parsed : fromStr s = .parsed value) :
    ∃ negative body, stripSign (trim s.toList) = some (negative, body) ∧ body ≠ [] ∧
      AllDigits (splitDot body).1 ∧ I128.Fits (decimalValue (splitDot body).1) ∧
        readFraction (splitDot body).2 (fun fracVal =>
          assemble negative (decimalValue (splitDot body).1) fracVal) = .parsed value := by
  cases stripped : stripSign (trim s.toList) with
  | none =>
      simp only [fromStr, stripped] at parsed
      split at parsed <;> cases parsed
  | some parts =>
      obtain ⟨negative, body⟩ := parts
      have nonempty : body ≠ [] := by
        rintro rfl
        simp only [fromStr, stripped, if_true] at parsed
        split at parsed <;> cases parsed
      rw [fromStr_body stripped nonempty] at parsed
      have unsigned := unsigned_splitDot (stripSign_eq_some_iff.1 stripped).2
      obtain ⟨digits, fits, read⟩ := readInteger_parsed unsigned parsed
      exact ⟨negative, body, rfl, nonempty, digits, fits, read⟩

/-- A value that has been parsed is in range, and it is not the least one. -/
theorem inRange_of_parsed (parsed : fromStr s = .parsed value) :
    value.InRange ∧ value.raw ≠ I128.minValue := by
  obtain ⟨negative, body, -, -, -, -, read⟩ := fromStr_parsed_cases parsed
  obtain ⟨fracVal, small, ended⟩ := readFraction_parsed read
  have above : -scale < fracVal := by
    rw [scale]
    omega
  have scaled : 0 ≤ (decimalValue (splitDot body).1 : Int) * scale :=
    mul_nonneg (Int.natCast_nonneg _) (by decide)
  rw [assemble_eq negative above] at ended
  generalize (decimalValue (splitDot body).1 : Int) * scale = integer at scaled ended
  split at ended
  · rename_i fits
    cases ended
    have within := fits.2
    rw [InRange, I128.fits_iff, I128.minValue_eq]
    rw [I128.fits_iff] at within
    rw [scale] at above
    cases negative with
    | false =>
        simp only [Bool.false_eq_true, if_false]
        omega
    | true =>
        simp only [if_true]
        omega
  · cases ended

end FromStr
end Decimal128
end Exg
