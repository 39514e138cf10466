import Exg.Common.DecimalParser
import Mathlib.Data.Rat.Floor

/-!
# The grammar of decimals

A decimal is written as digits with at most one dot and at least one digit, after at most one
sign.  The parser accepts more than that, misses one number and can panic: it takes a lone
dot for zero, a sign after the dot for the sign of the fraction, and whatever follows the
eighteenth byte of the fraction for digits; it rejects the least decimal; and it cuts the
fraction inside a character.  Outside these cases it accepts exactly the grammar.
-/

namespace Exg

open Support

namespace Decimal128

/-! ## The grammar -/

/-- The text is the digits with at most one dot, after at most one sign. -/
structure IsNumeral (text : List Char) (negative : Bool) (whole fraction : List Char) : Prop where
  written : ∃ body, SignedText text negative body ∧
    (body = whole ++ '.' :: fraction ∨ body = whole ∧ fraction = [])
  wholeDigits : AllDigits whole
  fractionDigits : AllDigits fraction
  someDigit : whole ≠ [] ∨ fraction ≠ []

/-- The number that a numeral denotes. -/
def denoted (negative : Bool) (whole fraction : List Char) : ℚ :=
  let magnitude : ℚ := decimalValue whole + decimalValue fraction / 10 ^ fraction.length
  if negative then -magnitude else magnitude

/-- A number truncated toward zero to eighteen fractional digits, in units of the last one. -/
def truncated (number : ℚ) : Int :=
  if 0 ≤ number then ⌊number * 10 ^ 18⌋ else ⌈number * 10 ^ 18⌉

/-- The text is a numeral, and the value is its number truncated to eighteen digits. -/
def Denotes (text : List Char) (value : Decimal128) : Prop :=
  ∃ negative whole fraction, IsNumeral text negative whole fraction ∧
    value = ⟨truncated (denoted negative whole fraction)⟩

/-- The parser does not panic, and gives a value exactly where the trimmed text denotes it and it
is in range. -/
def ParsesGrammar (s : String) : Prop :=
  (∀ text, fromStr s ≠ .panicked text) ∧
    ∀ value, fromStr s = .parsed value ↔ Denotes (trim s.toList) value ∧ value.InRange

theorem floor_magnitude (whole fraction : List Char) :
    ⌊((decimalValue whole : ℚ) + decimalValue fraction / 10 ^ fraction.length) * 10 ^ 18⌋ =
      (rawMagnitude whole fraction : Int) := by
  have positive : 0 < 10 ^ fraction.length := Nat.pow_pos (by decide)
  have word : (scaleWord : ℚ) = 10 ^ 18 := by norm_num [scaleWord]
  have number :
      ((decimalValue whole : ℚ) + decimalValue fraction / 10 ^ fraction.length) * 10 ^ 18 =
      ((decimalValue fraction * scaleWord + decimalValue whole * scaleWord *
        10 ^ fraction.length : Nat) : ℚ) / ((10 ^ fraction.length : Nat) : ℚ) := by
    push_cast
    rw [word]
    field_simp
    ring
  rw [number, Rat.floor_natCast_div_natCast, ← Int.natCast_ediv,
    Nat.add_mul_div_right _ _ positive, rawMagnitude, add_comm]

/-- The digits that are read are those of the denoted number. -/
theorem truncated_denoted (negative : Bool) (whole fraction : List Char) :
    truncated (denoted negative whole fraction) =
      I128.signed negative (rawMagnitude whole fraction) := by
  have floor := floor_magnitude whole fraction
  have nonneg : (0 : ℚ) ≤ decimalValue whole + decimalValue fraction / 10 ^ fraction.length := by
    positivity
  rw [denoted]
  generalize (decimalValue whole : ℚ) + decimalValue fraction / 10 ^ fraction.length = magnitude
    at floor nonneg ⊢
  cases negative with
  | false => exact (if_pos nonneg).trans floor
  | true =>
      rw [I128.signed, if_pos rfl, if_pos rfl, truncated, ← floor]
      by_cases zero : 0 ≤ -magnitude
      · have none : magnitude = 0 := le_antisymm (neg_nonneg.1 zero) nonneg
        simp [none]
      · rw [if_neg zero, neg_mul, Int.ceil_neg]

/-! ## The parts of a numeral -/

theorem unsigned_of_parts {whole fraction body : List Char} (digits : AllDigits whole)
    (shape : body = whole ++ '.' :: fraction ∨ body = whole ∧ fraction = []) :
    startsWithSign body = false := by
  cases whole with
  | nil =>
      rcases shape with rfl | ⟨rfl, -⟩
      · rfl
      · rfl
  | cons char rest =>
      rcases shape with rfl | ⟨rfl, -⟩
      · exact (startsWithSign_cons char _ rest).trans (unsigned_of_allDigits digits)
      · exact unsigned_of_allDigits digits

/-- The parser takes a numeral apart as it was put together. -/
theorem IsNumeral.parts {text whole fraction : List Char} {negative : Bool}
    (numeral : IsNumeral text negative whole fraction) :
    ∃ body, stripSign text = some (negative, body) ∧ splitDot body = (whole, fraction) := by
  obtain ⟨body, signedText, shape⟩ := numeral.written
  have undotted := undotted_of_allDigits numeral.wholeDigits
  refine ⟨body, stripSign_eq_some_iff.2
    ⟨signedText, unsigned_of_parts numeral.wholeDigits shape⟩, ?_⟩
  rcases shape with rfl | ⟨rfl, rfl⟩
  · exact splitDot_dotted fraction undotted
  · exact splitDot_undotted undotted

section Parts

variable {text body : List Char} {negative : Bool}

/-- The only numeral that a text can be is the one of its parts. -/
theorem isNumeral_iff (stripped : stripSign text = some (negative, body))
    {sign : Bool} {whole fraction : List Char} :
    IsNumeral text sign whole fraction ↔
      sign = negative ∧ whole = (splitDot body).1 ∧ fraction = (splitDot body).2 ∧
        AllDigits whole ∧ AllDigits fraction ∧ (whole ≠ [] ∨ fraction ≠ []) := by
  constructor
  · intro numeral
    obtain ⟨other, same, parts⟩ := numeral.parts
    rw [stripped] at same
    cases same
    rw [parts]
    exact ⟨rfl, rfl, rfl, numeral.wholeDigits, numeral.fractionDigits, numeral.someDigit⟩
  · rintro ⟨rfl, rfl, rfl, whole, fraction, someDigit⟩
    exact ⟨⟨body, (stripSign_eq_some_iff.1 stripped).1, (splitDot_parts body).2⟩, whole, fraction,
      someDigit⟩

end Parts

/-! ## Where the parser leaves the grammar -/

/-- What the parser takes of a fraction: its first eighteen bytes, or all of it. -/
def leading (fraction : List Char) : List Char :=
  if scaleDigits < byteLength fraction then (takeBytes fraction scaleDigits).getD [] else fraction

/-- The raw value of some digits after the dot, as the parser pads them. -/
def rawFraction (minus : Bool) (digits fraction : List Char) : Int :=
  I128.signed minus (decimalValue digits * 10 ^ (scaleDigits - byteLength (leading fraction)))

/-- The parser reads the two sides of a dot as they are written. -/
structure ReadAsWritten (negative : Bool) (whole fraction : List Char) : Prop where
  /-- The dot does not stand alone. -/
  notLone : whole ≠ [] ∨ fraction ≠ []
  /-- The cut after eighteen bytes is not inside a character. -/
  cutBetween : scaleDigits < byteLength fraction → takeBytes fraction scaleDigits ≠ none
  /-- What is taken of a fraction that is not all digits is not a number in range: neither a
  number with a sign of its own, nor digits with something else behind the cut. -/
  noNumber : ¬AllDigits fraction → ∀ minus digits, SignedText (leading fraction) minus digits →
    AllDigits digits →
      ¬(I128.Fits (decimalValue whole * scale) ∧
        I128.Fits (decimalValue whole * scale + rawFraction minus digits fraction))
  /-- The number is not the least decimal. -/
  notLeast : AllDigits fraction → ¬(negative = true ∧ rawMagnitude whole fraction = 2 ^ 127)

/-- The text has no sign to strip or nothing after it, no integer part in range before its
first dot, or is read as it is written. -/
def ReadsExactly (s : String) : Prop :=
  ∀ negative body, stripSign (trim s.toList) = some (negative, body) → body ≠ [] →
    AllDigits (splitDot body).1 → I128.Fits (decimalValue (splitDot body).1) →
      ReadAsWritten negative (splitDot body).1 (splitDot body).2

section Leading

variable {fraction : List Char}

private theorem cutBetween_of_digits (digits : AllDigits fraction)
    (long : scaleDigits < byteLength fraction) : takeBytes fraction scaleDigits ≠ none := by
  rw [byteLength_digits digits] at long
  rw [takeBytes_digits digits long.le]
  exact Option.some_ne_none _

/-- The parser is handed the leading part, padded with zeros. -/
theorem handedFraction_eq {handed : List Char} (given : handedFraction fraction = some handed) :
    handed = leading fraction ++
      List.replicate (scaleDigits - byteLength (leading fraction)) '0' := by
  have length := byteLength_handedFraction given
  rw [handedFraction] at given
  rw [leading]
  by_cases long : scaleDigits < byteLength fraction
  · rw [if_pos long] at given
    rw [if_pos long, given, Option.getD_some, length]
    exact (List.append_nil handed).symm
  · rw [if_neg long] at given
    rw [if_neg long]
    exact (Option.some.inj given).symm

private theorem leading_ne_nil {handed : List Char} (given : handedFraction fraction = some handed)
    (nonempty : fraction ≠ []) : leading fraction ≠ [] := by
  rw [leading]
  by_cases long : scaleDigits < byteLength fraction
  · have length := byteLength_handedFraction given
    rw [handedFraction, if_pos long] at given
    rw [if_pos long, given, Option.getD_some]
    rintro rfl
    cases length
  · rwa [if_neg long]

private theorem decimalValue_append_zeros (text : List Char) (count : Nat) :
    decimalValue (text ++ List.replicate count '0') = decimalValue text * 10 ^ count := by
  rw [decimalValue_append, decimalValue_zeros, List.length_replicate, add_zero]

/-- A sign stays in front when something is put behind. -/
theorem signedText_append {text rest : List Char} {minus : Bool}
    (signedText : SignedText text minus rest) (more : List Char) :
    SignedText (text ++ more) minus (rest ++ more) := by
  rcases signedText with ⟨rfl, rfl⟩ | ⟨rfl | rfl, rfl⟩
  · exact Or.inl ⟨rfl, rfl⟩
  · exact Or.inr ⟨Or.inl rfl, rfl⟩
  · exact Or.inr ⟨Or.inr rfl, rfl⟩

/-- The sign of a text is that of any part of it that is not empty. -/
theorem signedText_of_append {text more rest : List Char} {minus : Bool} (nonempty : text ≠ [])
    (signedText : SignedText (text ++ more) minus rest) :
    ∃ part, SignedText text minus part ∧ rest = part ++ more := by
  cases text with
  | nil => exact absurd rfl nonempty
  | cons char tail =>
      rcases signedText with ⟨same, rfl⟩ | ⟨rfl | same, rfl⟩
      · cases same
        exact ⟨tail, Or.inl ⟨rfl, rfl⟩, rfl⟩
      · exact ⟨char :: tail, Or.inr ⟨Or.inl rfl, rfl⟩, rfl⟩
      · cases same
        exact ⟨tail, Or.inr ⟨Or.inr rfl, rfl⟩, rfl⟩

/-- A text of eighteen bytes has something behind its sign, and not more than eighteen
characters. -/
theorem length_of_signedText {text rest : List Char} {minus : Bool}
    (signedText : SignedText text minus rest) (bytes : byteLength text = 18) :
    rest ≠ [] ∧ rest.length ≤ 18 := by
  have fewer := length_le_byteLength text
  rcases signedText with ⟨rfl, -⟩ | ⟨rfl | rfl, -⟩
  · refine ⟨?_, ?_⟩
    · rintro rfl
      cases bytes
    · rw [List.length_cons] at fewer
      omega
  · refine ⟨?_, fewer.trans bytes.le⟩
    rintro rfl
    cases bytes
  · refine ⟨?_, ?_⟩
    · rintro rfl
      cases bytes
    · rw [List.length_cons] at fewer
      omega

/-- The handed text is a number if the leading part is digits after at most one sign. -/
theorem parse_handed_iff {handed : List Char} (given : handedFraction fraction = some handed)
    (nonempty : fraction ≠ []) {number : Int} :
    I128.parse handed = .ok number ↔
      ∃ minus digits, SignedText (leading fraction) minus digits ∧ AllDigits digits ∧
        rawFraction minus digits fraction = number := by
  have bytes := byteLength_handedFraction given
  have padded := handedFraction_eq given
  rw [I128.parse_ok_iff]
  constructor
  · rintro ⟨minus, digits, signedText, -, allDigits, -, rfl⟩
    rw [padded] at signedText
    obtain ⟨part, leads, rfl⟩ := signedText_of_append (leading_ne_nil given nonempty) signedText
    exact ⟨minus, part, leads, (allDigits_append.1 allDigits).1,
      congrArg (I128.signed minus) (decimalValue_append_zeros part _).symm⟩
  · rintro ⟨minus, digits, signedText, allDigits, rfl⟩
    have whole := signedText_append signedText
      (List.replicate (scaleDigits - byteLength (leading fraction)) '0')
    rw [← padded] at whole
    obtain ⟨someDigit, few⟩ := length_of_signedText whole bytes
    have digitsPadded := allDigits_append.2 ⟨allDigits,
      allDigits_zeros (scaleDigits - byteLength (leading fraction))⟩
    have small := (decimalValue_lt digitsPadded).trans_le (Nat.pow_le_pow_right (by decide) few)
    refine ⟨minus, _, whole, someDigit, digitsPadded, I128.fits_of_natAbs_lt ?_,
      congrArg (I128.signed minus) (decimalValue_append_zeros digits _)⟩
    cases minus with
    | false =>
        simp only [I128.signed, Bool.false_eq_true, if_false, Int.natAbs_natCast]
        omega
    | true =>
        simp only [I128.signed, if_true, Int.natAbs_neg, Int.natAbs_natCast]
        omega

end Leading

/-! ## Exactly where the parser follows the grammar -/

private theorem fits_signed_iff {negative : Bool} {magnitude : Nat} :
    I128.Fits (I128.signed negative magnitude) ↔
      magnitude < 2 ^ 127 ∨ (negative = true ∧ magnitude = 2 ^ 127) := by
  rw [I128.fits_iff]
  cases negative with
  | false =>
      simp only [I128.signed, Bool.false_eq_true, if_false, false_and, or_false]
      omega
  | true =>
      simp only [I128.signed, if_true, true_and]
      omega

section Exactly

variable {s : String} {negative : Bool} {body : List Char}

/-- What a text with known parts denotes. -/
theorem denotes_iff (stripped : stripSign (trim s.toList) = some (negative, body))
    {value : Decimal128} :
    Denotes (trim s.toList) value ↔
      AllDigits (splitDot body).1 ∧ AllDigits (splitDot body).2 ∧
        ((splitDot body).1 ≠ [] ∨ (splitDot body).2 ≠ []) ∧
        value = ⟨I128.signed negative (rawMagnitude (splitDot body).1 (splitDot body).2)⟩ := by
  constructor
  · rintro ⟨sign, whole, fraction, numeral, rfl⟩
    obtain ⟨rfl, rfl, rfl, wholeDigits, fractionDigits, someDigit⟩ :=
      (isNumeral_iff stripped).1 numeral
    exact ⟨wholeDigits, fractionDigits, someDigit, by rw [truncated_denoted]⟩
  · rintro ⟨whole, fraction, someDigit, rfl⟩
    exact ⟨negative, _, _, (isNumeral_iff stripped).2 ⟨rfl, rfl, rfl, whole, fraction, someDigit⟩,
      by rw [truncated_denoted]⟩

/-- A text that is rejected is to denote no value in range. -/
theorem parsesGrammar_of_rejected (rejected : ∃ error, fromStr s = .rejected error) :
    ParsesGrammar s ↔ ∀ value, Denotes (trim s.toList) value → ¬value.InRange := by
  obtain ⟨error, ended⟩ := rejected
  rw [ParsesGrammar, ended]
  constructor
  · intro follows value denotes inRange
    cases (follows.2 value).2 ⟨denotes, inRange⟩
  · intro none
    refine ⟨fun text same => ?_, fun value => ⟨fun same => ?_, fun both => ?_⟩⟩
    · cases same
    · cases same
    · exact absurd both.2 (none value both.1)

/-- A text without parts denotes nothing and is rejected. -/
theorem parsesGrammar_of_signs (stripped : stripSign (trim s.toList) = none) :
    ParsesGrammar s := by
  have rejected : ∃ error, fromStr s = .rejected error := by
    simp only [fromStr, stripped]
    split
    · exact ⟨_, rfl⟩
    · exact ⟨_, rfl⟩
  rw [parsesGrammar_of_rejected rejected]
  rintro value ⟨sign, whole, fraction, numeral, -⟩
  obtain ⟨other, same, -⟩ := numeral.parts
  rw [stripped] at same
  cases same

private theorem parsesGrammar_of_nothing
    (stripped : stripSign (trim s.toList) = some (negative, [])) :
    ParsesGrammar s := by
  have rejected : ∃ error, fromStr s = .rejected error := by
    simp only [fromStr, stripped, if_true]
    split
    · exact ⟨_, rfl⟩
    · exact ⟨_, rfl⟩
  rw [parsesGrammar_of_rejected rejected]
  intro value denotes
  obtain ⟨-, -, someDigit, -⟩ := (denotes_iff stripped).1 denotes
  exact absurd someDigit (by decide)

/-- Without an integer part in range, a text is rejected and denotes nothing in range. -/
theorem parsesGrammar_of_integer (stripped : stripSign (trim s.toList) = some (negative, body))
    (nonempty : body ≠ [])
    (wrong : ¬(AllDigits (splitDot body).1 ∧ I128.Fits (decimalValue (splitDot body).1))) :
    ParsesGrammar s := by
  have unsigned := unsigned_splitDot (stripSign_eq_some_iff.1 stripped).2
  have rejected : ∃ error, fromStr s = .rejected error := by
    rw [fromStr_body stripped nonempty]
    exact readInteger_rejected unsigned wrong
  rw [parsesGrammar_of_rejected rejected]
  intro value denotes inRange
  obtain ⟨digits, -, -, rfl⟩ := (denotes_iff stripped).1 denotes
  have small : rawMagnitude (splitDot body).1 (splitDot body).2 ≤ 2 ^ 127 := by
    rcases fits_signed_iff.1 inRange with below | ⟨-, same⟩
    · exact below.le
    · exact same.le
  have scaled : decimalValue (splitDot body).1 * 1000000000000000000 ≤ 2 ^ 127 :=
    (Nat.le_add_right _ _).trans small
  exact wrong ⟨digits, fits_natCast_iff.2 (by omega)⟩

/-- With digits on both sides of the dot, the parser leaves the grammar at a lone dot and at the
least decimal. -/
theorem parsesGrammar_of_digits (stripped : stripSign (trim s.toList) = some (negative, body))
    (nonempty : body ≠ []) (whole : AllDigits (splitDot body).1)
    (fraction : AllDigits (splitDot body).2) :
    ParsesGrammar s ↔
      ((splitDot body).1 ≠ [] ∨ (splitDot body).2 ≠ []) ∧
        ¬(negative = true ∧ rawMagnitude (splitDot body).1 (splitDot body).2 = 2 ^ 127) := by
  by_cases fits : rawMagnitude (splitDot body).1 (splitDot body).2 < 2 ^ 127
  · rw [ParsesGrammar, fromStr_parsed stripped nonempty whole fraction fits]
    constructor
    · intro follows
      obtain ⟨denotes, -⟩ := (follows.2 _).1 rfl
      exact ⟨((denotes_iff stripped).1 denotes).2.2.1, fun least => fits.ne least.2⟩
    · rintro ⟨someDigit, -⟩
      refine ⟨fun text same => ?_, fun value => ⟨fun same => ?_, fun both => ?_⟩⟩
      · cases same
      · cases same
        exact ⟨(denotes_iff stripped).2 ⟨whole, fraction, someDigit, rfl⟩,
          fits_signed_iff.2 (Or.inl fits)⟩
      · obtain ⟨-, -, -, rfl⟩ := (denotes_iff stripped).1 both.1
        rfl
  · rw [parsesGrammar_of_rejected (fromStr_outOfRange stripped nonempty whole fraction fits)]
    constructor
    · intro none
      have someDigit : (splitDot body).1 ≠ [] ∨ (splitDot body).2 ≠ [] := by
        by_contra lone
        rw [not_or, not_not, not_not] at lone
        rw [lone.1, lone.2] at fits
        exact fits (by decide)
      refine ⟨someDigit, fun least => ?_⟩
      exact none _ ((denotes_iff stripped).2 ⟨whole, fraction, someDigit, rfl⟩)
        (fits_signed_iff.2 (Or.inr least))
    · rintro ⟨-, notLeast⟩ value denotes inRange
      obtain ⟨-, -, -, rfl⟩ := (denotes_iff stripped).1 denotes
      rcases fits_signed_iff.1 inRange with below | least
      · exact fits below
      · exact notLeast least

/-- With something else than digits after the dot, the parser leaves the grammar where it
panics and where it takes a number for the fraction. -/
theorem parsesGrammar_of_other (stripped : stripSign (trim s.toList) = some (negative, body))
    (nonempty : body ≠ []) (whole : AllDigits (splitDot body).1)
    (fits : I128.Fits (decimalValue (splitDot body).1)) (other : ¬AllDigits (splitDot body).2) :
    ParsesGrammar s ↔
      (scaleDigits < byteLength (splitDot body).2 →
        takeBytes (splitDot body).2 scaleDigits ≠ none) ∧
      ∀ minus digits, SignedText (leading (splitDot body).2) minus digits → AllDigits digits →
        ¬(I128.Fits (decimalValue (splitDot body).1 * scale) ∧
          I128.Fits (decimalValue (splitDot body).1 * scale +
            rawFraction minus digits (splitDot body).2)) := by
  have someFraction : (splitDot body).2 ≠ [] := by
    intro empty
    rw [empty] at other
    exact other allDigits_nil
  have nothing : ∀ value, ¬Denotes (trim s.toList) value :=
    fun value denotes => other ((denotes_iff stripped).1 denotes).2.1
  have ended : fromStr s = (handedFraction (splitDot body).2).elim
      (.panicked "end byte index 18 is not a char boundary") fun handed =>
        parseThen handed fun fracVal =>
          assemble negative (decimalValue (splitDot body).1) fracVal := by
    rw [fromStr_body stripped nonempty, readInteger_digits whole fits, readFraction_eq someFraction]
  cases given : handedFraction (splitDot body).2 with
  | none =>
      rw [given] at ended
      constructor
      · intro follows
        exact absurd ended (follows.1 _)
      · rintro ⟨cutBetween, -⟩
        rw [handedFraction] at given
        split at given
        · rename_i long
          exact absurd given (cutBetween long)
        · cases given
  | some handed =>
      rw [given, Option.elim_some] at ended
      have cutBetween : scaleDigits < byteLength (splitDot body).2 →
          takeBytes (splitDot body).2 scaleDigits ≠ none := by
        intro long
        rw [handedFraction, if_pos long] at given
        rw [given]
        exact Option.some_ne_none handed
      rw [and_iff_right cutBetween]
      cases read : I128.parse handed with
      | error kind =>
          rw [parseThen, read] at ended
          rw [parsesGrammar_of_rejected ⟨_, ended⟩]
          refine iff_of_true (fun value denotes => absurd denotes (nothing value)) ?_
          intro minus digits signedText allDigits
          have number := (parse_handed_iff given someFraction).2
            ⟨minus, digits, signedText, allDigits, Eq.refl _⟩
          rw [read] at number
          cases number
      | ok number =>
          have small := natAbs_parse_lt (byteLength_handedFraction given).le read
          have above : -scale < number := by
            rw [scale]
            omega
          rw [parseThen_ok read, assemble_eq negative above] at ended
          by_cases inside : I128.Fits (decimalValue (splitDot body).1 * scale) ∧
              I128.Fits (decimalValue (splitDot body).1 * scale + number)
          · rw [if_pos inside] at ended
            refine iff_of_false (fun follows => ?_) fun noNumber => ?_
            · exact nothing _ ((follows.2 _).1 ended).1
            · obtain ⟨minus, digits, signedText, allDigits, rfl⟩ :=
                (parse_handed_iff given someFraction).1 read
              exact noNumber minus digits signedText allDigits inside
          · rw [if_neg inside] at ended
            rw [parsesGrammar_of_rejected ⟨_, ended⟩]
            refine iff_of_true (fun value denotes => absurd denotes (nothing value)) ?_
            intro minus digits signedText allDigits
            have same := (parse_handed_iff given someFraction).2
              ⟨minus, digits, signedText, allDigits, Eq.refl _⟩
            rw [read] at same
            rwa [← Except.ok.inj same]

end Exactly

/-- The parser follows the grammar on exactly the texts that it reads as they are written. -/
theorem parses_grammar_iff (s : String) : ParsesGrammar s ↔ ReadsExactly s := by
  cases stripped : stripSign (trim s.toList) with
  | none =>
      refine iff_of_true (parsesGrammar_of_signs stripped) fun negative body same => ?_
      rw [stripped] at same
      cases same
  | some parts =>
      obtain ⟨negative, body⟩ := parts
      by_cases nonempty : body = []
      · rw [nonempty] at stripped
        refine iff_of_true (parsesGrammar_of_nothing stripped) fun sign other same filled => ?_
        rw [stripped] at same
        cases same
        exact absurd rfl filled
      · have reads : ReadsExactly s ↔ (AllDigits (splitDot body).1 →
            I128.Fits (decimalValue (splitDot body).1) →
              ReadAsWritten negative (splitDot body).1 (splitDot body).2) := by
          constructor
          · exact fun exactly => exactly negative body stripped nonempty
          · intro written sign other same
            rw [stripped] at same
            cases same
            exact fun _ => written
        rw [reads]
        by_cases integer : AllDigits (splitDot body).1 ∧ I128.Fits (decimalValue (splitDot body).1)
        · obtain ⟨whole, fits⟩ := integer
          have only : (AllDigits (splitDot body).1 → I128.Fits (decimalValue (splitDot body).1) →
              ReadAsWritten negative (splitDot body).1 (splitDot body).2) ↔
                ReadAsWritten negative (splitDot body).1 (splitDot body).2 :=
            ⟨fun read => read whole fits, fun read _ _ => read⟩
          rw [only]
          by_cases fraction : AllDigits (splitDot body).2
          · rw [parsesGrammar_of_digits stripped nonempty whole fraction]
            constructor
            · rintro ⟨someDigit, notLeast⟩
              exact ⟨someDigit, cutBetween_of_digits fraction, fun other => absurd fraction other,
                fun _ => notLeast⟩
            · exact fun read => ⟨read.notLone, read.notLeast fraction⟩
          · rw [parsesGrammar_of_other stripped nonempty whole fits fraction]
            constructor
            · rintro ⟨cutBetween, noNumber⟩
              refine ⟨Or.inr fun empty => fraction ?_, cutBetween, fun _ => noNumber,
                fun digits => absurd digits fraction⟩
              rw [empty]
              exact allDigits_nil
            · exact fun read => ⟨read.cutBetween, read.noNumber fraction⟩
        · exact iff_of_true (parsesGrammar_of_integer stripped nonempty integer)
            fun whole fits => absurd ⟨whole, fits⟩ integer

/-- A fraction that is cut inside a character panics, a sign after the dot makes the fraction
negative, and a lone dot is zero. -/
theorem parser_leaves_grammar :
    fromStr "0.12345678901234567é" = .panicked "end byte index 18 is not a char boundary" ∧
      ¬ParsesGrammar "0.12345678901234567é" ∧
      fromStr "1.-5" = .parsed ⟨950000000000000000⟩ ∧ ¬ParsesGrammar "1.-5" ∧
      fromStr "." = .parsed 0 ∧ ¬ParsesGrammar "." := by
  have cut : fromStr "0.12345678901234567é" =
      .panicked "end byte index 18 is not a char boundary" := by decide +kernel
  have signed : fromStr "1.-5" = .parsed ⟨950000000000000000⟩ := by decide +kernel
  have lone : fromStr "." = .parsed 0 := by decide +kernel
  refine ⟨cut, fun follows => follows.1 _ cut, signed, fun follows => ?_, lone, fun follows => ?_⟩
  · have denotes := ((follows.2 _).1 signed).1
    have parts : stripSign (trim "1.-5".toList) = some (false, ['1', '.', '-', '5']) := by
      decide +kernel
    have digits := ((denotes_iff parts).1 denotes).2.1
    exact absurd (digits '-' (by decide)) (by decide)
  · have denotes := ((follows.2 _).1 lone).1
    have parts : stripSign (trim ".".toList) = some (false, ['.']) := by decide +kernel
    have someDigit := ((denotes_iff parts).1 denotes).2.2.1
    exact absurd someDigit (by decide)

end Decimal128
end Exg
