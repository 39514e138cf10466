import Exg.Common.CheckedDecimal
import Exg.Support.Digits

/-!
# Decimals as text

A decimal is printed as its integer part and, after a dot, its fraction without trailing
zeros.  It is parsed by handing the two sides of the first dot to the parser of `i128`, the
fraction padded with zeros or cut to eighteen bytes.
-/

namespace Exg

open Support

/-! ## Text -/

/-- Unicode `White_Space`, which `str::trim` strips. -/
def isWhiteSpace (char : Char) : Bool :=
  let code := char.toNat
  decide (9 ≤ code ∧ code ≤ 13) || decide (0x2000 ≤ code ∧ code ≤ 0x200A) ||
    [0x20, 0x85, 0xA0, 0x1680, 0x2028, 0x2029, 0x202F, 0x205F, 0x3000].contains code

def trim (text : List Char) : List Char :=
  (text.dropWhile isWhiteSpace).rdropWhile isWhiteSpace

/-- `str::len`: the number of bytes of the encoding. -/
def byteLength (text : List Char) : Nat := (text.map Char.utf8Size).sum

/-- The slice of the first bytes of a text; nothing where it would end inside a character or
after the text. -/
def takeBytes : List Char → Nat → Option (List Char)
  | _, 0 => some []
  | [], _ + 1 => none
  | char :: rest, count + 1 =>
      if char.utf8Size ≤ count + 1 then
        (takeBytes rest (count + 1 - char.utf8Size)).map (char :: ·)
      else none

def startsWithSign : List Char → Bool
  | '+' :: _ => true
  | '-' :: _ => true
  | _ => false

/-! ## The parser of `i128` -/

inductive IntErrorKind where
  | empty
  | invalidDigit
  | posOverflow
  | negOverflow
  deriving DecidableEq, Repr

def IntErrorKind.text : IntErrorKind → String
  | .empty => "cannot parse integer from empty string"
  | .invalidDigit => "invalid digit found in string"
  | .posOverflow => "number too large to fit in target type"
  | .negOverflow => "number too small to fit in target type"

namespace I128

def toDigit (char : Char) : Option Nat :=
  if char.isDigit then some (char.toNat - '0'.toNat) else none

def overflowKind (negative : Bool) : IntErrorKind := if negative then .negOverflow else .posOverflow

/-- The loop of the parser: a negative number is built by subtraction. -/
def readDigits (negative : Bool) : List Char → Int → Except IntErrorKind Int
  | [], result => .ok result
  | char :: rest, result =>
      match toDigit char with
      | none => .error .invalidDigit
      | some digit =>
          match checkedMul result 10 with
          | none => .error (overflowKind negative)
          | some tens =>
              match checked (if negative then tens - digit else tens + digit) with
              | none => .error (overflowKind negative)
              | some next => readDigits negative rest next

/-- `str::parse::<i128>`: one sign may stand before the digits. -/
def parse (text : List Char) : Except IntErrorKind Int :=
  match text with
  | [] => .error .empty
  | ['+'] => .error .invalidDigit
  | ['-'] => .error .invalidDigit
  | '+' :: digits => readDigits false digits 0
  | '-' :: digits => readDigits true digits 0
  | digits => readDigits false digits 0

end I128

namespace Decimal128

/-! ## Printing -/

/-- `SCALE as u128`. -/
def scaleWord : Nat := 1000000000000000000

def scaleDigits : Nat := 18

/-- `Display`: the characters that are written. -/
def fmt (value : Decimal128) : List Char :=
  if value.raw = 0 then ['0']
  else
    let integerPart := value.raw.natAbs / scaleWord
    let fracPart := value.raw.natAbs % scaleWord
    (if value.raw < 0 then ['-'] else []) ++ Nat.toDigits 10 integerPart ++
      if fracPart ≠ 0 then
        -- leading zeros stay, trailing zeros are trimmed
        '.' :: ((Nat.toDigits 10 fracPart).leftpad scaleDigits '0').rdropWhile (· == '0')
      else []

def toText (value : Decimal128) : String := String.ofList value.fmt

/-! ## Parsing -/

/-- What `from_str` can end in. -/
inductive ParseOutcome where
  | parsed (value : Decimal128)
  | rejected (error : String)
  | panicked (text : String)
  deriving DecidableEq, Repr

/-- Take one sign off the text; nothing where a second one follows. -/
def stripSign : List Char → Option (Bool × List Char)
  | '-' :: rest => if startsWithSign rest then none else some (true, rest)
  | '+' :: rest => if startsWithSign rest then none else some (false, rest)
  | text => some (false, text)

/-- The two sides of the first dot. -/
def splitDot (text : List Char) : List Char × List Char :=
  (text.takeWhile (· != '.'), (text.dropWhile (· != '.')).drop 1)

/-- Hand a text to the parser of `i128`, and go on with the number. -/
def parseThen (text : List Char) (rest : Int → ParseOutcome) : ParseOutcome :=
  match I128.parse text with
  | .ok value => rest value
  | .error kind => .rejected kind.text

def readInteger (intStr : List Char) (rest : Int → ParseOutcome) : ParseOutcome :=
  if intStr = [] then rest 0 else parseThen intStr rest

/-- Pad the fraction with zeros, or cut it to eighteen bytes. -/
def readFraction (fracStr : List Char) (rest : Int → ParseOutcome) : ParseOutcome :=
  if fracStr = [] then rest 0
  else if scaleDigits < byteLength fracStr then
    match takeBytes fracStr scaleDigits with
    | some truncated => parseThen truncated rest
    | none => .panicked "end byte index 18 is not a char boundary"
  else
    parseThen (fracStr ++ List.replicate (scaleDigits - byteLength fracStr) '0') rest

/-- Put the two parts and the sign together. -/
def assemble (negative : Bool) (intVal fracVal : Int) : ParseOutcome :=
  match (I128.checkedMul intVal scale).bind fun scaled => I128.checkedAdd scaled fracVal with
  | none => .rejected "value out of range"
  | some raw =>
      if negative then
        match I128.neg raw with
        | .ok opposite => .parsed ⟨opposite⟩
        | .error _ => .panicked "attempt to negate with overflow"
      else .parsed ⟨raw⟩

/-- `FromStr`. -/
def fromStr (s : String) : ParseOutcome :=
  let text := trim s.toList
  if text = [] then .rejected "empty string"
  else
    match stripSign text with
    | none => .rejected "invalid sign"
    | some (negative, body) =>
        if body = [] then .rejected "no digits"
        else
          readInteger (splitDot body).1 fun intVal =>
            readFraction (splitDot body).2 fun fracVal => assemble negative intVal fracVal

/-! ## Serialization -/

/-- What a data format does with text: it reads back what it has written. -/
structure TextFormat where
  Wire : Type
  serializeStr : String → Wire
  deserializeStr : Wire → Except String String
  reads : ∀ text, deserializeStr (serializeStr text) = .ok text

/-- `Serialize`: as a decimal string. -/
def serialize (format : TextFormat) (value : Decimal128) : format.Wire :=
  format.serializeStr value.toText

/-- `Deserialize`: read a string, and parse it. -/
def deserialize (format : TextFormat) (wire : format.Wire) : ParseOutcome :=
  match format.deserializeStr wire with
  | .ok text => fromStr text
  | .error error => .rejected error

end Decimal128

/-! ## What the parser of `i128` accepts -/

/-- A text is a run of characters with at most one sign before it. -/
def SignedText (text : List Char) (negative : Bool) (rest : List Char) : Prop :=
  (text = '-' :: rest ∧ negative = true) ∨ ((text = rest ∨ text = '+' :: rest) ∧ negative = false)

/-- Whether a text starts with a sign shows in its first character. -/
theorem startsWithSign_cons (char : Char) (rest more : List Char) :
    startsWithSign (char :: rest) = startsWithSign (char :: more) := by
  by_cases plus : char = '+'
  · rw [plus]
    rfl
  · by_cases minus : char = '-'
    · rw [minus]
      rfl
    · simp [startsWithSign, plus, minus]

theorem unsigned_of_allDigits {text : List Char} (digits : AllDigits text) :
    startsWithSign text = false := by
  unfold startsWithSign
  split
  · exact absurd (digits '+' List.mem_cons_self) (by decide)
  · exact absurd (digits '-' List.mem_cons_self) (by decide)
  · rfl

namespace I128

private theorem fits_signed_of_le {negative : Bool} {small large : Nat} (within : small ≤ large)
    (fits : Fits (signed negative large)) : Fits (signed negative small) := by
  have minimum : minValue = -2 ^ 127 := by decide
  have maximum : maxValue = 2 ^ 127 - 1 := by decide
  cases negative with
  | false =>
      simp only [signed, Bool.false_eq_true, if_false, Fits, minimum, maximum] at fits ⊢
      omega
  | true =>
      simp only [signed, if_true, Fits, minimum, maximum] at fits ⊢
      omega

/-- Reading digits gives their number, if that fits: the numbers on the way are smaller. -/
theorem readDigits_ok_iff {negative : Bool} {text : List Char} {start : Nat} {value : Int}
    (fits : Fits (signed negative start)) :
    readDigits negative text (signed negative start) = .ok value ↔
      AllDigits text ∧ Fits (signed negative (Nat.ofDigitChars 10 text start)) ∧
        signed negative (Nat.ofDigitChars 10 text start) = value := by
  induction text generalizing start with
  | nil => simp [readDigits, allDigits_nil, fits]
  | cons char rest inductionHypothesis =>
      rw [readDigits, toDigit, allDigits_cons, Nat.ofDigitChars_cons]
      by_cases digit : char.isDigit = true
      · generalize char.toNat - '0'.toNat = unit
        have tens : signed negative start * 10 = signed negative (10 * start) := by
          cases negative with
          | false => simp [signed, mul_comm]
          | true => simp [signed, mul_comm]
        have next : (if negative then signed negative (10 * start) - (unit : Int)
            else signed negative (10 * start) + unit) = signed negative (10 * start + unit) := by
          cases negative with
          | false => simp [signed]
          | true =>
              simp only [signed, if_true]
              omega
        have final := le_ofDigitChars rest (10 * start + unit)
        simp only [if_pos digit, checkedMul, tens, checked]
        by_cases tenfold : Fits (signed negative (10 * start))
        · simp only [if_pos tenfold, next]
          by_cases added : Fits (signed negative (10 * start + unit))
          · simp only [if_pos added, inductionHypothesis added, digit, true_and]
          · have outside : ¬Fits (signed negative
                (Nat.ofDigitChars 10 rest (10 * start + unit))) :=
              fun within => added (fits_signed_of_le final within)
            simp [if_neg added, outside]
        · have outside : ¬Fits (signed negative
              (Nat.ofDigitChars 10 rest (10 * start + unit))) :=
            fun within => tenfold (fits_signed_of_le (by omega) within)
          simp [if_neg tenfold, outside]
      · simp [digit]

theorem readDigits_zero_ok_iff {negative : Bool} {text : List Char} {value : Int} :
    readDigits negative text 0 = .ok value ↔
      AllDigits text ∧ Fits (signed negative (decimalValue text)) ∧
        signed negative (decimalValue text) = value := by
  have zero : signed negative 0 = 0 := by cases negative <;> rfl
  have fits : Fits (signed negative 0) := by
    rw [zero]
    decide
  have general : readDigits negative text (signed negative 0) = .ok value ↔ _ :=
    readDigits_ok_iff fits
  rwa [zero] at general

private theorem parse_minus {rest : List Char} (nonempty : rest ≠ []) :
    parse ('-' :: rest) = readDigits true rest 0 := by
  cases rest with
  | nil => exact absurd rfl nonempty
  | cons char rest => rfl

private theorem parse_plus {rest : List Char} (nonempty : rest ≠ []) :
    parse ('+' :: rest) = readDigits false rest 0 := by
  cases rest with
  | nil => exact absurd rfl nonempty
  | cons char rest => rfl

theorem parse_unsigned {text : List Char} (nonempty : text ≠ [])
    (unsigned : startsWithSign text = false) : parse text = readDigits false text 0 := by
  unfold parse
  split
  · exact absurd rfl nonempty
  · cases unsigned
  · cases unsigned
  · cases unsigned
  · cases unsigned
  · rfl

/-- A text is a number if it is some digits after at most one sign, and the number fits. -/
theorem parse_ok_iff {text : List Char} {value : Int} :
    parse text = .ok value ↔
      ∃ negative digits, SignedText text negative digits ∧ digits ≠ [] ∧ AllDigits digits ∧
        Fits (signed negative (decimalValue digits)) ∧
          signed negative (decimalValue digits) = value := by
  constructor
  · intro parsed
    unfold parse at parsed
    split at parsed
    · cases parsed
    · cases parsed
    · cases parsed
    · rename_i rest single
      exact ⟨false, rest, Or.inr ⟨Or.inr rfl, rfl⟩, fun empty => single (by rw [empty]),
        readDigits_zero_ok_iff.1 parsed⟩
    · rename_i rest single
      exact ⟨true, rest, Or.inl ⟨rfl, rfl⟩, fun empty => single (by rw [empty]),
        readDigits_zero_ok_iff.1 parsed⟩
    · rename_i nonempty _ _ _ _
      exact ⟨false, text, Or.inr ⟨Or.inl rfl, rfl⟩, fun empty => nonempty (by rw [empty]),
        readDigits_zero_ok_iff.1 parsed⟩
  · rintro ⟨negative, digits, signedText, nonempty, number⟩
    rcases signedText with ⟨rfl, rfl⟩ | ⟨rfl | rfl, rfl⟩
    · rw [parse_minus nonempty]
      exact readDigits_zero_ok_iff.2 number
    · rw [parse_unsigned nonempty (unsigned_of_allDigits number.1)]
      exact readDigits_zero_ok_iff.2 number
    · rw [parse_plus nonempty]
      exact readDigits_zero_ok_iff.2 number

end I128

/-! ## The parts of a text -/

namespace Decimal128

private theorem stripSign_unsigned {text : List Char} (unsigned : startsWithSign text = false) :
    stripSign text = some (false, text) := by
  unfold stripSign
  split
  · cases unsigned
  · cases unsigned
  · rfl

/-- Stripping takes the only sign that stands before the rest. -/
theorem stripSign_eq_some_iff {text body : List Char} {negative : Bool} :
    stripSign text = some (negative, body) ↔
      SignedText text negative body ∧ startsWithSign body = false := by
  constructor
  · intro stripped
    unfold stripSign at stripped
    split at stripped
    · split at stripped
      · cases stripped
      · rename_i rest single
        cases stripped
        exact ⟨Or.inl ⟨rfl, rfl⟩, Bool.eq_false_iff.2 single⟩
    · split at stripped
      · cases stripped
      · rename_i rest single
        cases stripped
        exact ⟨Or.inr ⟨Or.inr rfl, rfl⟩, Bool.eq_false_iff.2 single⟩
    · rename_i noMinus noPlus
      cases stripped
      refine ⟨Or.inr ⟨Or.inl rfl, rfl⟩, ?_⟩
      unfold startsWithSign
      split
      · exact absurd rfl (noPlus _)
      · exact absurd rfl (noMinus _)
      · rfl
  · rintro ⟨⟨rfl, rfl⟩ | ⟨rfl | rfl, rfl⟩, unsigned⟩
    · simp [stripSign, unsigned]
    · exact stripSign_unsigned unsigned
    · simp [stripSign, unsigned]

/-- A text is split at its first dot. -/
theorem splitDot_dotted {whole : List Char} (fraction : List Char) (undotted : '.' ∉ whole) :
    splitDot (whole ++ '.' :: fraction) = (whole, fraction) := by
  have kept : ∀ char ∈ whole, (char != '.') = true := by
    intro char member
    simpa using fun same : char = '.' => undotted (same ▸ member)
  rw [splitDot, List.takeWhile_append_of_pos kept, List.dropWhile_append_of_pos kept]
  simp

theorem splitDot_undotted {whole : List Char} (undotted : '.' ∉ whole) :
    splitDot whole = (whole, []) := by
  have kept : ∀ char ∈ whole, (char != '.') = true := by
    intro char member
    simpa using fun same : char = '.' => undotted (same ▸ member)
  rw [splitDot, List.takeWhile_eq_self_iff.2 kept, List.dropWhile_eq_nil_iff.2 kept, List.drop_nil]

/-- The parts of a text put it together again. -/
theorem splitDot_parts (text : List Char) :
    '.' ∉ (splitDot text).1 ∧
      (text = (splitDot text).1 ++ '.' :: (splitDot text).2 ∨
        text = (splitDot text).1 ∧ (splitDot text).2 = []) := by
  induction text with
  | nil => exact ⟨List.not_mem_nil, Or.inr ⟨rfl, rfl⟩⟩
  | cons char rest inductionHypothesis =>
      by_cases dot : char = '.'
      · subst dot
        exact ⟨List.not_mem_nil, Or.inl rfl⟩
      · have step : splitDot (char :: rest) = (char :: (splitDot rest).1, (splitDot rest).2) := by
          simp [splitDot, dot]
        rw [step]
        obtain ⟨undotted, shape⟩ := inductionHypothesis
        refine ⟨?_, ?_⟩
        · rw [List.mem_cons, not_or]
          exact ⟨fun same => dot same.symm, undotted⟩
        · rcases shape with dotted | ⟨plain, empty⟩
          · exact Or.inl (congrArg (char :: ·) dotted)
          · exact Or.inr ⟨congrArg (char :: ·) plain, empty⟩

theorem undotted_of_allDigits {text : List Char} (digits : AllDigits text) : '.' ∉ text :=
  fun member => absurd (digits '.' member) (by decide)

end Decimal128
end Exg
