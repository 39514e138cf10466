import Exg.Support.Bytes
import Mathlib.Data.List.Sort
import Mathlib.Tactic.Common

/-!
# Log segments

A log is a directory of segment files, each named by the first sequence number in it.  A
record is an 8-byte sequence number, a 4-byte payload length, the payload and a 4-byte
checksum over all that.  The checksum is a parameter: it comes from another crate, and the
results hold for every checksum.
-/

namespace Exg.Wal

open Support

abbrev Bytes := List UInt8

/-- The checksum of all bytes fed to a hasher. -/
abbrev Checksum := Bytes → UInt32

/-- Record header: the sequence number and the payload length. -/
def headerSize : Nat := 12

def trailerSize : Nat := 4

def recordOverhead : Nat := headerSize + trailerSize

/-- Maximum payload size. -/
def maxPayloadSize : Nat := 256 * 1024 * 1024

/-! ## File names -/

structure SegmentFile where
  name : String
  bytes : Bytes
  deriving DecidableEq, Repr

/-- The files of a directory, in the order in which it lists them. -/
abbrev Directory := List SegmentFile

def segmentPrefix : List Char := "wal-".toList

def segmentSuffix : List Char := ".log".toList

/-- Format a segment file name from its first sequence number. -/
def segmentFilename (firstSequence : Nat) : String :=
  .ofList (segmentPrefix ++ (paddedDigits 20 firstSequence ++ segmentSuffix))

def stripPlus : List Char → List Char
  | '+' :: rest => rest
  | text => text

/-- `u64::from_str`: an optional plus sign and at least one digit. -/
def parseU64 (text : List Char) : Option Nat :=
  let digits := stripPlus text
  if digits.isEmpty then none else (digitsValue 0 digits).filter (· < 2 ^ 64)

/-- Parse the first sequence number from a segment file name. -/
def parseSegmentFilename (name : String) : Option Nat :=
  ((name.toList.dropPrefix? segmentPrefix).bind fun rest =>
    rest.dropSuffix? segmentSuffix).bind parseU64

/-- The order of segments: by first sequence number. -/
def FirstLe (left right : Nat × SegmentFile) : Prop := left.1 ≤ right.1

instance : DecidableRel FirstLe := fun left right => inferInstanceAs (Decidable (left.1 ≤ right.1))

instance : Std.Total FirstLe := ⟨fun left right => Nat.le_total left.1 right.1⟩

instance : IsTrans (Nat × SegmentFile) FirstLe := ⟨fun _ _ _ => Nat.le_trans⟩

/-- All segment files in the directory, sorted by first sequence. -/
def listSegments (directory : Directory) : List (Nat × SegmentFile) :=
  (directory.filterMap fun file =>
    (parseSegmentFilename file.name).map fun first => (first, file)).insertionSort FirstLe

/-! ## Records -/

section Records

variable (crc : Checksum)

/-- Compute the checksum over the header and payload bytes. -/
def computeCrc (sequence : Nat) (payload : Bytes) : UInt32 :=
  crc (leBytes 8 sequence ++ (leBytes 4 payload.length ++ payload))

def encodeRecord (sequence : Nat) (payload : Bytes) : Bytes :=
  leBytes 8 sequence ++ (leBytes 4 payload.length ++
    (payload ++ leBytes 4 (computeCrc crc sequence payload).toNat))

/-- Errors during record decoding. -/
inductive DecodeError where
  /-- Not enough bytes to form a complete record. -/
  | incomplete
  | crcMismatch (sequence : Nat)
  deriving DecidableEq, Repr

def slice (data : Bytes) (start length : Nat) : Bytes := (data.drop start).take length

/-- Decode a record starting at an offset.  Returns the sequence number, the payload and the
bytes consumed. -/
def decodeRecord (data : Bytes) (offset : Nat) : Except DecodeError (Nat × Bytes × Nat) :=
  let remaining := data.length - offset
  if remaining < headerSize then
    .error .incomplete
  else
    let sequence := leValue (slice data offset 8)
    let payloadLen := leValue (slice data (offset + 8) 4)
    let total := recordOverhead + payloadLen
    if remaining < total then
      .error .incomplete
    else
      let payload := slice data (offset + 12) payloadLen
      let storedCrc := leValue (slice data (offset + 12 + payloadLen) 4)
      if storedCrc ≠ (computeCrc crc sequence payload).toNat then
        .error (.crcMismatch sequence)
      else
        .ok (sequence, payload, total)

theorem decodeRecord_consumed {data : Bytes} {offset sequence consumed : Nat} {payload : Bytes}
    (decoded : decodeRecord crc data offset = .ok (sequence, payload, consumed)) :
    0 < consumed := by
  simp only [decodeRecord] at decoded
  split at decoded
  · cases decoded
  · split at decoded
    · cases decoded
    · split at decoded
      · cases decoded
      · cases decoded
        simp only [recordOverhead, headerSize, trailerSize]
        omega

end Records
end Exg.Wal
