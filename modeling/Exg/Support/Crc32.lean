import Mathlib.Data.List.Basic
import Mathlib.Logic.Function.Iterate
import Mathlib.Tactic.Common

/-!
# CRC-32

The reflected CRC-32 with the polynomial `0xEDB88320`, bit by bit.  One step of the register
loses nothing, so that two strings of bytes that differ in a single byte have different
checksums.
-/

namespace Support

/-- A change of any single byte changes the checksum. -/
def DetectsByteChange (checksum : List UInt8 → UInt32) : Prop :=
  ∀ before old new after, old ≠ new →
    checksum (before ++ old :: after) ≠ checksum (before ++ new :: after)

namespace Crc32

def polynomial : BitVec 32 := 0xEDB88320#32

/-- Shift one bit out of the register. -/
def step (register : BitVec 32) : BitVec 32 :=
  if register.getLsbD 0 then (register >>> 1) ^^^ polynomial else register >>> 1

def absorb (register : BitVec 32) (byte : UInt8) : BitVec 32 :=
  Nat.iterate step 8 (register ^^^ byte.toBitVec.zeroExtend 32)

/-- The register after some bytes. -/
def feed (register : BitVec 32) (bytes : List UInt8) : BitVec 32 := bytes.foldl absorb register

end Crc32

open Crc32

def crc32 (bytes : List UInt8) : UInt32 := .ofBitVec (~~~(feed 0xFFFFFFFF#32 bytes))

example : crc32 [49, 50, 51, 52, 53, 54, 55, 56, 57] = 0xCBF43926 := by decide +kernel

namespace Crc32

/-- The bit shifted out is the highest bit of the result. -/
theorem getLsbD_step (register : BitVec 32) : (step register).getLsbD 31 = register.getLsbD 0 := by
  rw [step]
  cases lowest : register.getLsbD 0 with
  | true =>
      have top : polynomial.getLsbD 31 = true := by decide
      simp [top]
  | false => simp

theorem step_injective : Function.Injective step := by
  intro first second same
  have lowest : first.getLsbD 0 = second.getLsbD 0 := by
    rw [← getLsbD_step, same, getLsbD_step]
  have shifted : first >>> 1 = second >>> 1 := by
    rw [step, step, lowest] at same
    split at same
    · exact (BitVec.xor_left_inj _).1 same
    · exact same
  apply BitVec.eq_of_getLsbD_eq
  intro index bound
  cases index with
  | zero => exact lowest
  | succ index =>
      have bit := congrArg (fun register => register.getLsbD index) shifted
      simpa [BitVec.getLsbD_ushiftRight, Nat.add_comm] using bit

theorem absorb_injective (byte : UInt8) :
    Function.Injective fun register => absorb register byte := by
  intro first second same
  exact (BitVec.xor_left_inj _).1 ((step_injective.iterate 8) same)

theorem feed_injective (bytes : List UInt8) :
    Function.Injective fun register => feed register bytes := by
  induction bytes with
  | nil => exact fun _ _ same => same
  | cons byte rest inductionHypothesis =>
      intro first second same
      exact absorb_injective byte (inductionHypothesis same)

theorem absorb_byte_inj {register : BitVec 32} {first second : UInt8}
    (same : absorb register first = absorb register second) : first = second := by
  have wide : first.toBitVec.zeroExtend 32 = second.toBitVec.zeroExtend 32 :=
    (BitVec.xor_right_inj _).1 ((step_injective.iterate 8) same)
  have values := congrArg BitVec.toNat wide
  simp only [BitVec.truncate_eq_setWidth, BitVec.toNat_setWidth, UInt8.toNat_toBitVec] at values
  have firstBound := first.toNat_lt
  have secondBound := second.toNat_lt
  apply UInt8.toNat_inj.1
  omega

end Crc32

theorem crc32_detects : DetectsByteChange crc32 := by
  intro before old new after differ same
  have registers : feed 0xFFFFFFFF#32 (before ++ old :: after) =
      feed 0xFFFFFFFF#32 (before ++ new :: after) :=
    BitVec.not_inj.1 (UInt32.toBitVec_inj.2 same)
  rw [feed, feed, List.foldl_append, List.foldl_append] at registers
  exact differ (absorb_byte_inj (feed_injective after registers))

end Support
