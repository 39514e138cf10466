import Exg.Support.CompareExchange
import Mathlib.Tactic.Linarith

/-!
# Snowflake identifiers

`SnowflakeGen` packs a millisecond and a sequence number into one atomic word and hands out an
identifier with each successful exchange of that word.  The words are the source's 64-bit ones.
Any number of threads may be anywhere in `next_id`, and the clock of each of them may stand
still or go back.
-/

namespace Exg

open Support

namespace SnowflakeGen

/-- Custom epoch: 2024-01-01T00:00:00Z in Unix milliseconds. -/
def snowflakeEpochMs : UInt64 := 1704067200000

def nodeBits : UInt64 := 10
def seqBits : UInt64 := 12
def maxNode : UInt64 := (1 <<< nodeBits) - 1
def maxSeq : UInt64 := (1 <<< seqBits) - 1

end SnowflakeGen

open SnowflakeGen

/-- A generator.  Its atomic word is what the threads share. -/
structure SnowflakeGen where
  nodeId : UInt64
  nodeId_le : nodeId ≤ maxNode

namespace SnowflakeGen

/-- A generator for the given node, which the source asserts to be at most 1023. -/
def new (nodeId : UInt16) : Option SnowflakeGen :=
  if nodeId_le : nodeId.toUInt64 ≤ maxNode then some ⟨nodeId.toUInt64, nodeId_le⟩ else none

variable (gen : SnowflakeGen)

/-- What `next_id` computes from the clock and the word it has loaded: the word to exchange it
for and the identifier, or nothing when the sequence of the millisecond is exhausted. -/
def nextId (nowMs oldState : UInt64) : Option (UInt64 × UInt64) :=
  let oldMs := oldState >>> seqBits
  let oldSeq := oldState &&& maxSeq
  let proposal :=
    if nowMs > oldMs then some (nowMs, 0)
    else
      -- Same millisecond, or an older one.
      let nextSeq := oldSeq + 1
      if nextSeq > maxSeq then none else some (oldMs, nextSeq)
  match proposal with
  | none => none
  | some (newMs, newSeq) =>
      let ts := newMs - snowflakeEpochMs
      some ((newMs <<< seqBits) ||| newSeq,
        (ts <<< (nodeBits + seqBits)) ||| (gen.nodeId <<< seqBits) ||| newSeq)

/-- The identifiers that threads calling `next_id` get, in the order of their exchanges. -/
def issued {Thread : Type} [DecidableEq Thread] (steps : List (ThreadStep Thread UInt64)) :
    List UInt64 :=
  (run (exchangeStep gen.nextId) (SharedWord.start 0) steps).2

/-- A clock reading at or after the epoch and less than `2 ^ 41` milliseconds past it. -/
def InClock (nowMs : UInt64) : Prop :=
  snowflakeEpochMs ≤ nowMs ∧ nowMs.toNat < snowflakeEpochMs.toNat + 2 ^ 41

instance (nowMs : UInt64) : Decidable (InClock nowMs) :=
  inferInstanceAs (Decidable (_ ∧ _))

/-- Where a word stands in the order of identifiers. -/
def position (word : UInt64) : Int :=
  ((word >>> seqBits).toNat - snowflakeEpochMs.toNat : Int) * 2 ^ 22 + gen.nodeId.toNat * 2 ^ 12 +
    (word &&& maxSeq).toNat

private theorem toNat_ms (word : UInt64) : (word >>> seqBits).toNat = word.toNat / 4096 := by
  rw [UInt64.toNat_shiftRight, Nat.shiftRight_eq_div_pow]
  rfl

private theorem toNat_seq (word : UInt64) : (word &&& maxSeq).toNat = word.toNat % 4096 := by
  rw [UInt64.toNat_and]
  exact Nat.and_two_pow_sub_one_eq_mod word.toNat 12

/-- The low bits of a shifted word are free for another one. -/
theorem toNat_pack {high low bits : UInt64} {width : Nat} (bits_eq : bits.toNat = width)
    (width_lt : width < 64) (lowFits : low.toNat < 2 ^ width)
    (highFits : high.toNat * 2 ^ width < 2 ^ 64) :
    ((high <<< bits) ||| low).toNat = high.toNat * 2 ^ width + low.toNat := by
  rw [UInt64.toNat_or, UInt64.toNat_shiftLeft, bits_eq, Nat.mod_eq_of_lt width_lt,
    Nat.mod_eq_of_lt (by rwa [Nat.shiftLeft_eq]), ← Nat.shiftLeft_add_eq_or_of_lt lowFits,
    Nat.shiftLeft_eq]

private theorem nodeId_le_1023 : gen.nodeId.toNat ≤ 1023 := gen.nodeId_le

private theorem toNat_word {ms seq : UInt64} (msFits : ms.toNat < 2 ^ 52)
    (seq_le : seq.toNat ≤ 4095) :
    ((ms <<< seqBits) ||| seq).toNat = ms.toNat * 2 ^ 12 + seq.toNat :=
  toNat_pack rfl (by decide) (by omega) (by omega)

private theorem toNat_id {ms seq : UInt64} (inClock : InClock ms) (seq_le : seq.toNat ≤ 4095) :
    (((ms - snowflakeEpochMs) <<< (nodeBits + seqBits)) |||
        (gen.nodeId <<< seqBits) ||| seq).toNat =
      (ms.toNat - snowflakeEpochMs.toNat) * 2 ^ 22 + (gen.nodeId.toNat * 2 ^ 12 + seq.toNat) ∧
      ms.toNat - snowflakeEpochMs.toNat < 2 ^ 41 := by
  have node_le := gen.nodeId_le_1023
  have since : (ms - snowflakeEpochMs).toNat = ms.toNat - snowflakeEpochMs.toNat :=
    UInt64.toNat_sub_of_le _ _ inClock.1
  have soon : ms.toNat - snowflakeEpochMs.toNat < 2 ^ 41 := by
    have below := inClock.2
    omega
  have low : ((gen.nodeId <<< seqBits) ||| seq).toNat =
      gen.nodeId.toNat * 2 ^ 12 + seq.toNat := toNat_word (by omega) seq_le
  refine ⟨?_, soon⟩
  rw [UInt64.or_assoc, toNat_pack (show _ = 22 from rfl) (by decide) (by omega) (by omega), low,
    since]

variable {gen}

/-- A proposal is made of a millisecond and a sequence number, later than those of the word. -/
theorem nextId_parts {nowMs old new id : UInt64} (inClock : InClock nowMs)
    (bounded : (old >>> seqBits).toNat < snowflakeEpochMs.toNat + 2 ^ 41)
    (proposes : gen.nextId nowMs old = some (new, id)) :
    ∃ ms seq : UInt64, InClock ms ∧ seq.toNat ≤ 4095 ∧
      old.toNat < ms.toNat * 2 ^ 12 + seq.toNat ∧ new = (ms <<< seqBits) ||| seq ∧
      id = ((ms - snowflakeEpochMs) <<< (nodeBits + seqBits)) |||
        (gen.nodeId <<< seqBits) ||| seq := by
  have maxSeq_eq : maxSeq.toNat = 4095 := rfl
  have oldMs := toNat_ms old
  have oldSeq := toNat_seq old
  rw [nextId] at proposes
  by_cases newer : nowMs > old >>> seqBits
  · simp only [if_pos newer, Option.some.injEq, Prod.mk.injEq] at proposes
    obtain ⟨rfl, rfl⟩ := proposes
    have later : (old >>> seqBits).toNat < nowMs.toNat := newer
    refine ⟨nowMs, 0, inClock, by decide, ?_, rfl, rfl⟩
    omega
  · have nextSeq : ((old &&& maxSeq) + 1).toNat = old.toNat % 4096 + 1 := by
      rw [UInt64.toNat_add, oldSeq, UInt64.toNat_one]
      exact Nat.mod_eq_of_lt (by omega)
    by_cases exhausted : (old &&& maxSeq) + 1 > maxSeq
    · simp [if_neg newer, if_pos exhausted] at proposes
    · simp only [if_neg newer, if_neg exhausted, Option.some.injEq, Prod.mk.injEq] at proposes
      obtain ⟨rfl, rfl⟩ := proposes
      -- The clock is not ahead of the word, so the word's millisecond is past the epoch too.
      have notNewer : nowMs.toNat ≤ (old >>> seqBits).toNat := Nat.not_lt.1 newer
      have seq_le : ((old &&& maxSeq) + 1).toNat ≤ maxSeq.toNat := Nat.not_lt.1 exhausted
      have past : snowflakeEpochMs.toNat ≤ nowMs.toNat := inClock.1
      refine ⟨_, _, ⟨past.trans notNewer, bounded⟩, seq_le, ?_, rfl, rfl⟩
      omega

/-- What a proposal writes and returns: a later position, whose parts are the identifier's. -/
theorem nextId_spec {nowMs old new id : UInt64} (inClock : InClock nowMs)
    (bounded : (old >>> seqBits).toNat < snowflakeEpochMs.toNat + 2 ^ 41)
    (proposes : gen.nextId nowMs old = some (new, id)) :
    (new >>> seqBits).toNat < snowflakeEpochMs.toNat + 2 ^ 41 ∧
      gen.position old < gen.position new ∧ (id.toNat : Int) = gen.position new ∧
      id.toNat < 2 ^ 63 ∧ (id >>> seqBits) &&& maxNode = gen.nodeId := by
  obtain ⟨ms, seq, msInClock, seq_le, later, rfl, rfl⟩ := nextId_parts inClock bounded proposes
  have past : snowflakeEpochMs.toNat ≤ ms.toNat := msInClock.1
  have soon := msInClock.2
  have node_le := gen.nodeId_le_1023
  have msFits : ms.toNat < 2 ^ 52 := soon.trans (by decide)
  have written := toNat_word msFits seq_le
  obtain ⟨returned, since⟩ := gen.toNat_id msInClock seq_le
  simp only [position, toNat_ms, toNat_seq, written]
  refine ⟨by omega, by omega, by omega, by omega, ?_⟩
  apply UInt64.toNat_inj.1
  rw [UInt64.toNat_and, toNat_ms, returned]
  have masked := Nat.and_two_pow_sub_one_eq_mod
    (((ms.toNat - snowflakeEpochMs.toNat) * 2 ^ 22 +
      (gen.nodeId.toNat * 2 ^ 12 + seq.toNat)) / 4096) 10
  refine masked.trans ?_
  omega

/-- The identifiers of a sequence of turns rise from the position of the word they start at. -/
theorem trace_increasing {first last : UInt64} {ids : List UInt64}
    (bounded : (first >>> seqBits).toNat < snowflakeEpochMs.toNat + 2 ^ 41)
    (serial : Trace (Exchanged gen.nextId InClock) first ids last) :
    (∀ id ∈ ids, gen.position first < id.toNat ∧ id.toNat < 2 ^ 63 ∧
      (id >>> seqBits) &&& maxNode = gen.nodeId) ∧ ids.Pairwise (· < ·) := by
  induction serial with
  | nil => simp
  | @cons first middle last id rest now later inductionHypothesis =>
      obtain ⟨nowMs, inClock, proposes⟩ := now
      obtain ⟨middleBounded, rises, id_eq, small, node⟩ := nextId_spec inClock bounded proposes
      obtain ⟨above, sorted⟩ := inductionHypothesis middleBounded
      constructor
      · intro tested member
        rcases List.mem_cons.1 member with rfl | member
        · exact ⟨by omega, small, node⟩
        · obtain ⟨past, facts⟩ := above tested member
          exact ⟨by omega, facts⟩
      · refine List.pairwise_cons.2 ⟨fun tested member => ?_, sorted⟩
        have past := (above tested member).1
        rw [← id_eq] at past
        exact UInt64.lt_iff_toNat_lt.2 (by omega)

/-- Identifiers rise in the order of the exchanges, for every interleaving and every clock. -/
theorem ids_increasing (gen : SnowflakeGen) {Thread : Type} [DecidableEq Thread]
    (steps : List (ThreadStep Thread UInt64)) (clocks : ∀ step ∈ steps, InClock step.input) :
    (gen.issued steps).Pairwise (· < ·) ∧ (gen.issued steps).Nodup ∧
      ∀ id ∈ gen.issued steps, id.toNat < 2 ^ 63 ∧ (id >>> seqBits) &&& maxNode = gen.nodeId := by
  obtain ⟨final, serial⟩ : ∃ final,
      Trace (Exchanged gen.nextId InClock) 0 (gen.issued steps) final :=
    exchange_serial 0 steps clocks
  have bounded : ((0 : UInt64) >>> seqBits).toNat < snowflakeEpochMs.toNat + 2 ^ 41 := by decide
  obtain ⟨facts, sorted⟩ := trace_increasing bounded serial
  refine ⟨sorted, sorted.imp fun less => UInt64.ne_of_lt less, fun id member => (facts id member).2⟩

/-- Two threads race for one millisecond.  The second exchange fails, and the clock has gone back
when its thread tries again. -/
def raceSteps : List (ThreadStep (Fin 2) UInt64) :=
  [(0, 1704067200007), (1, 1704067200007), (0, 1704067200007), (1, 1704067200007),
    (0, 1704067200007), (1, 1704067200007), (1, 1704067200004), (1, 1704067200004),
    (1, 1704067200004)].map fun (thread, nowMs) => ⟨thread, nowMs⟩

theorem ids_increasing_race :
    (SnowflakeGen.mk 42 (by decide)).issued raceSteps = [29532160, 29532161] ∧
      ((SnowflakeGen.mk 42 (by decide)).issued raceSteps).Pairwise (· < ·) ∧
      ((SnowflakeGen.mk 42 (by decide)).issued raceSteps).Nodup ∧
      ∀ id ∈ (SnowflakeGen.mk 42 (by decide)).issued raceSteps,
        id.toNat < 2 ^ 63 ∧ (id >>> seqBits) &&& maxNode = 42 :=
  ⟨by decide, ids_increasing ⟨42, by decide⟩ raceSteps (by decide)⟩

end SnowflakeGen
end Exg
