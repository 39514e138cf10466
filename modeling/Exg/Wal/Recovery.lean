import Exg.Wal.Framing
import Exg.Wal.Writer

/-!
# Recovery

`Recoverable` says what the log is when its recovery succeeds: the segments hold records
numbered one by one, and only the last one ends in a torn tail.
-/

namespace Exg.Wal

open Support

section Recovery

variable {crc : Checksum}

/-! ## One segment -/

section Segment

variable {file : SegmentFile} {isLastSegment : Bool} {offset nextSequence : Nat}

private theorem scanSegment_past (past : offset ≥ file.bytes.length) :
    scanSegment crc file isLastSegment offset nextSequence = .ok (nextSequence, none) := by
  rw [scanSegment.eq_def, if_pos past]

/-- A scan goes by what the next record decodes to. -/
theorem scanSegment_eq (inside : ¬offset ≥ file.bytes.length) :
    scanSegment crc file isLastSegment offset nextSequence =
      match decodeRecord crc file.bytes offset with
      | .ok (seq, _, consumed) =>
          if seq ≠ nextSequence then .error (.sequenceGap nextSequence seq)
          else scanSegment crc file isLastSegment (offset + consumed) (seq + 1)
      | .error .incomplete =>
          if isLastSegment then .ok (nextSequence, some offset)
          else .error (.corrupt nextSequence
            ("incomplete record in non-trailing segment " ++ file.name))
      | .error (.crcMismatch sequence) =>
          .error (.corrupt sequence
            ("CRC mismatch in segment " ++ file.name ++ " (confirmed data loss)")) := by
  rw [scanSegment.eq_def, if_neg inside]
  split <;> rename_i decoded <;> rw [decoded]

private theorem scanSegment_record {seq consumed : Nat} {payload : Bytes}
    (inside : ¬offset ≥ file.bytes.length)
    (decoded : decodeRecord crc file.bytes offset = .ok (seq, payload, consumed)) :
    scanSegment crc file isLastSegment offset nextSequence =
      if seq ≠ nextSequence then .error (.sequenceGap nextSequence seq)
      else scanSegment crc file isLastSegment (offset + consumed) (seq + 1) := by
  rw [scanSegment_eq inside, decoded]

private theorem scanSegment_incomplete (inside : ¬offset ≥ file.bytes.length)
    (decoded : decodeRecord crc file.bytes offset = .error .incomplete) :
    scanSegment crc file isLastSegment offset nextSequence =
      if isLastSegment then .ok (nextSequence, some offset)
      else .error (.corrupt nextSequence
        ("incomplete record in non-trailing segment " ++ file.name)) := by
  rw [scanSegment_eq inside, decoded]

/-- What a successful scan of a segment has read. -/
theorem scanSegment_ok {next : Nat} {cut : Option Nat} (bound : nextSequence ≤ 2 ^ 64)
    (within : offset ≤ file.bytes.length)
    (scanned : scanSegment crc file isLastSegment offset nextSequence = .ok (next, cut)) :
    ∃ payloads tail, FramesFit nextSequence payloads ∧
      file.bytes.drop offset = frames crc nextSequence payloads ++ tail ∧ TornTail crc tail ∧
      next = nextSequence + payloads.length ∧
      (tail = [] ∧ cut = none ∨
        tail ≠ [] ∧ isLastSegment = true ∧ cut = some (file.bytes.length - tail.length)) := by
  induction offset, nextSequence using scanSegment.induct crc file isLastSegment with
  | case1 offset first past =>
      rw [scanSegment_past past] at scanned
      cases scanned
      refine ⟨[], [], FramesFit.nil bound, ?_, TornTail.nil, rfl, Or.inl ⟨rfl, rfl⟩⟩
      rw [List.drop_eq_nil_of_le past]
      rfl
  | case2 offset first inside seq payload consumed decoded gap =>
      rw [scanSegment_record inside decoded, if_pos gap] at scanned
      cases scanned
  | case3 offset first inside seq payload consumed decoded continues inductionHypothesis =>
      rw [scanSegment_record inside decoded, if_neg continues] at scanned
      have expected : seq = first := not_not.1 continues
      rw [decodeRecord_drop] at decoded
      obtain ⟨fits, length, layout⟩ := decodeRecord_ok decoded
      have fitting := fits.sequence
      have total := congrArg List.length layout
      rw [List.length_append, length_encodeRecord, ← length, List.length_drop, List.length_drop]
        at total
      obtain ⟨payloads, tail, fit, rest, torn, count, ending⟩ :=
        inductionHypothesis (by omega) (by omega) scanned
      subst expected
      refine ⟨payload :: payloads, tail, .cons fits fit, ?_, torn, ?_, ending⟩
      · rw [layout, List.drop_drop, rest, frames, List.append_assoc]
      · rw [count, List.length_cons, Nat.add_assoc, Nat.add_comm 1]
  | case4 offset first inside decoded last =>
      rw [scanSegment_incomplete inside decoded, if_pos last] at scanned
      cases scanned
      rw [decodeRecord_drop] at decoded
      refine ⟨[], file.bytes.drop offset, FramesFit.nil bound, rfl, decoded, rfl,
        Or.inr ⟨?_, last, ?_⟩⟩
      · apply List.ne_nil_of_length_pos
        rw [List.length_drop]
        omega
      · rw [List.length_drop]
        congr
        omega
  | case5 offset first inside decoded middle =>
      rw [scanSegment_incomplete inside decoded, if_neg middle] at scanned
      cases scanned
  | case6 offset first inside sequence decoded =>
      rw [scanSegment_eq inside, decoded] at scanned
      cases scanned

/-- The scan of a segment that holds records and a torn tail. -/
theorem scanSegment_frames {tail : Bytes} {first : Nat} {payloads : List Bytes} (before : Bytes)
    (fit : FramesFit first payloads)
    (layout : file.bytes = before ++ (frames crc first payloads ++ tail))
    (torn : TornTail crc tail) (final : isLastSegment = false → tail = []) :
    scanSegment crc file isLastSegment before.length first =
      .ok (first + payloads.length,
        if tail = [] then none else some (file.bytes.length - tail.length)) := by
  induction payloads generalizing first before with
  | nil =>
      rw [frames_nil, List.nil_append] at layout
      cases tail with
      | nil => exact scanSegment_past (by rw [layout, List.append_nil])
      | cons byte rest =>
          have inside : ¬before.length ≥ file.bytes.length := by
            rw [layout, List.length_append, List.length_cons]
            omega
          have decoded : decodeRecord crc file.bytes before.length = .error .incomplete := by
            rw [decodeRecord_drop, layout, List.drop_left]
            exact torn
          have last : isLastSegment = true := by
            cases isLastSegment with
            | true => rfl
            | false => exact absurd (final rfl) (List.cons_ne_nil byte rest)
          rw [scanSegment_incomplete inside decoded, if_pos last, if_neg (List.cons_ne_nil _ _),
            layout, List.length_append, Nat.add_sub_cancel_right]
          rfl
  | cons payload rest inductionHypothesis =>
      rw [frames, List.append_assoc] at layout
      have decoded : decodeRecord crc file.bytes before.length =
          .ok (first, payload, recordOverhead + payload.length) := by
        rw [decodeRecord_drop, layout, List.drop_left]
        exact decodeRecord_encodeRecord fit.head _
      have inside : ¬before.length ≥ file.bytes.length := by
        rw [layout, List.length_append, List.length_append, length_encodeRecord, recordOverhead,
          headerSize, trailerSize]
        omega
      have later := inductionHypothesis (before ++ encodeRecord crc first payload)
        fit.tail (by rw [layout, List.append_assoc])
      rw [List.length_append, length_encodeRecord] at later
      rw [scanSegment_record inside decoded, if_neg (not_not.2 rfl), later, List.length_cons,
        Nat.add_assoc first, Nat.add_comm 1]

end Segment

/-! ## All segments -/

/-- Segments with records numbered one by one from a first number on, and a torn tail behind
the last record of the last segment. -/
inductive Recoverable (crc : Checksum) :
    Nat → List (Nat × SegmentFile) → List Bytes → Bytes → Prop where
  | none {first : Nat} : Recoverable crc first [] [] []
  | last {first key : Nat} {file : SegmentFile} {payloads : List Bytes} {tail : Bytes}
      (fit : FramesFit first payloads) (layout : file.bytes = frames crc first payloads ++ tail)
      (torn : TornTail crc tail) : Recoverable crc first [(key, file)] payloads tail
  | more {first key : Nat} {file : SegmentFile} {payloads later : List Bytes} {tail : Bytes}
      {rest : List (Nat × SegmentFile)} (nonempty : rest ≠ [])
      (fit : FramesFit first payloads) (layout : file.bytes = frames crc first payloads)
      (others : Recoverable crc (first + payloads.length) rest later tail) :
      Recoverable crc first ((key, file) :: rest) (payloads ++ later) tail

/-- Where recovery truncates: behind the records of the last segment. -/
def tailStart (segments : List (Nat × SegmentFile)) (tail : Bytes) : Option (String × Nat) :=
  if tail = [] then none
  else segments.getLast?.map fun segment =>
    (segment.2.name, segment.2.bytes.length - tail.length)

variable {first : Nat} {segments : List (Nat × SegmentFile)} {payloads : List Bytes} {tail : Bytes}

theorem Recoverable.cons_iff {key : Nat} {file : SegmentFile} {rest : List (Nat × SegmentFile)}
    (nonempty : rest ≠ []) :
    Recoverable crc first ((key, file) :: rest) payloads tail ↔
      ∃ own later, payloads = own ++ later ∧ FramesFit first own ∧
        file.bytes = frames crc first own ∧
        Recoverable crc (first + own.length) rest later tail := by
  constructor
  · intro recoverable
    cases recoverable with
    | last _ _ _ => exact absurd rfl nonempty
    | @more _ _ _ own later _ _ _ fit layout others => exact ⟨own, later, rfl, fit, layout, others⟩
  · rintro ⟨own, later, rfl, fit, layout, others⟩
    exact .more nonempty fit layout others

theorem Recoverable.torn (recoverable : Recoverable crc first segments payloads tail) :
    TornTail crc tail := by
  induction recoverable with
  | none => exact TornTail.nil
  | last _ _ torn => exact torn
  | more _ _ _ _ inductionHypothesis => exact inductionHypothesis

private theorem recoverFrom_of_recoverable
    (recoverable : Recoverable crc first segments payloads tail) :
    recoverFrom crc first segments = .ok (first + payloads.length, tailStart segments tail) := by
  induction recoverable with
  | none => rfl
  | @last first key file payloads tail fit layout torn =>
      have scanned : scanSegment crc file true 0 first = _ :=
        scanSegment_frames [] fit layout torn nofun
      rw [recoverFrom, List.isEmpty_nil, scanned]
      by_cases clean : tail = []
      · simp only [clean, if_true, recoverFrom, tailStart]
      · simp [clean, tailStart]
  | @more first key file payloads later tail rest nonempty fit layout others inductionHypothesis =>
      have whole : file.bytes = [] ++ (frames crc first payloads ++ []) := by
        rw [List.append_nil, layout, List.nil_append]
      have scanned : scanSegment crc file rest.isEmpty 0 first = _ :=
        scanSegment_frames [] fit whole TornTail.nil fun _ => rfl
      have sameLast : tailStart ((key, file) :: rest) tail = tailStart rest tail := by
        rw [tailStart, tailStart, List.getLast?_cons_of_ne_nil nonempty]
      rw [recoverFrom, scanned, sameLast, List.length_append, ← Nat.add_assoc]
      exact inductionHypothesis

private theorem recoverable_of_recoverFrom {next : Nat} {truncateInfo : Option (String × Nat)}
    (bound : first ≤ 2 ^ 64)
    (recovered : recoverFrom crc first segments = .ok (next, truncateInfo)) :
    ∃ payloads tail, Recoverable crc first segments payloads tail := by
  induction segments generalizing first with
  | nil => exact ⟨[], [], .none⟩
  | cons segment rest inductionHypothesis =>
      obtain ⟨key, file⟩ := segment
      rw [recoverFrom] at recovered
      split at recovered
      · cases recovered
      · rename_i next offset scanned
        obtain ⟨payloads, tail, fit, layout, torn, -, ending⟩ :=
          scanSegment_ok bound (Nat.zero_le _) scanned
        cases ending with
        | inl whole => exact absurd whole.2 (by simp)
        | inr cut =>
            have final : rest = [] := List.isEmpty_iff.1 cut.2.1
            subst final
            exact ⟨payloads, tail, .last fit layout torn⟩
      · rename_i next scanned
        obtain ⟨payloads, tail, fit, layout, torn, count, ending⟩ :=
          scanSegment_ok bound (Nat.zero_le _) scanned
        cases ending with
        | inr cut => exact absurd cut.2.2 (by simp)
        | inl whole =>
            have room := fit.sequence
            obtain ⟨later, lastTail, others⟩ := inductionHypothesis (by omega) recovered
            rw [whole.1] at layout
            rw [count] at others
            cases rest with
            | nil => exact ⟨payloads, [], .last fit layout TornTail.nil⟩
            | cons another others' =>
                rw [List.append_nil] at layout
                exact ⟨payloads ++ later, lastTail,
                  .more (List.cons_ne_nil _ _) fit layout others⟩

/-- Recovery succeeds exactly on recoverable segments. -/
theorem recoverState_ok_iff {next : Nat} {truncateInfo : Option (String × Nat)} :
    recoverState crc segments = .ok (next, truncateInfo) ↔
      ∃ payloads tail, Recoverable crc 0 segments payloads tail ∧ next = payloads.length ∧
        truncateInfo = tailStart segments tail := by
  constructor
  · intro recovered
    obtain ⟨payloads, tail, recoverable⟩ := recoverable_of_recoverFrom (Nat.zero_le _) recovered
    rw [recoverState, recoverFrom_of_recoverable recoverable, Nat.zero_add] at recovered
    cases recovered
    exact ⟨payloads, tail, recoverable, rfl, rfl⟩
  · rintro ⟨payloads, tail, recoverable, rfl, rfl⟩
    rw [recoverState, recoverFrom_of_recoverable recoverable, Nat.zero_add]

end Recovery
end Exg.Wal
