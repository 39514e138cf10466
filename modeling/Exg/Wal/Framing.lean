import Exg.Wal.Segment

/-!
# Frames

What decoding does to the bytes that encoding writes: a whole record decodes to itself, a
cut one is incomplete, and whatever decodes is an encoded record.  `frames` is a run of
records numbered one by one.
-/

namespace Exg.Wal

open Support

/-! ## File names -/

theorem parseU64_paddedDigits {first : Nat} (digits : first < 10 ^ 20) :
    parseU64 (paddedDigits 20 first) = (some first).filter (· < 2 ^ 64) := by
  have value : digitsValue 0 (paddedDigits 20 first) = some first := digitsValue_paddedDigits digits
  have nonempty : paddedDigits 20 first ≠ [] := by
    apply List.ne_nil_of_length_pos
    rw [length_paddedDigits]
    decide
  have unsigned : stripPlus (paddedDigits 20 first) = paddedDigits 20 first := by
    rw [stripPlus.eq_def]
    split
    · rename_i text
      rw [text] at value
      simp [digitsValue] at value
    · rfl
  simp only [parseU64, unsigned, List.isEmpty_iff, nonempty, if_false, value]

theorem parseSegmentFilename_segmentFilename {first : Nat} (digits : first < 10 ^ 20) :
    parseSegmentFilename (segmentFilename first) = (some first).filter (· < 2 ^ 64) := by
  have stripped : ((segmentPrefix ++ (paddedDigits 20 first ++ segmentSuffix)).dropPrefix?
      segmentPrefix) = some (paddedDigits 20 first ++ segmentSuffix) :=
    List.dropPrefix?_append_of_beq _ (BEq.refl _)
  have bare : (paddedDigits 20 first ++ segmentSuffix).dropSuffix? segmentSuffix =
      some (paddedDigits 20 first) :=
    List.dropSuffix?_eq_some_iff.2 ⟨segmentSuffix, rfl, BEq.refl _⟩
  rw [parseSegmentFilename, segmentFilename, String.toList_ofList, stripped]
  simp only [Option.bind_some, bare]
  exact parseU64_paddedDigits digits

/-- The name of a segment gives its first sequence number back. -/
theorem parseSegmentFilename_of_fits {first : Nat} (fits : first < 2 ^ 64) :
    parseSegmentFilename (segmentFilename first) = some first := by
  rw [parseSegmentFilename_segmentFilename (lt_trans fits (by decide)), Option.filter_some,
    if_pos (decide_eq_true fits)]

section Records

variable {crc : Checksum} {sequence : Nat} {payload : Bytes}

@[simp]
theorem length_encodeRecord (crc : Checksum) (sequence : Nat) (payload : Bytes) :
    (encodeRecord crc sequence payload).length = recordOverhead + payload.length := by
  simp only [encodeRecord, List.length_append, length_leBytes, recordOverhead, headerSize,
    trailerSize]
  omega

/-! ## Decoding -/

theorem decodeRecord_drop (crc : Checksum) (data : Bytes) (offset : Nat) :
    decodeRecord crc data offset = decodeRecord crc (data.drop offset) 0 := by
  simp only [decodeRecord, slice, List.length_drop, List.drop_drop, Nat.zero_add, Nat.sub_zero,
    Nat.add_zero, Nat.add_assoc]

/-- The fields of a record that fits into its fields' widths. -/
structure RecordFits (sequence : Nat) (payload : Bytes) : Prop where
  sequence : sequence < 2 ^ 64
  payload : payload.length < 2 ^ 32

theorem RecordFits.sequenceField {sequence : Nat} {payload : Bytes}
    (fits : RecordFits sequence payload) : leValue (leBytes 8 sequence) = sequence :=
  leValue_leBytes fits.sequence

theorem RecordFits.lengthField {sequence : Nat} {payload : Bytes}
    (fits : RecordFits sequence payload) : leValue (leBytes 4 payload.length) = payload.length :=
  leValue_leBytes fits.payload

theorem checksumField (crc : Checksum) (sequence : Nat) (payload : Bytes) :
    leValue (leBytes 4 (computeCrc crc sequence payload).toNat) =
      (computeCrc crc sequence payload).toNat :=
  leValue_leBytes (computeCrc crc sequence payload).toNat_lt

private theorem slice_header (first second third rest : Bytes) (length : first.length = 8)
    (length' : second.length = 4) :
    slice (first ++ (second ++ (third ++ rest))) 0 8 = first ∧
      slice (first ++ (second ++ (third ++ rest))) 8 4 = second ∧
      slice (first ++ (second ++ (third ++ rest))) 12 third.length = third ∧
      slice (first ++ (second ++ (third ++ rest))) (12 + third.length) 4 = rest.take 4 := by
  have skip : (first ++ (second ++ (third ++ rest))).drop 12 = third ++ rest := by
    rw [← List.append_assoc]
    exact List.drop_left' (by rw [List.length_append, length, length'])
  refine ⟨List.take_left' length, ?_, ?_, ?_⟩
  · rw [slice, List.drop_left' length, List.take_left' length']
  · rw [slice, skip, List.take_left]
  · rw [slice, ← List.drop_drop, skip, List.drop_left]

/-- Decoding four fields, whatever follows. -/
theorem decodeRecord_fields (crc : Checksum) (number size body check rest : Bytes)
    (length : number.length = 8) (length' : size.length = 4) (sized : leValue size = body.length)
    (length'' : check.length = 4) :
    decodeRecord crc (number ++ (size ++ (body ++ (check ++ rest)))) 0 =
      if leValue check ≠ (computeCrc crc (leValue number) body).toNat then
        .error (.crcMismatch (leValue number))
      else
        .ok (leValue number, body, recordOverhead + body.length) := by
  obtain ⟨atNumber, atSize, atBody, atCheck⟩ :=
    slice_header number size body (check ++ rest) length length'
  have total : (number ++ (size ++ (body ++ (check ++ rest)))).length =
      recordOverhead + body.length + rest.length := by
    simp only [List.length_append, length, length', length'', recordOverhead, headerSize,
      trailerSize]
    omega
  have header : headerSize ≤ recordOverhead := by decide
  rw [decodeRecord, total]
  simp only [Nat.zero_add, Nat.sub_zero, atNumber, atSize, sized, atBody, atCheck]
  rw [if_neg (by omega), if_neg (by omega), List.take_left' length'']

/-- An encoded record decodes to itself, whatever follows. -/
theorem decodeRecord_encodeRecord (fits : RecordFits sequence payload) (rest : Bytes) :
    decodeRecord crc (encodeRecord crc sequence payload ++ rest) 0 =
      .ok (sequence, payload, recordOverhead + payload.length) := by
  rw [encodeRecord, List.append_assoc, List.append_assoc, List.append_assoc,
    decodeRecord_fields crc _ _ _ _ _ (length_leBytes 8 _) (length_leBytes 4 _) fits.lengthField
      (length_leBytes 4 _), checksumField, fits.sequenceField, if_neg (not_not.2 rfl)]

private theorem drop_eq_slice (data : Bytes) (start length : Nat) :
    data.drop start = slice data start length ++ data.drop (start + length) := by
  rw [slice, ← List.drop_drop, List.take_append_drop]

private theorem length_slice {data : Bytes} {start length : Nat}
    (enough : start + length ≤ data.length) :
    (slice data start length).length = length := by
  rw [slice, List.length_take, List.length_drop]
  omega

private theorem leBytes_slice {data : Bytes} {start length : Nat}
    (enough : start + length ≤ data.length) :
    leBytes length (leValue (slice data start length)) = slice data start length := by
  have whole := leBytes_leValue (slice data start length)
  rwa [length_slice enough] at whole

/-- Whatever decodes is an encoded record. -/
theorem decodeRecord_ok {data : Bytes} {consumed : Nat}
    (decoded : decodeRecord crc data 0 = .ok (sequence, payload, consumed)) :
    RecordFits sequence payload ∧ consumed = recordOverhead + payload.length ∧
      data = encodeRecord crc sequence payload ++ data.drop consumed := by
  simp only [decodeRecord, Nat.sub_zero, Nat.zero_add] at decoded
  split at decoded
  · cases decoded
  · split at decoded
    · cases decoded
    · rename_i notShort
      split at decoded
      · cases decoded
      · rename_i matching
        cases decoded
        simp only [recordOverhead, headerSize, trailerSize] at notShort ⊢
        generalize size : leValue (slice data 8 4) = payloadLen at *
        have room : 16 + payloadLen ≤ data.length := by omega
        have bodyLength : (slice data 12 payloadLen).length = payloadLen :=
          length_slice (by omega)
        have sequenceFits := leValue_lt (slice data 0 8)
        have sizeFits := leValue_lt (slice data 8 4)
        rw [length_slice (by omega)] at sequenceFits sizeFits
        refine ⟨⟨sequenceFits, ?_⟩, ?_, ?_⟩
        · rwa [bodyLength, ← size]
        · rw [bodyLength]
        · rw [encodeRecord, leBytes_slice (by omega), bodyLength, ← size, leBytes_slice (by omega),
            size, ← Decidable.not_not.1 matching, leBytes_slice (by omega)]
          simp only [List.append_assoc]
          rw [show 12 + 4 + payloadLen = 12 + payloadLen + 4 by omega, ← drop_eq_slice,
            ← drop_eq_slice, ← drop_eq_slice, ← drop_eq_slice, List.drop_zero]

/-- Incomplete is what runs past the end of the data. -/
theorem decodeRecord_incomplete_iff (crc : Checksum) (data : Bytes) :
    decodeRecord crc data 0 = .error .incomplete ↔
      data.length < recordOverhead + leValue (slice data 8 4) := by
  have header : headerSize ≤ recordOverhead := by decide
  rw [decodeRecord]
  simp only [Nat.sub_zero, Nat.zero_add]
  constructor
  · intro incomplete
    split at incomplete
    · omega
    · split at incomplete
      · assumption
      · split at incomplete <;> cases incomplete
  · intro short
    rw [if_pos short, ite_self]

/-! ## Records numbered one by one -/

/-- The bytes of records numbered from a first number on. -/
def frames (crc : Checksum) (first : Nat) : List Bytes → Bytes
  | [] => []
  | payload :: rest => encodeRecord crc first payload ++ frames crc (first + 1) rest

/-- The records from a first number on fit into their fields' widths. -/
structure FramesFit (first : Nat) (payloads : List Bytes) : Prop where
  sequence : first + payloads.length ≤ 2 ^ 64
  payload : ∀ payload ∈ payloads, payload.length < 2 ^ 32

/-- Bytes behind the last whole record: too few for another one. -/
def TornTail (crc : Checksum) (tail : Bytes) : Prop :=
  decodeRecord crc tail 0 = .error .incomplete

variable {first : Nat}

theorem TornTail.nil : TornTail crc [] := rfl

theorem FramesFit.nil (bound : first ≤ 2 ^ 64) : FramesFit first [] :=
  ⟨bound, fun _ member => nomatch member⟩

theorem FramesFit.head {rest : List Bytes} (fit : FramesFit first (payload :: rest)) :
    RecordFits first payload := by
  have bound := fit.sequence
  rw [List.length_cons] at bound
  exact ⟨by omega, fit.payload payload List.mem_cons_self⟩

theorem FramesFit.tail {rest : List Bytes} (fit : FramesFit first (payload :: rest)) :
    FramesFit (first + 1) rest := by
  have bound := fit.sequence
  rw [List.length_cons] at bound
  exact ⟨by omega, fun other member => fit.payload other (List.mem_cons_of_mem _ member)⟩

theorem FramesFit.cons {rest : List Bytes} (head : RecordFits first payload)
    (tail : FramesFit (first + 1) rest) : FramesFit first (payload :: rest) := by
  have bound := tail.sequence
  refine ⟨?_, List.forall_mem_cons.2 ⟨head.payload, tail.payload⟩⟩
  rw [List.length_cons]
  omega

theorem FramesFit.append_iff {before after : List Bytes} :
    FramesFit first (before ++ after) ↔
      FramesFit first before ∧ FramesFit (first + before.length) after := by
  constructor
  · intro fit
    have bound := fit.sequence
    rw [List.length_append] at bound
    exact ⟨⟨by omega, fun payload member => fit.payload payload (List.mem_append_left _ member)⟩,
      ⟨by omega, fun payload member => fit.payload payload (List.mem_append_right _ member)⟩⟩
  · rintro ⟨early, late⟩
    have bound := late.sequence
    refine ⟨by rw [List.length_append]; omega, fun payload member => ?_⟩
    cases List.mem_append.1 member with
    | inl inside => exact early.payload payload inside
    | inr inside => exact late.payload payload inside

@[simp]
theorem frames_nil (crc : Checksum) (first : Nat) : frames crc first [] = [] := rfl

theorem frames_append (crc : Checksum) (first : Nat) (before after : List Bytes) :
    frames crc first (before ++ after) =
      frames crc first before ++ frames crc (first + before.length) after := by
  induction before generalizing first with
  | nil => rfl
  | cons payload rest inductionHypothesis =>
      rw [List.cons_append, frames, frames, inductionHypothesis, List.append_assoc,
        List.length_cons, Nat.add_right_comm, Nat.add_assoc]

theorem frames_ne_nil {payloads : List Bytes} (nonempty : payloads ≠ []) :
    frames crc first payloads ≠ [] := by
  cases payloads with
  | nil => exact absurd rfl nonempty
  | cons payload rest =>
      apply List.ne_nil_of_length_pos
      rw [frames, List.length_append, length_encodeRecord, recordOverhead, headerSize, trailerSize]
      omega

private theorem decodeRecord_frames (crc : Checksum) {rest : List Bytes}
    (fit : FramesFit first (payload :: rest)) (behind : Bytes) :
    decodeRecord crc (frames crc first (payload :: rest) ++ behind) 0 =
      .ok (first, payload, recordOverhead + payload.length) := by
  rw [frames, List.append_assoc]
  exact decodeRecord_encodeRecord fit.head _

/-- Bytes that begin with whole records are read in one way only. -/
theorem frames_cancel {kept payloads : List Bytes} {behind tail : Bytes}
    (fit : FramesFit first kept) (fit' : FramesFit first payloads) (torn : TornTail crc tail)
    (same : frames crc first kept ++ behind = frames crc first payloads ++ tail) :
    ∃ others, payloads = kept ++ others ∧
      behind = frames crc (first + kept.length) others ++ tail := by
  induction kept generalizing first payloads with
  | nil => exact ⟨payloads, rfl, same⟩
  | cons payload rest inductionHypothesis =>
      have decoded := decodeRecord_frames crc fit behind
      rw [same] at decoded
      cases payloads with
      | nil =>
          rw [frames_nil, List.nil_append, torn] at decoded
          cases decoded
      | cons other others =>
          rw [decodeRecord_frames crc fit'] at decoded
          cases decoded
          rw [frames, frames, List.append_assoc, List.append_assoc] at same
          obtain ⟨late, split, bytes⟩ :=
            inductionHypothesis fit.tail fit'.tail (List.append_cancel_left same)
          refine ⟨late, by rw [split, List.cons_append], ?_⟩
          rw [bytes, List.length_cons, Nat.add_assoc first, Nat.add_comm 1]

theorem frames_injective {payloads others : List Bytes} (fit : FramesFit first payloads)
    (fit' : FramesFit first others) (same : frames crc first payloads = frames crc first others) :
    payloads = others := by
  rw [← List.append_nil (frames crc first payloads), ← List.append_nil (frames crc first others)]
    at same
  obtain ⟨late, split, bytes⟩ := frames_cancel fit fit' TornTail.nil same
  by_cases none : late = []
  · rw [split, none, List.append_nil]
  · rw [List.append_nil] at bytes
    exact absurd bytes.symm (frames_ne_nil none)

/-- Whole records tell their first number. -/
theorem frames_inj {second : Nat} {payloads others : List Bytes}
    (fit : FramesFit first payloads) (fit' : FramesFit second others) (some : payloads ≠ [])
    (same : frames crc first payloads = frames crc second others) :
    first = second ∧ payloads = others := by
  have number : first = second := by
    cases payloads with
    | nil => exact absurd rfl some
    | cons payload rest =>
        have decoded := decodeRecord_frames crc fit []
        cases others with
        | nil =>
            rw [same] at decoded
            cases decoded
        | cons other later =>
            rw [same, decodeRecord_frames crc fit'] at decoded
            cases decoded
            rfl
  subst number
  exact ⟨rfl, frames_injective fit fit' same⟩

/-! ## Cuts -/

/-- A record cut short is incomplete. -/
theorem tornTail_take_encodeRecord (fits : RecordFits sequence payload) {cut : Nat}
    (short : cut < recordOverhead + payload.length) :
    TornTail crc ((encodeRecord crc sequence payload).take cut) := by
  have length : ((encodeRecord crc sequence payload).take cut).length = cut := by
    rw [List.length_take, length_encodeRecord]
    omega
  by_cases header : cut < headerSize
  · simp only [TornTail, decodeRecord, length, Nat.sub_zero, if_pos header]
  · have sized : slice ((encodeRecord crc sequence payload).take cut) 8 4 =
        leBytes 4 payload.length := by
      rw [headerSize] at header
      rw [slice, List.drop_take, List.take_take, Nat.min_eq_left (by omega), encodeRecord,
        List.drop_left' (length_leBytes 8 _), List.take_left' (length_leBytes 4 _)]
    apply (decodeRecord_incomplete_iff crc _).2
    rw [length, sized, leValue_leBytes fits.payload]
    exact short

/-- Records cut anywhere are fewer records and a torn tail. -/
theorem take_frames {payloads : List Bytes} (fit : FramesFit first payloads) (cut : Nat) :
    ∃ kept lost tail, payloads = kept ++ lost ∧
      (frames crc first payloads).take cut = frames crc first kept ++ tail ∧ TornTail crc tail := by
  induction payloads generalizing first cut with
  | nil => exact ⟨[], [], [], rfl, by simp, TornTail.nil⟩
  | cons payload rest inductionHypothesis =>
      by_cases short : cut < recordOverhead + payload.length
      · refine ⟨[], payload :: rest, _, rfl, ?_, tornTail_take_encodeRecord fit.head short⟩
        rw [frames_nil, List.nil_append, frames, List.take_append_of_le_length]
        rw [length_encodeRecord]
        omega
      · obtain ⟨kept, lost, tail, split, bytes, torn⟩ :=
          inductionHypothesis fit.tail (cut - (recordOverhead + payload.length))
        refine ⟨payload :: kept, lost, tail, by rw [split, List.cons_append], ?_, torn⟩
        rw [frames, frames, List.take_append, length_encodeRecord, bytes, List.append_assoc,
          List.take_of_length_le (by rw [length_encodeRecord]; omega)]

end Records
end Exg.Wal
