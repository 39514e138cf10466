import Exg.Wal.Agreement

/-!
# The writer's own segments

A writer names each segment by the number of its first record and starts a new one only
behind a nonempty one.  `layout` is such a log: sealed segments, and the current one.
-/

namespace Exg.Wal

open Support

/-! ## Segments under the writer's names -/

/-- Segments named by their first sequence number, in increasing order. -/
structure Canonical (segments : List (Nat × SegmentFile)) : Prop where
  named : ∀ segment ∈ segments,
    segment.2.name = segmentFilename segment.1 ∧ segment.1 < 2 ^ 64
  increasing : segments.Pairwise fun left right => left.1 < right.1

def files (segments : List (Nat × SegmentFile)) : Directory := segments.map Prod.snd

namespace Canonical

variable {segments : List (Nat × SegmentFile)}

private theorem unsortedSegments_files (canonical : Canonical segments) :
    unsortedSegments (files segments) = segments := by
  have named := canonical.named
  clear canonical
  induction segments with
  | nil => rfl
  | cons segment rest inductionHypothesis =>
      obtain ⟨⟨name, bound⟩, others⟩ := List.forall_mem_cons.1 named
      have parsed : parseSegmentFilename segment.2.name = some segment.1 := by
        rw [name]
        exact parseSegmentFilename_of_fits bound
      rw [files, unsortedSegments, List.map_cons, List.filterMap_cons]
      simp only [parsed, Option.map_some]
      exact congrArg (segment :: ·) (inductionHypothesis others)

theorem listSegments_files (canonical : Canonical segments) :
    listSegments (files segments) = segments := by
  have sorted : segments.Pairwise FirstLe := canonical.increasing.imp Nat.le_of_lt
  calc listSegments (files segments)
      = (unsortedSegments (files segments)).insertionSort FirstLe := rfl
    _ = segments := by rw [canonical.unsortedSegments_files, sorted.insertionSort_eq]

theorem distinct (canonical : Canonical segments) : DistinctSegments (files segments) := by
  rw [DistinctSegments, ← map_fst_unsortedSegments, canonical.unsortedSegments_files,
    List.Nodup, List.pairwise_map]
  exact canonical.increasing.imp Nat.ne_of_lt

end Canonical

private theorem segmentFilename_inj {first second : Nat} (fits : first < 2 ^ 64)
    (fits' : second < 2 ^ 64)
    (same : segmentFilename first = segmentFilename second) : first = second := by
  have parsed := parseSegmentFilename_of_fits fits
  rw [same, parseSegmentFilename_of_fits fits'] at parsed
  exact (Option.some.inj parsed).symm

/-! ## Sealed segments and the current one -/

section Layout

variable {crc : Checksum}

/-- Full segments with consecutive records. -/
def sealedSegments (crc : Checksum) (first : Nat) : List (List Bytes) → List (Nat × SegmentFile)
  | [] => []
  | payloads :: rest =>
      (first, ⟨segmentFilename first, frames crc first payloads⟩) ::
        sealedSegments crc (first + payloads.length) rest

/-- The number of records in sealed segments. -/
def sealedCount (full : List (List Bytes)) : Nat := full.flatten.length

/-- Sealed segments and the bytes of the current one. -/
def layout (crc : Checksum) (full : List (List Bytes)) (bytes : Bytes) :
    List (Nat × SegmentFile) :=
  sealedSegments crc 0 full ++ [(sealedCount full, ⟨segmentFilename (sealedCount full), bytes⟩)]

theorem sealedCount_concat (full : List (List Bytes)) (payloads : List Bytes) :
    sealedCount (full ++ [payloads]) = sealedCount full + payloads.length := by
  rw [sealedCount, List.flatten_concat, List.length_append, sealedCount]

private theorem sealedSegments_concat (crc : Checksum) (first : Nat) (full : List (List Bytes))
    (payloads : List Bytes) :
    sealedSegments crc first (full ++ [payloads]) =
      sealedSegments crc first full ++
        [(first + sealedCount full, ⟨segmentFilename (first + sealedCount full),
          frames crc (first + sealedCount full) payloads⟩)] := by
  induction full generalizing first with
  | nil => rfl
  | cons segment rest inductionHypothesis =>
      have count : first + segment.length + sealedCount rest =
          first + sealedCount (segment :: rest) := by
        rw [sealedCount, sealedCount, List.flatten_cons, List.length_append, Nat.add_assoc]
      rw [List.cons_append, sealedSegments, sealedSegments, inductionHypothesis, count,
        List.cons_append]

/-- Sealing the current segment. -/
theorem sealedSegments_concat_zero (crc : Checksum) (full : List (List Bytes))
    (payloads : List Bytes) :
    sealedSegments crc 0 (full ++ [payloads]) =
      layout crc full (frames crc (sealedCount full) payloads) := by
  rw [sealedSegments_concat, layout, Nat.zero_add]

theorem mem_sealedSegments {first : Nat} {full : List (List Bytes)} {segment : Nat × SegmentFile}
    (nonempty : ∀ payloads ∈ full, payloads ≠ [])
    (member : segment ∈ sealedSegments crc first full) :
    segment.2.name = segmentFilename segment.1 ∧ first ≤ segment.1 ∧
      segment.1 < first + sealedCount full := by
  induction full generalizing first with
  | nil => cases member
  | cons payloads rest inductionHypothesis =>
      obtain ⟨some, others⟩ := List.forall_mem_cons.1 nonempty
      have positive := List.length_pos_of_ne_nil some
      have count : sealedCount (payloads :: rest) = payloads.length + sealedCount rest := by
        rw [sealedCount, sealedCount, List.flatten_cons, List.length_append]
      cases List.mem_cons.1 member with
      | inl same =>
          subst same
          exact ⟨rfl, Nat.le_refl first, by omega⟩
      | inr later =>
          obtain ⟨name, above, below⟩ := inductionHypothesis others later
          exact ⟨name, by omega, by omega⟩

private theorem increasing_sealedSegments {first : Nat} {full : List (List Bytes)}
    (nonempty : ∀ payloads ∈ full, payloads ≠ []) :
    (sealedSegments crc first full).Pairwise fun left right => left.1 < right.1 := by
  induction full generalizing first with
  | nil => exact List.Pairwise.nil
  | cons payloads rest inductionHypothesis =>
      obtain ⟨some, others⟩ := List.forall_mem_cons.1 nonempty
      have positive := List.length_pos_of_ne_nil some
      refine List.pairwise_cons.2 ⟨fun later member => ?_, inductionHypothesis others⟩
      have above := (mem_sealedSegments others member).2.1
      dsimp only
      omega

variable {full : List (List Bytes)} {bytes : Bytes}

theorem canonical_layout (nonempty : ∀ payloads ∈ full, payloads ≠ [])
    (bound : sealedCount full < 2 ^ 64) : Canonical (layout crc full bytes) := by
  constructor
  · intro segment member
    cases List.mem_append.1 member with
    | inl inside =>
        obtain ⟨name, -, below⟩ := mem_sealedSegments nonempty inside
        exact ⟨name, by omega⟩
    | inr last =>
        rw [List.mem_singleton.1 last]
        exact ⟨rfl, bound⟩
  · refine List.pairwise_append.2 ⟨increasing_sealedSegments nonempty, List.pairwise_singleton _ _,
      fun early inside last isLast => ?_⟩
    have below := (mem_sealedSegments nonempty inside).2.2
    rw [List.mem_singleton.1 isLast]
    dsimp only
    omega

/-- The current segment's name is not among the sealed ones'. -/
theorem name_sealedSegments_ne {number : Nat} {segment : Nat × SegmentFile}
    (nonempty : ∀ payloads ∈ full, payloads ≠ []) (above : sealedCount full ≤ number)
    (bound : number < 2 ^ 64) (member : segment ∈ sealedSegments crc 0 full) :
    segment.2.name ≠ segmentFilename number := by
  intro same
  obtain ⟨name, -, below⟩ := mem_sealedSegments nonempty member
  rw [name] at same
  have equal := segmentFilename_inj (by omega) bound same
  omega

/-! ## File operations on the current segment -/

theorem modify_layout (nonempty : ∀ payloads ∈ full, payloads ≠ [])
    (bound : sealedCount full < 2 ^ 64) (change : Bytes → Bytes) :
    (files (layout crc full bytes)).map
        (SegmentFile.modify (segmentFilename (sealedCount full)) change) =
      files (layout crc full (change bytes)) := by
  have untouched : (files (sealedSegments crc 0 full)).map
      (SegmentFile.modify (segmentFilename (sealedCount full)) change) =
        files (sealedSegments crc 0 full) := by
    conv_rhs => rw [← List.map_id (files (sealedSegments crc 0 full))]
    apply List.map_congr_left
    intro file member
    obtain ⟨segment, inside, rfl⟩ := List.mem_map.1 member
    exact if_neg (name_sealedSegments_ne nonempty (Nat.le_refl _) bound inside)
  rw [files, files, layout, layout, List.map_append, List.map_append, List.map_append]
  rw [files] at untouched
  rw [untouched, List.map_singleton, List.map_singleton, List.map_singleton, SegmentFile.modify,
    if_pos rfl]

theorem create_current (crc : Checksum) (full : List (List Bytes)) (bytes : Bytes) :
    (files (layout crc full bytes)).create (segmentFilename (sealedCount full)) =
      files (layout crc full bytes) := by
  rw [Directory.create, if_pos]
  rw [files, layout]
  simp

/-- A new segment behind a nonempty current one. -/
theorem create_next {payloads : List Bytes} (nonempty : ∀ payloads ∈ full, payloads ≠ [])
    (some : payloads ≠ []) (bound : sealedCount full + payloads.length < 2 ^ 64) :
    (files (layout crc full (frames crc (sealedCount full) payloads))).create
        (segmentFilename (sealedCount full + payloads.length)) =
      files (layout crc (full ++ [payloads]) []) := by
  have allNonempty : ∀ other ∈ full ++ [payloads], other ≠ [] :=
    List.forall_mem_append.2 ⟨nonempty, List.forall_mem_singleton.2 some⟩
  rw [← sealedSegments_concat_zero, ← sealedCount_concat] at *
  have fresh : segmentFilename (sealedCount (full ++ [payloads])) ∉
      (files (sealedSegments crc 0 (full ++ [payloads]))).map (·.name) := by
    intro member
    obtain ⟨file, inside, same⟩ := List.mem_map.1 member
    obtain ⟨segment, listed, rfl⟩ := List.mem_map.1 inside
    exact name_sealedSegments_ne allNonempty (Nat.le_refl _) bound listed same
  rw [Directory.create, if_neg fresh, layout, files, files, List.map_append, List.map_singleton]

/-- Without the current file only sealed segments are left. -/
theorem filter_layout (nonempty : ∀ payloads ∈ full, payloads ≠ [])
    (bound : sealedCount full < 2 ^ 64) :
    (files (layout crc full bytes)).filter
        (fun file => file.name ≠ segmentFilename (sealedCount full)) =
      files (sealedSegments crc 0 full) := by
  have kept : (files (sealedSegments crc 0 full)).filter
      (fun file => file.name ≠ segmentFilename (sealedCount full)) =
        files (sealedSegments crc 0 full) := by
    rw [List.filter_eq_self]
    intro file member
    obtain ⟨segment, inside, rfl⟩ := List.mem_map.1 member
    exact decide_eq_true (name_sealedSegments_ne nonempty (Nat.le_refl _) bound inside)
  rw [files, layout, List.map_append, List.filter_append]
  rw [files] at kept
  rw [kept, files]
  simp

/-! ## Recovery -/

theorem recoverable_sealed {first : Nat} {payloads : List Bytes} {tail : Bytes}
    (full : List (List Bytes)) (last : Nat × SegmentFile)
    (fit : FramesFit first (full.flatten ++ payloads))
    (content : last.2.bytes = frames crc (first + sealedCount full) payloads ++ tail)
    (torn : TornTail crc tail) :
    Recoverable crc first (sealedSegments crc first full ++ [last]) (full.flatten ++ payloads)
      tail := by
  induction full generalizing first with
  | nil => exact .last fit content torn
  | cons segment rest inductionHypothesis =>
      rw [List.flatten_cons, List.append_assoc] at fit ⊢
      obtain ⟨early, late⟩ := FramesFit.append_iff.1 fit
      have count : first + sealedCount (segment :: rest) =
          first + segment.length + sealedCount rest := by
        rw [sealedCount, sealedCount, List.flatten_cons, List.length_append, Nat.add_assoc]
      rw [count] at content
      exact .more (by simp) early rfl (inductionHypothesis late content)

theorem recoverable_layout {payloads : List Bytes} {tail : Bytes}
    (fit : FramesFit 0 (full.flatten ++ payloads)) (torn : TornTail crc tail) :
    Recoverable crc 0 (layout crc full (frames crc (sealedCount full) payloads ++ tail))
      (full.flatten ++ payloads) tail := by
  apply recoverable_sealed full _ fit _ torn
  rw [Nat.zero_add]

end Layout
end Exg.Wal
