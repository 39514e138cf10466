import Exg.Support.Crc32
import Exg.Support.Disk
import Exg.Wal.Framing
import Exg.Wal.Writer

/-!
# Snapshots

A snapshot is a file of the log's directory, named by a sequence number: the data and a
checksum over them.  It is written under a temporary name, synced and renamed; the three
highest are kept, and the highest is loaded.

`Shows` says of a directory which snapshot is the newest one in it.
-/

namespace Exg.Wal

open Support

/-! ## File names -/

def snapshotPrefix : List Char := "snapshot-".toList

def snapshotSuffix : List Char := ".snap".toList

def maxSnapshotsKept : Nat := 3

/-- The checksum of the snapshot data, stored as a little-endian trailer. -/
def snapshotCrcSize : Nat := 4

/-- Format a snapshot file name. -/
def snapshotFilename (sequence : Nat) : String :=
  .ofList (snapshotPrefix ++ (paddedDigits 20 sequence ++ snapshotSuffix))

def tmpFilename (sequence : Nat) : String :=
  .ofList (snapshotPrefix ++ (paddedDigits 20 sequence ++ snapshotSuffix) ++ ".tmp".toList)

/-- Parse the sequence number from a snapshot file name. -/
def parseSnapshotFilename (name : String) : Option Nat :=
  ((name.toList.dropPrefix? snapshotPrefix).bind fun rest =>
    rest.dropSuffix? snapshotSuffix).bind parseU64

def SequenceLe (left right : Nat × String) : Prop := left.1 ≤ right.1

instance : DecidableRel SequenceLe :=
  fun left right => inferInstanceAs (Decidable (left.1 ≤ right.1))

instance : Std.Total SequenceLe := ⟨fun left right => Nat.le_total left.1 right.1⟩

instance : IsTrans (Nat × String) SequenceLe := ⟨fun _ _ _ => Nat.le_trans⟩

/-- All snapshot files among the names of a directory, sorted by sequence. -/
def listSnapshots (names : List String) : List (Nat × String) :=
  (names.filterMap fun name =>
    (parseSnapshotFilename name).map fun sequence => (sequence, name)).insertionSort SequenceLe

/-! ## Saving and loading -/

structure Snapshot where
  sequence : Nat
  data : Bytes
  deriving DecidableEq, Repr

/-- The directory of the log and the files in it. -/
abbrev SnapshotDir := Disk String UInt8

def SnapshotDir.names (disk : SnapshotDir) : List String := disk.visible.map Prod.fst

/-- A number as `0x` and eight hexadecimal digits. -/
def hexWord (value : Nat) : String :=
  "0x" ++ .ofList ((Nat.toDigits 16 value).leftpad 8 '0')

section Store

variable (crc : Checksum)

def encodeSnapshot (data : Bytes) : Bytes := data ++ leBytes snapshotCrcSize (crc data).toNat

/-- Write the data and the checksum to a temporary file, sync it, rename it and sync the
directory. -/
def writeSnapshot (snapshot : Snapshot) : List (FileOp String UInt8) :=
  let tmpPath := tmpFilename snapshot.sequence
  [.create tmpPath, .append tmpPath snapshot.data,
    .append tmpPath (leBytes snapshotCrcSize (crc snapshot.data).toNat), .sync tmpPath,
    .rename tmpPath (snapshotFilename snapshot.sequence), .syncDirectory]

/-- Remove old snapshots, keeping only the latest ones. -/
def cleanupOldSnapshots (names : List String) : List (FileOp String UInt8) :=
  let snapshots := listSnapshots names
  (snapshots.take (snapshots.length - maxSnapshotsKept)).map fun snapshot => .remove snapshot.2

/-- The file operations of `save_snapshot`. -/
def saveSnapshot (disk : SnapshotDir) (snapshot : Snapshot) : List (FileOp String UInt8) :=
  let written := (writeSnapshot crc snapshot).foldl Disk.perform disk
  writeSnapshot crc snapshot ++ cleanupOldSnapshots (SnapshotDir.names written)

/-- Check a snapshot file. -/
def decodeSnapshot (sequence : Nat) (raw : Bytes) : Except WalError Snapshot :=
  if raw.length < snapshotCrcSize then
    .error (.corrupt sequence "snapshot too small to contain CRC")
  else
    let data := raw.take (raw.length - snapshotCrcSize)
    let storedCrc := leValue (raw.drop (raw.length - snapshotCrcSize))
    let computedCrc := (crc data).toNat
    if storedCrc ≠ computedCrc then
      .error (.corrupt sequence ("snapshot CRC mismatch: stored=" ++ hexWord storedCrc ++
        ", computed=" ++ hexWord computedCrc))
    else
      .ok ⟨sequence, data⟩

/-- Load the latest snapshot, checking its integrity. -/
def loadLatestSnapshot (disk : SnapshotDir) : Except WalError (Option Snapshot) :=
  match (listSnapshots (SnapshotDir.names disk)).getLast? with
  | none => .ok none
  | some (sequence, name) =>
      let raw := ((disk.fileAt name).map disk.bytes).getD []
      (decodeSnapshot crc sequence raw).map some

end Store

/-! ## Names -/

section Names

variable {sequence : Nat}

theorem parseSnapshotFilename_of_fits (fits : sequence < 2 ^ 64) :
    parseSnapshotFilename (snapshotFilename sequence) = some sequence := by
  have stripped : ((snapshotPrefix ++ (paddedDigits 20 sequence ++ snapshotSuffix)).dropPrefix?
      snapshotPrefix) = some (paddedDigits 20 sequence ++ snapshotSuffix) :=
    List.dropPrefix?_append_of_beq _ (BEq.refl _)
  have bare : (paddedDigits 20 sequence ++ snapshotSuffix).dropSuffix? snapshotSuffix =
      some (paddedDigits 20 sequence) :=
    List.dropSuffix?_eq_some_iff.2 ⟨snapshotSuffix, rfl, BEq.refl _⟩
  rw [parseSnapshotFilename, snapshotFilename, String.toList_ofList, stripped]
  simp only [Option.bind_some, bare]
  rw [parseU64_paddedDigits (lt_trans fits (by decide)), Option.filter_some,
    if_pos (decide_eq_true fits)]

/-- A temporary name is not the name of a snapshot. -/
theorem parseSnapshotFilename_tmpFilename (sequence : Nat) :
    parseSnapshotFilename (tmpFilename sequence) = none := by
  have stripped : ((snapshotPrefix ++ (paddedDigits 20 sequence ++ snapshotSuffix) ++
      ".tmp".toList).dropPrefix? snapshotPrefix) =
        some (paddedDigits 20 sequence ++ snapshotSuffix ++ ".tmp".toList) := by
    rw [List.append_assoc]
    exact List.dropPrefix?_append_of_beq _ (BEq.refl _)
  have kept : (paddedDigits 20 sequence ++ snapshotSuffix ++ ".tmp".toList).dropSuffix?
      snapshotSuffix = none := by
    apply Option.eq_none_iff_forall_ne_some.2
    intro rest found
    obtain ⟨suffix, split, same⟩ := List.dropSuffix?_eq_some_iff.1 found
    obtain rfl := eq_of_beq same
    have dotted : rest ++ snapshotSuffix = (rest ++ ['.']) ++ "snap".toList := by
      rw [List.append_assoc]
      rfl
    rw [dotted] at split
    have ends := (List.append_inj' split rfl).2
    exact absurd ends (by decide)
  rw [parseSnapshotFilename, tmpFilename, String.toList_ofList, stripped]
  simp only [Option.bind_some, kept, Option.bind_none]

theorem mem_listSnapshots {names : List String} {snapshot : Nat × String} :
    snapshot ∈ listSnapshots names ↔
      snapshot.2 ∈ names ∧ parseSnapshotFilename snapshot.2 = some snapshot.1 := by
  rw [listSnapshots, List.mem_insertionSort, List.mem_filterMap]
  constructor
  · rintro ⟨name, member, parsed⟩
    obtain ⟨sequence, found, rfl⟩ := Option.map_eq_some_iff.1 parsed
    exact ⟨member, found⟩
  · rintro ⟨member, found⟩
    exact ⟨snapshot.2, member, by rw [found]; rfl⟩

theorem listSnapshots_sorted (names : List String) : (listSnapshots names).Pairwise SequenceLe :=
  List.pairwise_insertionSort SequenceLe _

theorem listSnapshots_nodup {names : List String} (nodup : names.Nodup) :
    (listSnapshots names).Nodup := by
  rw [listSnapshots, (List.perm_insertionSort SequenceLe _).nodup_iff]
  apply nodup.filterMap
  intro first second snapshot left right
  obtain ⟨_, _, rfl⟩ := Option.map_eq_some_iff.1 left
  obtain ⟨_, _, same⟩ := Option.map_eq_some_iff.1 right
  exact (congrArg Prod.snd same).symm

private theorem last_highest {names : List String} {last : Nat × String}
    (found : (listSnapshots names).getLast? = some last) :
    ∀ snapshot ∈ listSnapshots names, snapshot.1 ≤ last.1 := by
  obtain ⟨before, split⟩ := List.getLast?_eq_some_iff.1 found
  have sorted := listSnapshots_sorted names
  rw [split] at sorted ⊢
  intro snapshot member
  rcases List.mem_append.1 member with early | single
  · exact (List.pairwise_append.1 sorted).2.2 snapshot early last List.mem_cons_self
  · rw [List.mem_singleton.1 single]

end Names

/-! ## The newest snapshot of a directory -/

/-- The newer of two snapshots, the later one of two with the same sequence. -/
def newer (newest : Option Snapshot) (snapshot : Snapshot) : Option Snapshot :=
  match newest with
  | none => some snapshot
  | some known => if known.sequence ≤ snapshot.sequence then some snapshot else some known

/-- Every snapshot of the directory has the name that its sequence is written with. -/
def Canonically (entries : Entries String) : Prop :=
  ∀ entry ∈ entries, ∀ sequence, parseSnapshotFilename entry.1 = some sequence →
    entry.1 = snapshotFilename sequence

/-- The directory has no snapshot, or a whole one of the highest sequence. -/
inductive Newest (crc : Checksum) (bytes : Nat → Bytes) (entries : Entries String) :
    Option Snapshot → Prop where
  | empty (absent : ∀ entry ∈ entries, parseSnapshotFilename entry.1 = none) :
      Newest crc bytes entries none
  | file {snapshot : Snapshot} {file : Nat} (fits : snapshot.sequence < 2 ^ 64)
      (named : (snapshotFilename snapshot.sequence, file) ∈ entries)
      (whole : bytes file = encodeSnapshot crc snapshot.data)
      (highest : ∀ entry ∈ entries, ∀ sequence, parseSnapshotFilename entry.1 = some sequence →
        sequence ≤ snapshot.sequence) : Newest crc bytes entries (some snapshot)

structure Shows (crc : Checksum) (bytes : Nat → Bytes) (entries : Entries String)
    (newest : Option Snapshot) : Prop where
  canonical : Canonically entries
  newest : Newest crc bytes entries newest

section Shows

variable {crc : Checksum} {bytes other : Nat → Bytes} {entries : Entries String}
variable {newest : Option Snapshot} {name : String} {file : Nat}

theorem Shows.congr (shows : Shows crc bytes entries newest)
    (same : ∀ entry ∈ entries, (parseSnapshotFilename entry.1).isSome = true →
      other entry.2 = bytes entry.2) : Shows crc other entries newest := by
  refine ⟨shows.canonical, ?_⟩
  cases shows.newest with
  | empty absent => exact .empty absent
  | file fits named whole highest =>
      refine .file fits named ?_ highest
      rw [same _ named (by rw [parseSnapshotFilename_of_fits fits]; rfl), whole]

/-- Dropping a name changes nothing unless it is the newest snapshot's. -/
theorem Shows.without (shows : Shows crc bytes entries newest)
    (spared : ∀ snapshot, newest = some snapshot → name ≠ snapshotFilename snapshot.sequence) :
    Shows crc bytes (without entries name) newest := by
  refine ⟨fun entry member => shows.canonical entry (mem_without.1 member).1, ?_⟩
  cases shows.newest with
  | empty absent => exact .empty fun entry member => absent entry (mem_without.1 member).1
  | file fits named whole highest =>
      exact .file fits (mem_without.2 ⟨named, (spared _ rfl).symm⟩) whole
        fun entry member => highest entry (mem_without.1 member).1

theorem Newest.spared (holds : Newest crc bytes entries newest)
    (draft : parseSnapshotFilename name = none) :
    ∀ snapshot, newest = some snapshot → name ≠ snapshotFilename snapshot.sequence := by
  rintro snapshot rfl rfl
  cases holds with
  | file fits named whole highest =>
      rw [parseSnapshotFilename_of_fits fits] at draft
      cases draft

/-- A name that is no snapshot's changes nothing. -/
theorem Shows.link (shows : Shows crc bytes entries newest)
    (draft : parseSnapshotFilename name = none) :
    Shows crc bytes ((name, file) :: Support.without entries name) newest := by
  obtain ⟨canonical, shown⟩ := shows.without (shows.newest.spared draft)
  refine ⟨?_, ?_⟩
  · intro entry member sequence parsed
    rcases List.mem_cons.1 member with rfl | old
    · rw [draft] at parsed
      cases parsed
    · exact canonical entry old sequence parsed
  · cases shown with
    | empty absent => exact .empty (List.forall_mem_cons.2 ⟨draft, absent⟩)
    | file fits named whole highest =>
        refine .file fits (List.mem_cons_of_mem _ named) whole
          (List.forall_mem_cons.2 ⟨?_, highest⟩)
        intro sequence parsed
        rw [draft] at parsed
        cases parsed

/-- A whole snapshot under its name is the newest unless another one is newer. -/
theorem Shows.put (shows : Shows crc bytes entries newest) {snapshot : Snapshot}
    (fits : snapshot.sequence < 2 ^ 64) (whole : bytes file = encodeSnapshot crc snapshot.data) :
    Shows crc bytes ((snapshotFilename snapshot.sequence, file) ::
      Support.without entries (snapshotFilename snapshot.sequence)) (newer newest snapshot) := by
  have parsed := parseSnapshotFilename_of_fits fits
  refine ⟨?_, ?_⟩
  · intro entry member sequence found
    rcases List.mem_cons.1 member with rfl | old
    · rw [parsed] at found
      cases found
      rfl
    · exact shows.canonical entry (mem_without.1 old).1 sequence found
  · have own : ∀ sequence, parseSnapshotFilename (snapshotFilename snapshot.sequence) =
        some sequence → sequence = snapshot.sequence := by
      intro sequence found
      rw [parsed] at found
      exact (Option.some.inj found).symm
    cases shows.newest with
    | empty absent =>
        refine .file fits List.mem_cons_self whole (List.forall_mem_cons.2 ⟨?_, ?_⟩)
        · exact fun sequence found => (own sequence found).le
        · intro entry old sequence found
          rw [absent entry (mem_without.1 old).1] at found
          cases found
    | @file known kept knownFits named knownWhole highest =>
        rw [newer]
        split
        · rename_i later
          refine .file fits List.mem_cons_self whole (List.forall_mem_cons.2 ⟨?_, ?_⟩)
          · exact fun sequence found => (own sequence found).le
          · intro entry old sequence found
            exact (highest entry (mem_without.1 old).1 sequence found).trans later
        · rename_i earlier
          have names : snapshotFilename known.sequence ≠ snapshotFilename snapshot.sequence := by
            intro same
            rw [← same, parseSnapshotFilename_of_fits knownFits] at parsed
            exact earlier (Option.some.inj parsed).le
          refine .file knownFits (List.mem_cons_of_mem _ (mem_without.2 ⟨named, names⟩))
            knownWhole (List.forall_mem_cons.2 ⟨?_, ?_⟩)
          · intro sequence found
            rw [own sequence found]
            omega
          · exact fun entry old => highest entry (mem_without.1 old).1

end Shows

/-! ## Loading and cleaning up -/

section Loading

variable {crc : Checksum} {disk : SnapshotDir} {newest : Option Snapshot}

private theorem decodeSnapshot_append (crc : Checksum) (sequence : Nat) (data : Bytes)
    {check : Bytes} (length : check.length = snapshotCrcSize) :
    decodeSnapshot crc sequence (data ++ check) =
      if leValue check ≠ (crc data).toNat then
        .error (.corrupt sequence ("snapshot CRC mismatch: stored=" ++ hexWord (leValue check) ++
          ", computed=" ++ hexWord (crc data).toNat))
      else
        .ok ⟨sequence, data⟩ := by
  have taken : (data ++ check).take data.length = data := List.take_left
  have dropped : (data ++ check).drop data.length = check := List.drop_left
  rw [decodeSnapshot, List.length_append, length, if_neg (by omega), Nat.add_sub_cancel]
  simp only [taken, dropped]

theorem storedCrc (crc : Checksum) (data : Bytes) :
    leValue (leBytes snapshotCrcSize (crc data).toNat) = (crc data).toNat :=
  leValue_leBytes (crc data).toNat_lt

private theorem decodeSnapshot_encodeSnapshot (crc : Checksum) (sequence : Nat) (data : Bytes) :
    decodeSnapshot crc sequence (encodeSnapshot crc data) = .ok ⟨sequence, data⟩ := by
  rw [encodeSnapshot, decodeSnapshot_append crc _ _ (length_leBytes _ _), storedCrc,
    if_neg (not_not.2 rfl)]

section Changed

variable {data before after : Bytes} {old new : UInt8}

private theorem decodeSnapshot_checkChanged (crc : Checksum) (sequence : Nat)
    (check : leBytes snapshotCrcSize (crc data).toNat = before ++ old :: after)
    (differ : old ≠ new) :
    ∃ reason, decodeSnapshot crc sequence (data ++ (before ++ new :: after)) =
      .error (.corrupt sequence reason) := by
  have other := leValue_changed check (crc data).toNat_lt differ
  rw [decodeSnapshot_append crc _ _ (length_changed check), if_pos other]
  exact ⟨_, rfl⟩

private theorem decodeSnapshot_dataChanged (detects : DetectsByteChange crc) (sequence : Nat)
    (split : data = before ++ old :: after) (differ : old ≠ new) :
    ∃ reason, decodeSnapshot crc sequence
        (before ++ new :: (after ++ leBytes snapshotCrcSize (crc data).toNat)) =
      .error (.corrupt sequence reason) := by
  have other := detects before old new after differ
  rw [← List.cons_append, ← List.append_assoc, decodeSnapshot_append crc _ _ (length_leBytes _ _),
    storedCrc, split, if_pos fun same => other (UInt32.toNat_inj.1 same)]
  exact ⟨_, rfl⟩

/-- A snapshot file with a changed byte is refused, wherever the byte is. -/
theorem decodeSnapshot_changed (detects : DetectsByteChange crc) (sequence : Nat)
    (content : encodeSnapshot crc data = before ++ old :: after) (differ : old ≠ new) :
    ∃ reason, decodeSnapshot crc sequence (before ++ new :: after) =
      .error (.corrupt sequence reason) := by
  rw [encodeSnapshot] at content
  rcases List.append_eq_append_iff.1 content with ⟨early, rfl, check⟩ | ⟨late, split, tail⟩
  · rw [List.append_assoc]
    exact decodeSnapshot_checkChanged crc sequence check differ
  · cases late with
    | nil =>
        rw [List.append_nil] at split
        have check : leBytes snapshotCrcSize (crc data).toNat = [] ++ old :: after := tail.symm
        rw [← split]
        exact decodeSnapshot_checkChanged crc sequence check differ
    | cons first rest =>
        obtain ⟨rfl, same⟩ := List.cons.inj tail
        rw [same]
        exact decodeSnapshot_dataChanged detects sequence split differ

end Changed

private theorem loadLatestSnapshot_empty
    (absent : ∀ entry ∈ disk.visible, parseSnapshotFilename entry.1 = none) :
    loadLatestSnapshot crc disk = .ok none := by
  have unlisted : listSnapshots (SnapshotDir.names disk) = [] := by
    apply List.eq_nil_iff_forall_not_mem.2
    intro snapshot member
    obtain ⟨inside, parsed⟩ := mem_listSnapshots.1 member
    obtain ⟨entry, seen, same⟩ := List.mem_map.1 inside
    rw [← same, absent entry seen] at parsed
    cases parsed
  rw [loadLatestSnapshot, unlisted]
  rfl

/-- The file of the highest sequence is read. -/
theorem loadLatestSnapshot_highest (crc : Checksum) (disk : SnapshotDir)
    (distinct : Distinct disk.visible)
    (canonical : Canonically disk.visible) {sequence file : Nat} (fits : sequence < 2 ^ 64)
    (named : (snapshotFilename sequence, file) ∈ disk.visible)
    (highest : ∀ entry ∈ disk.visible, ∀ other, parseSnapshotFilename entry.1 = some other →
      other ≤ sequence) :
    loadLatestSnapshot crc disk = (decodeSnapshot crc sequence (disk.bytes file)).map some := by
  have listed : (sequence, snapshotFilename sequence) ∈ listSnapshots (SnapshotDir.names disk) :=
    mem_listSnapshots.2 ⟨List.mem_map.2 ⟨_, named, rfl⟩, parseSnapshotFilename_of_fits fits⟩
  have read : disk.fileAt (snapshotFilename sequence) = some file := distinct.lookup_iff.2 named
  cases last : (listSnapshots (SnapshotDir.names disk)).getLast? with
  | none =>
      rw [List.getLast?_eq_none_iff.1 last] at listed
      cases listed
  | some found =>
      obtain ⟨inside, parsed⟩ := mem_listSnapshots.1 (List.mem_of_getLast? last)
      obtain ⟨entry, seen, name⟩ := List.mem_map.1 inside
      rw [← name] at parsed
      have above := last_highest last _ listed
      have same : found.1 = sequence := Nat.le_antisymm (highest entry seen _ parsed) above
      have text := canonical entry seen _ parsed
      rw [name, same] at text
      have whole : found = (sequence, snapshotFilename sequence) := Prod.ext same text
      simp only [loadLatestSnapshot, last, whole, read, Option.map_some, Option.getD_some]

/-- The newest snapshot of the directory is loaded. -/
theorem loadLatestSnapshot_of_shows (distinct : Distinct disk.visible)
    (shows : Shows crc disk.bytes disk.visible newest) :
    loadLatestSnapshot crc disk = .ok newest := by
  cases shows.newest with
  | empty absent => exact loadLatestSnapshot_empty absent
  | file fits named whole highest =>
      rw [loadLatestSnapshot_highest crc disk distinct shows.canonical fits named highest, whole,
        decodeSnapshot_encodeSnapshot]
      rfl

/-- A changed byte in any file is noticed, unless the newest snapshot is in another one. -/
theorem loadLatestSnapshot_changed (detects : DetectsByteChange crc)
    (distinct : Distinct disk.visible) (shows : Shows crc disk.bytes disk.visible newest)
    {file : Nat} {before after : Bytes} {old new : UInt8} (differ : old ≠ new)
    (content : disk.bytes file = before ++ old :: after) (durable : Bool) :
    loadLatestSnapshot crc (disk.store file (before ++ new :: after) durable) = .ok newest ∨
      ∃ snapshot reason, newest = some snapshot ∧
        loadLatestSnapshot crc (disk.store file (before ++ new :: after) durable) =
          .error (.corrupt snapshot.sequence reason) := by
  cases shows.newest with
  | empty absent => exact .inl (loadLatestSnapshot_empty absent)
  | @file snapshot kept fits named whole highest =>
      have loaded : loadLatestSnapshot crc (disk.store file (before ++ new :: after) durable) =
          (decodeSnapshot crc snapshot.sequence
            ((disk.store file (before ++ new :: after) durable).bytes kept)).map some :=
        loadLatestSnapshot_highest crc (disk.store file _ durable) distinct shows.canonical fits
          named highest
      rw [loaded]
      by_cases same : kept = file
      · subst same
        obtain ⟨reason, refused⟩ :=
          decodeSnapshot_changed detects snapshot.sequence (whole.symm.trans content) differ
        refine .inr ⟨snapshot, reason, rfl, ?_⟩
        have stored : (disk.store kept (before ++ new :: after) durable).bytes kept =
            before ++ new :: after := if_pos rfl
        rw [stored, refused]
        rfl
      · have stored : (disk.store file (before ++ new :: after) durable).bytes kept =
            disk.bytes kept := if_neg same
        rw [stored, whole, decodeSnapshot_encodeSnapshot]
        exact .inl rfl

/-- The newest snapshot of the directory is not among those that are removed. -/
theorem cleanupOldSnapshots_spares (distinct : Distinct disk.visible)
    (shows : Shows crc disk.bytes disk.visible newest) {name : String}
    (removed : FileOp.remove name ∈ cleanupOldSnapshots (SnapshotDir.names disk)) :
    ∀ snapshot, newest = some snapshot → name ≠ snapshotFilename snapshot.sequence := by
  rintro snapshot rfl rfl
  obtain ⟨old, early, same⟩ := List.mem_map.1 removed
  have nodup := listSnapshots_nodup distinct.names
  have sorted := listSnapshots_sorted (SnapshotDir.names disk)
  rw [SnapshotDir.names] at early sorted
  generalize snapshots : listSnapshots (disk.visible.map Prod.fst) = listed at early nodup sorted
  have member := List.mem_of_mem_take early
  have nonempty : 0 < listed.length := List.length_pos_of_mem member
  -- A snapshot that is kept is listed behind the removed one.
  obtain ⟨kept, late⟩ : ∃ kept, kept ∈ listed.drop (listed.length - maxSnapshotsKept) := by
    apply List.exists_mem_of_length_pos
    rw [List.length_drop, maxSnapshotsKept]
    omega
  rw [← List.take_append_drop (listed.length - maxSnapshotsKept) listed] at nodup sorted
  have order : old.1 ≤ kept.1 := (List.pairwise_append.1 sorted).2.2 old early kept late
  have apart := (List.nodup_append.1 nodup).2.2 old early kept late
  rw [← snapshots] at member late
  obtain ⟨_, parsed⟩ := mem_listSnapshots.1 member
  obtain ⟨inside, parsedKept⟩ := mem_listSnapshots.1 (List.mem_of_mem_drop late)
  obtain ⟨entry, seen, keptName⟩ := List.mem_map.1 inside
  rw [← keptName] at parsedKept
  have names : old.2 = snapshotFilename snapshot.sequence := FileOp.remove.inj same
  cases shows.newest with
  | file fits named whole highest =>
      rw [names, parseSnapshotFilename_of_fits fits] at parsed
      have bound := highest entry seen _ parsedKept
      have first : old.1 = snapshot.sequence := (Option.some.inj parsed).symm
      have keys : kept.1 = old.1 := by omega
      have texts := shows.canonical entry seen _ parsedKept
      apply apart
      rw [Prod.ext_iff, names, ← keptName, texts, keys, first]
      exact ⟨rfl, rfl⟩

end Loading
end Exg.Wal
