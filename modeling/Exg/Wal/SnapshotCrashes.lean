import Exg.Support.Machine
import Exg.Wal.Snapshots

/-!
# Crashes of the snapshot store

The store is a register: a save sets it unless a newer snapshot is known, and a load returns
it.  A save that stops half way leaves the register as it was, sets it, or sets it until the
next power loss, which then keeps any of the unsettled snapshots.  `Backs` relates the files to
the register: it says what each directory that a power loss may leave has to show.
-/

namespace Exg.Wal

open Support

/-! ## Runs -/

inductive StoreInput where
  | save (snapshot : Snapshot)
  /-- The process stops after some of the file operations of a save. -/
  | stopSave (snapshot : Snapshot) (operations : Nat)
  | powerLoss (loss : PowerLoss UInt8)
  | load

inductive StoreEvent where
  | saved (snapshot : Snapshot)
  | stopped (snapshot : Snapshot)
  | lostPower
  | loaded (result : Except WalError (Option Snapshot))

def SnapshotDir.step (crc : Checksum) (disk : SnapshotDir) :
    StoreInput → SnapshotDir × List StoreEvent
  | .save snapshot =>
      ((saveSnapshot crc disk snapshot).foldl Disk.perform disk, [.saved snapshot])
  | .stopSave snapshot operations =>
      (((saveSnapshot crc disk snapshot).take operations).foldl Disk.perform disk,
        [.stopped snapshot])
  | .powerLoss loss => (disk.powerLoss loss, [.lostPower])
  | .load => (disk, [.loaded (loadLatestSnapshot crc disk)])

def StoreInput.Fits : StoreInput → Prop
  | .save snapshot | .stopSave snapshot _ => snapshot.sequence < 2 ^ 64
  | _ => True

/-- A synced directory without snapshots. -/
structure SnapshotDir.Blank (disk : SnapshotDir) : Prop where
  rested : disk.pending = []
  distinct : Distinct disk.stable
  known : ∀ entry ∈ disk.stable, entry.2 < disk.fresh
  absent : ∀ entry ∈ disk.stable, parseSnapshotFilename entry.1 = none

/-! ## The register -/

/-- The newest snapshot that no power loss takes away, and what has been set since. -/
structure Register where
  settled : Option Snapshot
  unsettled : List Snapshot
  deriving DecidableEq, Repr

/-- What a load returns. -/
def Register.shown (register : Register) : Option Snapshot :=
  register.unsettled.foldl newer register.settled

/-- What the events do to the register. -/
inductive Register.Next : Register → StoreEvent → Register → Prop where
  | saved (register : Register) (snapshot : Snapshot) :
      Next register (.saved snapshot) ⟨newer register.shown snapshot, []⟩
  | dropped (register : Register) (snapshot : Snapshot) :
      Next register (.stopped snapshot) register
  | set (register : Register) (snapshot : Snapshot) :
      Next register (.stopped snapshot)
        { register with unsettled := register.unsettled ++ [snapshot] }
  | settled (register : Register) (snapshot : Snapshot) :
      Next register (.stopped snapshot) ⟨newer register.shown snapshot, []⟩
  | lostPower {register : Register} {kept : List Snapshot}
      (some : List.Sublist kept register.unsettled) :
      Next register .lostPower ⟨kept.foldl newer register.settled, []⟩
  | loaded (register : Register) : Next register (.loaded (.ok register.shown)) register

/-! ## The files behind the register -/

/-- The name of a snapshot. -/
def Published (name : String) : Prop := (parseSnapshotFilename name).isSome = true

/-- The snapshot that a change of the directory adds. -/
def addedSnapshot (bytes : Nat → Bytes) : DirOp String → Option Snapshot
  | .move _ target file =>
      (parseSnapshotFilename target).map fun sequence =>
        ⟨sequence, (bytes file).take ((bytes file).length - snapshotCrcSize)⟩
  | _ => none

def addedSnapshots (bytes : Nat → Bytes) (ops : List (DirOp String)) : List Snapshot :=
  ops.filterMap (addedSnapshot bytes)

/-- Whatever a power loss keeps, the directory shows the newest of the settled snapshot and the
kept ones. -/
structure Backs (crc : Checksum) (disk : SnapshotDir) (register : Register) : Prop where
  tidy : disk.Tidy Published
  shows : ∀ ops, List.Sublist ops disk.pending → Shows crc disk.bytes (disk.outcome ops)
    ((addedSnapshots disk.bytes ops).foldl newer register.settled)
  unsettled : addedSnapshots disk.bytes disk.pending = register.unsettled

section Backs

variable {crc : Checksum} {disk : SnapshotDir} {register : Register} {snapshot : Snapshot}
variable {name : String} {file : Nat}

private theorem not_published (draft : parseSnapshotFilename name = none) : ¬ Published name := by
  rw [Published, draft]
  exact Bool.false_ne_true

private theorem addedSnapshots_concat (bytes : Nat → Bytes) (ops : List (DirOp String))
    (op : DirOp String) :
    addedSnapshots bytes (ops ++ [op]) = addedSnapshots bytes ops ++ addedSnapshots bytes [op] :=
  List.filterMap_append

private theorem addedSnapshots_link (bytes : Nat → Bytes) (name : String) (file : Nat) :
    addedSnapshots bytes [.link name file] = [] := rfl

private theorem addedSnapshots_unlink (bytes : Nat → Bytes) (name : String) :
    addedSnapshots bytes [.unlink name] = [] := rfl

private theorem addedSnapshots_move {bytes : Nat → Bytes} (fits : snapshot.sequence < 2 ^ 64)
    (whole : bytes file = encodeSnapshot crc snapshot.data) (source : String) :
    addedSnapshots bytes [.move source (snapshotFilename snapshot.sequence) file] =
      [snapshot] := by
  have data : (bytes file).take ((bytes file).length - snapshotCrcSize) = snapshot.data := by
    have length : (encodeSnapshot crc snapshot.data).length =
        snapshot.data.length + snapshotCrcSize := by
      rw [encodeSnapshot, List.length_append, length_leBytes]
    rw [whole, length, Nat.add_sub_cancel, encodeSnapshot, List.take_left' rfl]
  simp only [addedSnapshots, List.filterMap_cons, addedSnapshot,
    parseSnapshotFilename_of_fits fits, Option.map_some, data, List.filterMap_nil]

theorem Backs.shown (holds : Backs crc disk register) :
    Shows crc disk.bytes disk.visible register.shown := by
  have shows := holds.shows _ (List.Sublist.refl _)
  rwa [holds.unsettled] at shows

theorem Backs.load (holds : Backs crc disk register) :
    loadLatestSnapshot crc disk = .ok register.shown :=
  loadLatestSnapshot_of_shows holds.tidy.visible holds.shown

/-- What is written to a file without a snapshot's name changes no snapshot. -/
theorem Backs.store (holds : Backs crc disk register)
    (unpublished : Disk.Unpublished Published disk file) (bytes : Bytes) (durable : Bool) :
    Backs crc (disk.store file bytes durable) register := by
  have same : ∀ other, other ≠ file → (disk.store file bytes durable).bytes other =
      disk.bytes other := fun other different => if_neg different
  have added : ∀ ops, List.Sublist ops disk.pending →
      addedSnapshots (disk.store file bytes durable).bytes ops =
        addedSnapshots disk.bytes ops := by
    intro ops sublist
    apply List.filterMap_congr
    intro op member
    cases op with
    | move source target moved =>
        cases parsed : parseSnapshotFilename target with
        | none => simp only [addedSnapshot, parsed, Option.map_none]
        | some sequence =>
            -- A power loss may keep this change alone, which shows the file under its name.
            have single : List.Sublist [DirOp.move source target moved] disk.pending :=
              (List.singleton_sublist.2 member).trans sublist
            have different : moved ≠ file := unpublished _ single _ List.mem_cons_self
              (by rw [Published, parsed]; rfl)
            simp only [addedSnapshot, same moved different]
    | link | unlink => rfl
  refine ⟨holds.tidy.store unpublished bytes durable, ?_, ?_⟩
  · intro ops sublist
    rw [added ops sublist]
    exact (holds.shows ops sublist).congr fun entry member isPublished =>
      same _ (unpublished ops sublist entry member isPublished)
  · rw [← holds.unsettled]
    exact added _ (List.Sublist.refl _)

theorem Backs.link (holds : Backs crc disk register)
    (draft : parseSnapshotFilename name = none) : Backs crc (disk.link name) register := by
  have stored := holds.store holds.tidy.unpublished_fresh [] false
  refine ⟨holds.tidy.link (not_published draft), ?_, ?_⟩
  · refine forall_sublist_concat.2 fun ops sublist => ⟨stored.shows ops sublist, ?_⟩
    rw [addedSnapshots_concat, addedSnapshots_link, List.append_nil, Disk.outcome_concat]
    exact (stored.shows ops sublist).link draft
  · rw [← stored.unsettled]
    have concat := addedSnapshots_concat (disk.link name).bytes disk.pending
      (.link name disk.fresh)
    rwa [addedSnapshots_link, List.append_nil] at concat

/-- The renaming adds the snapshot, which is not settled. -/
theorem Backs.move (holds : Backs crc disk register) (named : disk.fileAt name = some file)
    (draft : parseSnapshotFilename name = none) (synced : disk.durable file = true)
    (fits : snapshot.sequence < 2 ^ 64)
    (whole : disk.bytes file = encodeSnapshot crc snapshot.data) :
    Backs crc (disk.push (.move name (snapshotFilename snapshot.sequence) file))
      { register with unsettled := register.unsettled ++ [snapshot] } := by
  have added := addedSnapshots_move fits whole name
  have isPublished : Published (snapshotFilename snapshot.sequence) := by
    rw [Published, parseSnapshotFilename_of_fits fits]
    rfl
  refine ⟨holds.tidy.move named (not_published draft) synced _ isPublished, ?_, ?_⟩
  · refine forall_sublist_concat.2 fun ops sublist => ⟨holds.shows ops sublist, ?_⟩
    have shows := holds.shows ops sublist
    rw [Disk.outcome_concat, Disk.push, addedSnapshots_concat, added, List.foldl_concat]
    exact (shows.without (shows.newest.spared draft)).put fits whole
  · rw [← holds.unsettled]
    have concat := addedSnapshots_concat disk.bytes disk.pending
      (.move name (snapshotFilename snapshot.sequence) file)
    rwa [added] at concat

theorem Backs.settle (holds : Backs crc disk register) :
    Backs crc disk.settle ⟨register.shown, []⟩ := by
  refine ⟨holds.tidy.settle, ?_, rfl⟩
  intro ops sublist
  rw [List.sublist_nil.1 sublist]
  exact holds.shown

theorem Backs.powerLoss (holds : Backs crc disk register) (loss : PowerLoss UInt8) :
    ∃ kept, List.Sublist kept register.unsettled ∧
      Backs crc (disk.powerLoss loss) ⟨kept.foldl newer register.settled, []⟩ := by
  have sublist := keptOps_sublist loss.survives disk.pending
  refine ⟨addedSnapshots disk.bytes (keptOps loss.survives disk.pending), ?_,
    holds.tidy.powerLoss loss, ?_, rfl⟩
  · rw [← holds.unsettled]
    exact sublist.filterMap _
  · intro ops none
    rw [List.sublist_nil.1 none]
    refine (holds.shows _ sublist).congr fun entry member isPublished => ?_
    exact if_pos (holds.tidy.durable _ sublist entry member isPublished)

/-- Removing a name other than the settled snapshot's changes nothing. -/
theorem Backs.unlink {settled : Option Snapshot} (holds : Backs crc disk ⟨settled, []⟩)
    (spared : ∀ snapshot, settled = some snapshot → name ≠ snapshotFilename snapshot.sequence) :
    Backs crc (disk.push (.unlink name)) ⟨settled, []⟩ := by
  refine ⟨holds.tidy.unlink name, ?_, ?_⟩
  · refine forall_sublist_concat.2 fun ops sublist => ⟨holds.shows ops sublist, ?_⟩
    have shows := holds.shows ops sublist
    have unchanged : addedSnapshots disk.bytes ops = [] := by
      have none : addedSnapshots disk.bytes disk.pending = [] := holds.unsettled
      apply List.sublist_nil.1
      rw [← none]
      exact sublist.filterMap _
    rw [Disk.outcome_concat, Disk.push, addedSnapshots_concat, addedSnapshots_unlink,
      List.append_nil]
    rw [unchanged] at shows ⊢
    exact shows.without spared
  · have concat := addedSnapshots_concat disk.bytes disk.pending (.unlink name)
    rw [addedSnapshots_unlink, List.append_nil, holds.unsettled] at concat
    exact concat

private theorem Backs.cleanup {settled : Option Snapshot} (holds : Backs crc disk ⟨settled, []⟩)
    {ops : List (FileOp String UInt8)}
    (spared : ∀ op ∈ ops, ∃ name, op = .remove name ∧
      ∀ snapshot, settled = some snapshot → name ≠ snapshotFilename snapshot.sequence) :
    Backs crc (ops.foldl Disk.perform disk) ⟨settled, []⟩ := by
  induction ops generalizing disk with
  | nil => exact holds
  | cons op rest inductionHypothesis =>
      obtain ⟨⟨name, rfl, kept⟩, later⟩ := List.forall_mem_cons.1 spared
      refine inductionHypothesis ?_ later
      rw [Disk.perform]
      split
      · exact holds.unlink kept
      · exact holds

/-- The removals that end a save. -/
theorem Backs.removals {settled : Option Snapshot} (holds : Backs crc disk ⟨settled, []⟩)
    (operations : Nat) :
    Backs crc (((cleanupOldSnapshots (SnapshotDir.names disk)).take operations).foldl
      Disk.perform disk) ⟨settled, []⟩ := by
  refine holds.cleanup fun op member => ?_
  have removed := List.mem_of_mem_take member
  obtain ⟨old, _, rfl⟩ := List.mem_map.1 removed
  exact ⟨old.2, rfl, cleanupOldSnapshots_spares holds.tidy.visible holds.shown removed⟩

end Backs

/-! ## Saves -/

section Saves

variable {crc : Checksum} {disk : SnapshotDir} {register : Register} {snapshot : Snapshot}

/-- A save has written some bytes under the temporary name. -/
structure Drafting (crc : Checksum) (disk : SnapshotDir) (register : Register) (name : String)
    (content : Bytes) : Prop where
  holds : Backs crc disk register
  named : ∃ file, disk.fileAt name = some file ∧ disk.bytes file = content

variable {name : String} {content : Bytes}

theorem Backs.create (holds : Backs crc disk register)
    (draft : parseSnapshotFilename name = none) :
    Drafting crc (disk.perform (.create name)) register name [] := by
  rw [Disk.perform]
  split
  · rename_i file named
    refine ⟨holds.store (holds.tidy.unpublished named (not_published draft)) [] false, file,
      named, if_pos rfl⟩
  · refine ⟨holds.link draft, disk.fresh, ?_, if_pos rfl⟩
    rw [Disk.fileAt, Disk.visible_link]
    exact List.lookup_cons_self

theorem Drafting.append (drafting : Drafting crc disk register name content)
    (draft : parseSnapshotFilename name = none) (bytes : Bytes) :
    Drafting crc (disk.perform (.append name bytes)) register name (content ++ bytes) := by
  obtain ⟨holds, file, named, rfl⟩ := drafting
  have unpublished := holds.tidy.unpublished named (not_published draft)
  simp only [Disk.perform, named]
  exact ⟨holds.store unpublished _ false, file, named, if_pos rfl⟩

theorem Drafting.sync (drafting : Drafting crc disk register name content)
    (draft : parseSnapshotFilename name = none) :
    Backs crc (disk.perform (.sync name)) register ∧
      ∃ file, (disk.perform (.sync name)).fileAt name = some file ∧
        (disk.perform (.sync name)).bytes file = content ∧
        (disk.perform (.sync name)).durable file = true := by
  obtain ⟨holds, file, named, rfl⟩ := drafting
  have unpublished := holds.tidy.unpublished named (not_published draft)
  simp only [Disk.perform, named]
  exact ⟨holds.store unpublished _ true, file, named, if_pos rfl, if_pos rfl⟩

/-- The temporary file gets the data and the checksum before it is synced. -/
theorem Backs.drafted (holds : Backs crc disk register) (snapshot : Snapshot) :
    Drafting crc (((writeSnapshot crc snapshot).take 3).foldl Disk.perform disk) register
      (tmpFilename snapshot.sequence) (encodeSnapshot crc snapshot.data) := by
  have draft := parseSnapshotFilename_tmpFilename snapshot.sequence
  have appended := (holds.create draft).append draft snapshot.data
  exact appended.append draft (leBytes snapshotCrcSize (crc snapshot.data).toNat)

private theorem foldl_synced (crc : Checksum) (disk : SnapshotDir) (snapshot : Snapshot) :
    ((writeSnapshot crc snapshot).take 4).foldl Disk.perform disk =
      (((writeSnapshot crc snapshot).take 3).foldl Disk.perform disk).perform
        (.sync (tmpFilename snapshot.sequence)) := by
  simp only [writeSnapshot, List.take_succ_cons, List.take_zero, List.foldl_cons, List.foldl_nil]

private theorem foldl_renamed (crc : Checksum) (disk : SnapshotDir) (snapshot : Snapshot) :
    ((writeSnapshot crc snapshot).take 5).foldl Disk.perform disk =
      (((writeSnapshot crc snapshot).take 4).foldl Disk.perform disk).perform
        (.rename (tmpFilename snapshot.sequence) (snapshotFilename snapshot.sequence)) := by
  simp only [writeSnapshot, List.take_succ_cons, List.take_zero, List.foldl_cons, List.foldl_nil]

private theorem foldl_written (crc : Checksum) (disk : SnapshotDir) (snapshot : Snapshot) :
    (writeSnapshot crc snapshot).foldl Disk.perform disk =
      (((writeSnapshot crc snapshot).take 5).foldl Disk.perform disk).perform .syncDirectory := by
  simp only [writeSnapshot, List.take_succ_cons, List.take_zero, List.foldl_cons, List.foldl_nil]

/-- A save sets the register by the renaming and settles it by syncing the directory. -/
theorem Backs.written (holds : Backs crc disk register) (fits : snapshot.sequence < 2 ^ 64) :
    (∀ operations < 5, Backs crc
      (((writeSnapshot crc snapshot).take operations).foldl Disk.perform disk) register) ∧
    Backs crc (((writeSnapshot crc snapshot).take 5).foldl Disk.perform disk)
      { register with unsettled := register.unsettled ++ [snapshot] } ∧
    Backs crc ((writeSnapshot crc snapshot).foldl Disk.perform disk)
      ⟨newer register.shown snapshot, []⟩ := by
  have draft := parseSnapshotFilename_tmpFilename snapshot.sequence
  have created := holds.create draft
  have appended := created.append draft snapshot.data
  have drafted := holds.drafted snapshot
  obtain ⟨synced, file, named, whole, durable⟩ := drafted.sync draft
  have moved := synced.move named draft durable fits whole
  have renamed : Backs crc (((writeSnapshot crc snapshot).take 5).foldl Disk.perform disk)
      { register with unsettled := register.unsettled ++ [snapshot] } := by
    rw [foldl_renamed, foldl_synced, Disk.perform_rename named]
    exact moved
  refine ⟨?_, renamed, ?_⟩
  · intro operations early
    interval_cases operations
    · exact holds
    · exact created.holds
    · exact appended.holds
    · exact drafted.holds
    · rw [foldl_synced]
      exact synced
  · have settled := renamed.settle
    rw [Register.shown, List.foldl_concat] at settled
    rw [foldl_written]
    exact settled

/-- A save that stops after some of its operations. -/
theorem Backs.stopSave (holds : Backs crc disk register) (fits : snapshot.sequence < 2 ^ 64)
    (operations : Nat) :
    ∃ next, Register.Next register (.stopped snapshot) next ∧
      Backs crc (((saveSnapshot crc disk snapshot).take operations).foldl Disk.perform disk)
        next := by
  obtain ⟨early, renamed, written⟩ := holds.written fits
  have length : (writeSnapshot crc snapshot).length = 6 := rfl
  rw [saveSnapshot, List.take_append, length, List.foldl_append]
  by_cases unnamed : operations < 5
  · refine ⟨register, .dropped register snapshot, ?_⟩
    rw [Nat.sub_eq_zero_of_le (by omega), List.take_zero]
    exact early operations unnamed
  · by_cases unsynced : operations = 5
    · subst unsynced
      exact ⟨_, .set register snapshot, renamed⟩
    · refine ⟨_, .settled register snapshot, ?_⟩
      rw [List.take_of_length_le (by omega)]
      exact written.removals (operations - 6)

theorem Backs.save (holds : Backs crc disk register) (fits : snapshot.sequence < 2 ^ 64) :
    Backs crc ((saveSnapshot crc disk snapshot).foldl Disk.perform disk)
      ⟨newer register.shown snapshot, []⟩ := by
  have written := (holds.written fits).2.2
  have removed := written.removals (saveSnapshot crc disk snapshot).length
  rw [List.take_of_length_le] at removed
  · rw [saveSnapshot, List.foldl_append]
    exact removed
  · rw [saveSnapshot, List.length_append]
    exact Nat.le_add_left _ _

end Saves

/-! ## What a save leaves in the directory -/

section Retention

variable {crc : Checksum} {disk : SnapshotDir} {register : Register} {snapshot : Snapshot}
variable {name tested : String}

private theorem mem_names {disk : SnapshotDir} {name : String} :
    name ∈ SnapshotDir.names disk ↔ ∃ file, (name, file) ∈ disk.visible := by
  simp [SnapshotDir.names]

private theorem names_syncDirectory (disk : SnapshotDir) :
    SnapshotDir.names (disk.perform .syncDirectory) = SnapshotDir.names disk := rfl

private theorem mem_names_create (other : tested ≠ name) :
    tested ∈ SnapshotDir.names (disk.perform (.create name)) ↔
      tested ∈ SnapshotDir.names disk := by
  rw [Disk.perform]
  split
  · exact Iff.rfl
  · rw [mem_names, mem_names, Disk.visible_link]
    simp [other]

private theorem names_append (bytes : Bytes) :
    SnapshotDir.names (disk.perform (.append name bytes)) = SnapshotDir.names disk := by
  rw [Disk.perform]
  split <;> rfl

private theorem names_sync :
    SnapshotDir.names (disk.perform (.sync name)) = SnapshotDir.names disk := by
  rw [Disk.perform]
  split <;> rfl

private theorem mem_names_rename {file : Nat} (other : tested ≠ name)
    (named : disk.fileAt name = some file) (target : String) :
    tested ∈ SnapshotDir.names (disk.perform (.rename name target)) ↔
      tested ∈ SnapshotDir.names disk ∨ tested = target := by
  rw [Disk.perform_rename named, mem_names, mem_names, Disk.visible_push]
  by_cases same : tested = target
  · simp [DirOp.apply, same]
  · simp [DirOp.apply, same, other]

private theorem mem_names_remove :
    tested ∈ SnapshotDir.names (disk.perform (.remove name)) ↔
      tested ∈ SnapshotDir.names disk ∧ tested ≠ name := by
  rw [Disk.perform]
  split
  · rw [mem_names, mem_names, Disk.visible_push]
    simp [DirOp.apply]
  · rename_i missing
    refine ⟨fun member => ⟨member, ?_⟩, fun kept => kept.1⟩
    rintro rfl
    obtain ⟨file, seen⟩ := mem_names.1 member
    exact missing (List.lookup_isSome_iff.2 ⟨_, seen, BEq.refl _⟩)

private theorem mem_names_removals (removed : List String) :
    tested ∈ SnapshotDir.names
        ((removed.map FileOp.remove).foldl Disk.perform disk) ↔
      tested ∈ SnapshotDir.names disk ∧ tested ∉ removed := by
  induction removed generalizing disk with
  | nil => simp
  | cons name rest inductionHypothesis =>
      rw [List.map_cons, List.foldl_cons, inductionHypothesis, mem_names_remove, List.mem_cons,
        not_or, and_assoc]

/-- Writing a snapshot adds its name to those of the snapshots. -/
theorem Backs.mem_written (holds : Backs crc disk register) (isPublished : Published tested) :
    tested ∈ SnapshotDir.names ((writeSnapshot crc snapshot).foldl Disk.perform disk) ↔
      tested ∈ SnapshotDir.names disk ∨ tested = snapshotFilename snapshot.sequence := by
  have draft := parseSnapshotFilename_tmpFilename snapshot.sequence
  have other : tested ≠ tmpFilename snapshot.sequence := by
    rintro rfl
    exact not_published draft isPublished
  obtain ⟨_, file, named, _, _⟩ := (holds.drafted snapshot).sync draft
  rw [foldl_written, names_syncDirectory, foldl_renamed, foldl_synced, mem_names_rename other named,
    names_sync]
  simp only [writeSnapshot, List.take_succ_cons, List.take_zero, List.foldl_cons, List.foldl_nil,
    names_append, mem_names_create other]

/-- The snapshots of the directory are listed with rising sequences. -/
theorem Backs.rising (holds : Backs crc disk register) :
    (listSnapshots (SnapshotDir.names disk)).Pairwise fun left right => left.1 < right.1 := by
  have sorted := listSnapshots_sorted (SnapshotDir.names disk)
  have nodup := listSnapshots_nodup holds.tidy.visible.names
  refine (sorted.and nodup).imp_of_mem ?_
  rintro left right leftMember rightMember ⟨order, different⟩
  refine lt_of_le_of_ne order fun same => different ?_
  obtain ⟨leftInside, leftParsed⟩ := mem_listSnapshots.1 leftMember
  obtain ⟨rightInside, rightParsed⟩ := mem_listSnapshots.1 rightMember
  obtain ⟨leftFile, leftSeen⟩ := mem_names.1 leftInside
  obtain ⟨rightFile, rightSeen⟩ := mem_names.1 rightInside
  have leftName : left.2 = snapshotFilename left.1 :=
    holds.shown.canonical _ leftSeen _ leftParsed
  have rightName : right.2 = snapshotFilename right.1 :=
    holds.shown.canonical _ rightSeen _ rightParsed
  exact Prod.ext same (by rw [leftName, rightName, same])

private theorem mem_drop_of_nodup {α : Type} {listed : List α} (nodup : listed.Nodup) (count : Nat)
    (snapshot : α) :
    snapshot ∈ listed.drop count ↔ snapshot ∈ listed ∧ snapshot ∉ listed.take count := by
  have whole := List.take_append_drop count listed
  rw [← whole] at nodup
  constructor
  · intro late
    refine ⟨List.mem_of_mem_drop late, fun early => ?_⟩
    exact (List.nodup_append.1 nodup).2.2 snapshot early snapshot late rfl
  · rintro ⟨member, notEarly⟩
    rw [← whole, List.mem_append] at member
    exact member.resolve_left notEarly

/-- A save leaves the latest of the snapshots that were there and the saved one. -/
theorem Backs.retained (holds : Backs crc disk register) (fits : snapshot.sequence < 2 ^ 64) :
    ∃ all : List (Nat × String), (all.Pairwise fun left right => left.1 < right.1) ∧
      (∀ listed, listed ∈ all ↔ listed ∈ listSnapshots (SnapshotDir.names disk) ∨
        listed = (snapshot.sequence, snapshotFilename snapshot.sequence)) ∧
      listSnapshots (SnapshotDir.names
        ((saveSnapshot crc disk snapshot).foldl Disk.perform disk)) =
          all.drop (all.length - maxSnapshotsKept) := by
  have written := (holds.written fits).2.2
  have saved := holds.save fits
  have parsed := parseSnapshotFilename_of_fits fits
  refine ⟨_, written.rising, ?_, ?_⟩
  · rintro ⟨sequence, name⟩
    rw [mem_listSnapshots, mem_listSnapshots]
    constructor
    · rintro ⟨inside, found⟩
      rcases (holds.mem_written (by rw [Published, found]; rfl)).1 inside with old | rfl
      · exact .inl ⟨old, found⟩
      · rw [parsed] at found
        exact .inr (by rw [Option.some.inj found])
    · rintro (⟨inside, found⟩ | same)
      · exact ⟨(holds.mem_written (by rw [Published, found]; rfl)).2 (.inl inside), found⟩
      · obtain ⟨rfl, rfl⟩ := Prod.mk.inj same
        exact ⟨(holds.mem_written (by rw [Published, parsed]; rfl)).2 (.inr rfl), parsed⟩
  · have nodup := listSnapshots_nodup written.tidy.visible.names
    have rising := saved.rising
    have removals : cleanupOldSnapshots
        (SnapshotDir.names ((writeSnapshot crc snapshot).foldl Disk.perform disk)) =
          (((listSnapshots (SnapshotDir.names ((writeSnapshot crc snapshot).foldl Disk.perform
            disk))).take _).map Prod.snd).map FileOp.remove := (List.map_map ..).symm
    rw [saveSnapshot, List.foldl_append, removals] at rising ⊢
    generalize (writeSnapshot crc snapshot).foldl Disk.perform disk = renamed at *
    have renamedRising := written.rising
    refine List.Perm.eq_of_pairwise ?_ rising (renamedRising.sublist (List.drop_sublist _ _))
      ((List.perm_ext_iff_of_nodup ?_ (nodup.sublist (List.drop_sublist _ _))).2 ?_)
    · intro left right _ _ before after
      omega
    · exact rising.imp fun order same => order.ne (congrArg Prod.fst same)
    · intro listed
      rw [mem_drop_of_nodup nodup, mem_listSnapshots, mem_names_removals, mem_listSnapshots,
        and_right_comm]
      refine and_congr_right fun known => not_congr ⟨?_, fun early => List.mem_map_of_mem early⟩
      intro removed
      obtain ⟨other, early, same⟩ := List.mem_map.1 removed
      obtain ⟨_, found⟩ := mem_listSnapshots.1 (List.mem_of_mem_take early)
      rw [same, known.2] at found
      have equal : other = listed := Prod.ext (Option.some.inj found).symm same
      rwa [← equal]

end Retention

/-! ## Every run -/

private theorem SnapshotDir.Blank.backs {disk : SnapshotDir} (blank : disk.Blank) (crc : Checksum) :
    Backs crc disk ⟨none, []⟩ := by
  have unpublished : ∀ entry ∈ disk.stable, ¬ Published entry.1 :=
    fun entry member => not_published (blank.absent entry member)
  refine ⟨.of_rested blank.rested blank.distinct blank.known fun entry member isPublished =>
    absurd isPublished (unpublished entry member), ?_, ?_⟩
  · intro ops sublist
    rw [blank.rested] at sublist
    rw [List.sublist_nil.1 sublist]
    refine ⟨?_, .empty blank.absent⟩
    intro entry member sequence parsed
    rw [blank.absent entry member] at parsed
    cases parsed
  · rw [blank.rested]
    rfl

theorem Backs.step {crc : Checksum} {disk : SnapshotDir} {register : Register}
    (holds : Backs crc disk register) {input : StoreInput} (fits : input.Fits) :
    ∃ next, Trace Register.Next register (disk.step crc input).2 next ∧
      Backs crc (disk.step crc input).1 next := by
  cases input with
  | save snapshot =>
      rw [StoreInput.Fits] at fits
      have saved := holds.save fits
      simp only [SnapshotDir.step]
      exact ⟨_, .single (.saved register snapshot), saved⟩
  | stopSave snapshot operations =>
      rw [StoreInput.Fits] at fits
      obtain ⟨next, now, kept⟩ := holds.stopSave fits operations
      simp only [SnapshotDir.step]
      exact ⟨next, .single now, kept⟩
  | powerLoss loss =>
      obtain ⟨kept, sublist, left⟩ := holds.powerLoss loss
      exact ⟨_, .single (.lostPower sublist), left⟩
  | load =>
      refine ⟨register, ?_, holds⟩
      rw [SnapshotDir.step, holds.load]
      exact .single (.loaded register)

private theorem SnapshotDir.Blank.run_backs {disk : SnapshotDir} (blank : disk.Blank)
    (crc : Checksum) {inputs : List StoreInput} (fits : ∀ input ∈ inputs, input.Fits) :
    ∃ register, Trace Register.Next ⟨none, []⟩
      (run (SnapshotDir.step crc) disk inputs).2 register ∧
        Backs crc (run (SnapshotDir.step crc) disk inputs).1 register := by
  apply run_refines (fun _ disk register => Backs crc disk register)
  · exact blank.backs crc
  · intro before input state middle isPrefix holds
    have member := isPrefix.subset (List.mem_append_right before List.mem_cons_self)
    exact holds.step (fits input member)

/-- Whatever saves are stopped and whatever is lost with the power, the snapshots saved and
loaded are those of the register; in particular, no load fails. -/
theorem snapshots_survive (crc : Checksum) {disk : SnapshotDir} (blank : disk.Blank)
    (inputs : List StoreInput) (fits : ∀ input ∈ inputs, input.Fits) :
    ∃ register, Trace Register.Next ⟨none, []⟩
      (run (SnapshotDir.step crc) disk inputs).2 register := by
  obtain ⟨register, trace, _⟩ := blank.run_backs crc fits
  exact ⟨register, trace⟩

def emptySnapshotDir : SnapshotDir := ⟨[], [], fun _ => [], fun _ => true, 0⟩

private theorem emptySnapshotDir_blank : emptySnapshotDir.Blank :=
  ⟨rfl, ⟨List.nodup_nil, List.nodup_nil⟩, List.forall_mem_nil _, List.forall_mem_nil _⟩

/-- The second save is stopped after its renaming, which the power loss then undoes. -/
def undoneSave : List StoreInput :=
  [.save ⟨4, [1, 2]⟩, .stopSave ⟨9, [3]⟩ 5, .load, .powerLoss ⟨fun _ => false, fun _ => []⟩, .load]

theorem snapshots_survive_undone :
    ∃ register, Trace Register.Next ⟨none, []⟩
      (run (SnapshotDir.step crc32) emptySnapshotDir undoneSave).2 register :=
  snapshots_survive crc32 emptySnapshotDir_blank undoneSave
    (by simp [undoneSave, StoreInput.Fits])

/-- After any run, a changed byte in any file leaves the load as it was or makes it fail with the
sequence of the newest snapshot. -/
theorem changed_byte_noticed (crc : Checksum) (detects : DetectsByteChange crc)
    {disk : SnapshotDir} (blank : disk.Blank) (inputs : List StoreInput)
    (fits : ∀ input ∈ inputs, input.Fits) (file : Nat) (before after : Bytes) (old new : UInt8)
    (differ : old ≠ new)
    (content : (run (SnapshotDir.step crc) disk inputs).1.bytes file = before ++ old :: after)
    (durable : Bool) :
    let final := (run (SnapshotDir.step crc) disk inputs).1
    let changed := final.store file (before ++ new :: after) durable
    loadLatestSnapshot crc changed = loadLatestSnapshot crc final ∨
      ∃ snapshot reason, loadLatestSnapshot crc final = .ok (some snapshot) ∧
        loadLatestSnapshot crc changed = .error (.corrupt snapshot.sequence reason) := by
  intro final changed
  obtain ⟨register, _, holds⟩ := blank.run_backs crc fits
  have loaded : loadLatestSnapshot crc final = .ok register.shown := holds.load
  rcases loadLatestSnapshot_changed detects holds.tidy.visible holds.shown differ content durable
    with same | ⟨snapshot, reason, newest, refused⟩
  · exact .inl (same.trans loaded.symm)
  · exact .inr ⟨snapshot, reason, by rw [loaded, newest], refused⟩

/-- After any run, a save leaves exactly the latest three (or fewer) of the snapshots that were in
the directory and the saved one. -/
theorem save_retains_latest (crc : Checksum) {disk : SnapshotDir} (blank : disk.Blank)
    (inputs : List StoreInput) (snapshot : Snapshot)
    (fits : ∀ input ∈ inputs ++ [.save snapshot], input.Fits) :
    let before := (run (SnapshotDir.step crc) disk inputs).1
    let after := (run (SnapshotDir.step crc) disk (inputs ++ [.save snapshot])).1
    ∃ all : List (Nat × String), (all.Pairwise fun left right => left.1 < right.1) ∧
      (∀ listed, listed ∈ all ↔ listed ∈ listSnapshots (SnapshotDir.names before) ∨
        listed = (snapshot.sequence, snapshotFilename snapshot.sequence)) ∧
      listSnapshots (SnapshotDir.names after) = all.drop (all.length - maxSnapshotsKept) := by
  intro before after
  obtain ⟨early, last⟩ := List.forall_mem_append.1 fits
  obtain ⟨register, _, holds⟩ := blank.run_backs crc early
  have bound := last _ List.mem_cons_self
  rw [StoreInput.Fits] at bound
  have final : after = (saveSnapshot crc before snapshot).foldl Disk.perform before := by
    simp only [after, run_concat, SnapshotDir.step, before]
  rw [final]
  exact holds.retained bound

theorem save_retains_latest_undone :
    let before := (run (SnapshotDir.step crc32) emptySnapshotDir undoneSave).1
    let after := (run (SnapshotDir.step crc32) emptySnapshotDir
      (undoneSave ++ [.save ⟨5, [6]⟩])).1
    ∃ all : List (Nat × String), (all.Pairwise fun left right => left.1 < right.1) ∧
      (∀ listed, listed ∈ all ↔ listed ∈ listSnapshots (SnapshotDir.names before) ∨
        listed = (5, snapshotFilename 5)) ∧
      listSnapshots (SnapshotDir.names after) = all.drop (all.length - maxSnapshotsKept) :=
  save_retains_latest crc32 emptySnapshotDir_blank undoneSave ⟨5, [6]⟩
    (by simp [undoneSave, StoreInput.Fits])

def savedOnce : List StoreInput := [.save ⟨4, [1, 2]⟩]

theorem changed_byte_noticed_once :
    let final := (run (SnapshotDir.step crc32) emptySnapshotDir savedOnce).1
    ∃ file after, final.bytes file = 1 :: after ∧
      (loadLatestSnapshot crc32 (final.store file (7 :: after) true) =
          loadLatestSnapshot crc32 final ∨
        ∃ snapshot reason, loadLatestSnapshot crc32 final = .ok (some snapshot) ∧
          loadLatestSnapshot crc32 (final.store file (7 :: after) true) =
            .error (.corrupt snapshot.sequence reason)) := by
  have fits : ∀ input ∈ savedOnce, input.Fits := by simp [savedOnce, StoreInput.Fits]
  obtain ⟨register, trace, holds⟩ := emptySnapshotDir_blank.run_backs crc32 fits
  have log : (run (SnapshotDir.step crc32) emptySnapshotDir savedOnce).2 =
      [.saved ⟨4, [1, 2]⟩] := rfl
  have newest : register.shown = some ⟨4, [1, 2]⟩ := by
    rw [log] at trace
    cases trace with
    | cons now later =>
        cases now
        cases later
        rfl
  have shown := holds.shown.newest
  rw [newest] at shown
  cases shown with
  | @file _ file _ _ whole _ =>
      exact ⟨file, _, whole, changed_byte_noticed crc32 crc32_detects emptySnapshotDir_blank
        savedOnce fits file [] _ 1 7 (by decide) whole true⟩

end Exg.Wal
