import Exg.Clearing.Soundness
import Exg.Common.DecimalText
import Exg.Server.MatchingThread
import Exg.Wal.BoundedLoss

/-!
# The boot

`run_with_config` opens the log, replays it into a new engine and a new processor, checks the
ledger and the number of records replayed, and starts the matching thread.  The operators of the
replay and of the ledger's check may panic.
-/

namespace Exg

open Support PostTradeProcessor

def ApplyError.text : ApplyError → String
  | .unknownOrder orderId =>
      "event references unknown order_id=OrderId(" ++ toString orderId ++ ")"
  | .duplicateOrder orderId =>
      "OrderAccepted for order_id=OrderId(" ++ toString orderId ++ ") already present in book"
  | .overFill got remaining =>
      "OrderFilled fill_qty " ++ got.toText ++ " exceeds existing remaining " ++ remaining.toText
  | .unexpectedVariant variant => "event variant " ++ variant ++ " unexpected during replay"

/-- What the replay restores, unless the processor panics. -/
structure Booting where
  loop : CommandLoop
  panic : Option (Failure ClearingPanic)

/-- Apply a record to both consumers.  Nothing is applied after a panic. -/
def Booting.applyEvent (booting : Booting) (event : Event) : Except String Booting :=
  match booting.panic with
  | some _ => .ok booting
  | none =>
      match booting.loop.engine.applyEvent? event with
      | none => .ok { booting with panic := some .overflow }
      | some (.error error) => .error error.text
      | some (.ok engine) =>
          match booting.loop.postTrade.applyEvent? event with
          | none => .ok { booting with panic := some .overflow }
          | some (.error panic) => .ok { booting with panic := some (.failed panic) }
          | some (.ok postTrade) => .ok ⟨⟨engine, postTrade⟩, none⟩

inductive BootError where
  /-- failed to open WAL writer -/
  | openWal (error : Wal.WalError)
  | panicked (panic : Failure ClearingPanic)
  | readWal (error : Wal.WalError)
  | replay (error : Wal.ReplayError)
  /-- ledger invariants violated after replay -/
  | ledger (error : LedgerError)
  /-- invariant 21 violated -/
  | replayedCount (replayedCount currentSequence : Nat)
  deriving DecidableEq, Repr

namespace Server

section Boot

variable (setup : ServerSetup) (config : SymbolConfig) (ids : Nat → TradeId)
variable (interestRate markPrice : Decimal128) (walConfig : Wal.WalConfig) (memory : Memory)

/-- What follows the replay: the checks and the start of the matching thread. -/
def launchChecked (memory : Memory) (loop : CommandLoop) (replayedCount : Nat)
    (directory : Wal.Directory) (writer : Wal.WalWriter) : Except BootError Server :=
  match loop.postTrade.ledger.verifyAllInvariants? with
  | none => .error (.panicked .overflow)
  | some (.error error) => .error (.ledger error)
  | some (.ok ()) =>
      if replayedCount ≠ writer.nextSequence then
        .error (.replayedCount replayedCount writer.nextSequence)
      else .ok (launch memory loop ⟨directory, some writer⟩)

/-- Boot on the files of a log. -/
def boot (directory : Wal.Directory) : Except BootError Server :=
  match Wal.WalWriter.open setup.crc walConfig directory with
  | .error error => .error (.openWal error)
  | .ok (opened, writer) =>
      let fresh : Booting := ⟨CommandLoop.boot config ids interestRate markPrice, none⟩
      let (progress, read) := Wal.readFrom setup.crc
        (Wal.BootReplay.record setup.events.fromBytes Booting.applyEvent) 0 opened (.initial fresh)
      let replay := progress.state
      match replay.restored.panic, read, replay.replayErr with
      | some panic, _, _ => .error (.panicked panic)
      | none, .error error, _ => .error (.readWal error)
      | none, .ok _, some error => .error (.replay error)
      | none, .ok _, none =>
          launchChecked memory replay.restored.loop replay.replayedCount opened writer

variable {setup config ids interestRate markPrice walConfig memory}

/-- Whatever it has restored, a server that has booted is about to serve its first request. -/
theorem boot_launches {directory : Wal.Directory} {start : Server}
    (booted : boot setup config ids interestRate markPrice walConfig memory directory = .ok start) :
    ∃ loop wal, start = launch memory loop wal := by
  rw [boot] at booted
  split at booted
  · cases booted
  · dsimp only at booted
    split at booted
    · cases booted
    · cases booted
    · cases booted
    · rw [launchChecked] at booted
      split at booted
      · cases booted
      · cases booted
      · split at booted
        · cases booted
        · cases booted
          exact ⟨_, _, rfl⟩

end Boot
end Server

/-! ## Replaying a whole log -/

/-- The replay at boot applies every record that can be decoded and applied. -/
theorem Wal.deliver_replays {σ ε : Type} (codec : Codec ε) {applyEvent : σ → ε → Except String σ}
    {records : List ε} {final : σ} (boot : BootReplay σ) (read : Nat)
    (clean : boot.replayErr = none)
    (replays : follow applyEvent boot.restored records = .ok final) :
    deliver (BootReplay.record codec.fromBytes applyEvent) ⟨boot, read⟩
        (numbered boot.expectedSeq (records.map codec.toBytes)) =
      (⟨{ restored := final
          expectedSeq := boot.expectedSeq + records.length
          replayedCount := boot.replayedCount + records.length
          replayErr := none }, read + records.length⟩, true) := by
  induction records generalizing boot read with
  | nil =>
      cases replays
      rw [← clean]
      rfl
  | cons record rest inductionHypothesis =>
      obtain ⟨next, applied, later⟩ := follow_cons_ok replays
      rw [List.map_cons, numbered, deliver]
      simp only [BootReplay.record, ne_eq, not_true_eq_false, if_false, codec.fromBytes_toBytes,
        applied, if_true]
      have remaining := inductionHypothesis
        { boot with
          restored := next
          expectedSeq := boot.expectedSeq + 1
          replayedCount := boot.replayedCount + 1 } (read + 1) clean later
      rw [remaining, List.length_cons]
      simp only [Nat.add_assoc, Nat.add_comm 1]

/-- Nothing is applied after a panic. -/
theorem follow_panicked {booting : Booting} (panics : booting.panic.isSome)
    (records : List Event) : follow Booting.applyEvent booting records = .ok booting := by
  obtain ⟨panic, found⟩ := Option.isSome_iff_exists.1 panics
  induction records with
  | nil => rfl
  | cons record rest inductionHypothesis =>
      have applied : booting.applyEvent record = .ok booting := by
        simp only [Booting.applyEvent, found]
      rw [follow_cons_of_ok applied]
      exact inductionHypothesis

/-- Both consumers go through the log on their own, unless an operator overflows. -/
theorem follow_booting {loop : CommandLoop} {records : List Event} {engine : MatchingEngine}
    {postTrade : PostTradeProcessor}
    (engineReplays : follow MatchingEngine.applyEvent loop.engine records = .ok engine)
    (postTradeReplays : follow applyEvent loop.postTrade records = .ok postTrade) :
    ∃ final, follow Booting.applyEvent ⟨loop, none⟩ records = .ok final ∧
      (final.panic = some .overflow ∨ final = ⟨⟨engine, postTrade⟩, none⟩) := by
  induction records generalizing loop with
  | nil =>
      cases engineReplays
      cases postTradeReplays
      exact ⟨_, rfl, Or.inr rfl⟩
  | cons record rest inductionHypothesis =>
      obtain ⟨nextEngine, engineApplied, engineLater⟩ := follow_cons_ok engineReplays
      obtain ⟨nextPostTrade, postTradeApplied, postTradeLater⟩ := follow_cons_ok postTradeReplays
      have overflows (applied : Booting.applyEvent ⟨loop, none⟩ record =
          .ok ⟨loop, some .overflow⟩) :
          ∃ final, follow Booting.applyEvent ⟨loop, none⟩ (record :: rest) = .ok final ∧
            (final.panic = some .overflow ∨ final = ⟨⟨engine, postTrade⟩, none⟩) := by
        rw [follow_cons_of_ok applied]
        exact ⟨_, follow_panicked rfl rest, Or.inl rfl⟩
      cases stepped : loop.engine.applyEvent? record with
      | none => exact overflows (by simp only [Booting.applyEvent, stepped])
      | some result =>
          cases (MatchingEngine.agrees_applyEvent _ _ _ stepped).trans engineApplied
          cases cleared : loop.postTrade.applyEvent? record with
          | none => exact overflows (by simp only [Booting.applyEvent, stepped, cleared])
          | some result =>
              cases (agrees_applyEvent _ _ cleared).trans postTradeApplied
              have applied : Booting.applyEvent ⟨loop, none⟩ record =
                  .ok ⟨⟨nextEngine, nextPostTrade⟩, none⟩ := by
                simp only [Booting.applyEvent, stepped, cleared]
              rw [follow_cons_of_ok applied]
              exact inductionHypothesis engineLater postTradeLater

namespace PostTradeProcessor

variable {processor : PostTradeProcessor}

/-- No record stops the processor's replay, and none makes the ledger unsound. -/
theorem applyEvent_answers (solid : processor.Solid) (event : Event) :
    ∃ next, processor.applyEvent event = .ok next ∧ next.Solid := by
  cases event with
  | orderFilled filled =>
      obtain ⟨pnl, positions, applied, directed, -⟩ := PositionManager.applyFill_spec
        solid.directed filled.userId filled.symbol filled.side filled.fillQty filled.fillPrice
      refine ⟨{ processor with positions }, ?_, solid.ledger, directed⟩
      simp only [applyEvent, applyFillToPosition, applied]
  | adminCredited userId amount key timestamp =>
      have opened := solid.ledger.getOrCreateAccount userId
      simp only [applyEvent]
      split
      · exact ⟨_, rfl, opened, solid.directed⟩
      · rename_i credited outcome
        exact ⟨_, rfl, sound_recredited opened outcome, solid.directed⟩
  | realizedPnl userId symbol amount timestamp =>
      exact ⟨_, rfl, sound_resettled solid.ledger userId _ _ _, solid.directed⟩
  | fundingSettled userId symbol period amount timestamp =>
      exact ⟨_, rfl, sound_resettled solid.ledger userId _ _ _, solid.directed⟩
  | markPriceUpdate symbol markPrice indexPrice timestamp =>
      exact ⟨_, rfl, solid.ledger, solid.directed⟩
  | _ => exact ⟨processor, rfl, solid⟩

private theorem follow_answers (solid : processor.Solid) (records : List Event) :
    ∃ final, follow applyEvent processor records = .ok final ∧ final.Solid := by
  induction records generalizing processor with
  | nil => exact ⟨processor, rfl, solid⟩
  | cons record rest inductionHypothesis =>
      obtain ⟨next, applied, solidNext⟩ := applyEvent_answers solid record
      obtain ⟨final, followed, solidFinal⟩ := inductionHypothesis solidNext
      exact ⟨final, (follow_cons_of_ok applied).trans followed, solidFinal⟩

end PostTradeProcessor

/-! ## Booting on a stored log -/

namespace Server

variable {setup : ServerSetup} {config : SymbolConfig} {ids : Nat → TradeId}
variable {interestRate markPrice : Decimal128} {directory : Wal.Directory}

/-- A boot replays the records on disk, and goes on unless the replay has panicked. -/
theorem boot_replays (records : List Event) {restored : Booting}
    (stored : Wal.Stored setup.crc directory (records.map setup.events.toBytes))
    (few : records.length < 2 ^ 64)
    (replays : follow Booting.applyEvent
      ⟨CommandLoop.boot config ids interestRate markPrice, none⟩ records = .ok restored)
    (walConfig : Wal.WalConfig) (memory : Memory) :
    ∃ opened writer, writer.nextSequence = records.length ∧
      Wal.Related setup.crc ⟨opened, some writer⟩ ⟨records.map setup.events.toBytes, [], 0⟩ ∧
      Wal.CountsUnflushed ⟨opened, some writer⟩ ⟨records.map setup.events.toBytes, [], 0⟩ ∧
      boot setup config ids interestRate markPrice walConfig memory directory =
        restored.panic.elim (launchChecked memory restored.loop records.length opened writer)
          fun panic => .error (.panicked panic) := by
  have bound : (records.map setup.events.toBytes).length < 2 ^ 64 := by rwa [List.length_map]
  obtain ⟨opened, writer, full, kept, opens, live, payloads⟩ := stored.opens bound walConfig
  obtain ⟨distinct, tail, recoverable⟩ := stored.recoverable bound
  obtain ⟨count, reads⟩ := Wal.open_recoverable distinct recoverable opens
  have delivered := Wal.deliver_replays setup.events
    (.initial (⟨CommandLoop.boot config ids interestRate markPrice, none⟩ : Booting)) 0 rfl replays
  simp only [Wal.BootReplay.initial, Nat.zero_add] at delivered
  rw [List.length_map] at count
  refine ⟨opened, writer, count, ?_, ?_, ?_⟩
  · refine .live ⟨full, kept, [], live, ?_, ?_⟩
    · rw [Wal.DurableLog.payloads, List.append_nil, List.append_nil, payloads]
    · rw [← payloads, List.length_append, Nat.add_zero]
      exact Nat.le_refl _
  · rintro _ ⟨⟩
    rw [Wal.recordsSinceFlush_open opens]
    exact ⟨rfl, Nat.lt_of_lt_of_le Nat.one_pos (Nat.le_max_left _ _)⟩
  · rw [boot, opens]
    simp only [Wal.BootReplay.initial, reads, delivered]
    cases restored.panic <;> rfl

/-- Unless an operator overflows, a boot restores what the records on disk lead to, when the
engine can replay them. -/
theorem boot_stored (records : List Event) {engine : MatchingEngine}
    (stored : Wal.Stored setup.crc directory (records.map setup.events.toBytes))
    (few : records.length < 2 ^ 64)
    (replays : follow MatchingEngine.applyEvent
      (CommandLoop.boot config ids interestRate markPrice).engine records = .ok engine)
    (walConfig : Wal.WalConfig) (memory : Memory) :
    ∃ postTrade, follow applyEvent .new records = .ok postTrade ∧
      (boot setup config ids interestRate markPrice walConfig memory directory =
          .error (.panicked .overflow) ∨
        ∃ wal, boot setup config ids interestRate markPrice walConfig memory directory =
          .ok (launch memory ⟨engine, postTrade⟩ wal)) := by
  obtain ⟨postTrade, followed, solid⟩ := PostTradeProcessor.follow_answers solid_new records
  obtain ⟨restored, restores, ends⟩ := follow_booting replays followed
  obtain ⟨opened, writer, count, -, -, boots⟩ :=
    boot_replays records stored few restores walConfig memory
  refine ⟨postTrade, followed, ?_⟩
  rw [boots]
  obtain overflows | rfl := ends
  · rw [overflows]
    exact Or.inl rfl
  · rw [Option.elim_none, launchChecked]
    cases verified : postTrade.ledger.verifyAllInvariants? with
    | none => exact Or.inl rfl
    | some result =>
        rw [Ledger.agrees_verifyAllInvariants _ _ verified, solid.ledger.verifyAllInvariants]
        simp only [count, ne_eq, not_true_eq_false, if_false]
        exact Or.inr ⟨_, rfl⟩

/-- A boot without a log starts at the beginning. -/
theorem boot_empty (setup : ServerSetup) (config : SymbolConfig) (ids : Nat → TradeId)
    (interestRate markPrice : Decimal128) (walConfig : Wal.WalConfig) (memory : Memory) :
    ∃ wal, boot setup config ids interestRate markPrice walConfig memory [] =
        .ok (launch memory (.boot config ids interestRate markPrice) wal) ∧
      wal.session.isSome ∧ Wal.Related setup.crc wal .empty ∧
      Wal.CountsUnflushed wal .empty := by
  obtain ⟨opened, writer, count, related, counts, boots⟩ :=
    boot_replays [] .none (by decide) rfl walConfig memory
  have verified :
      (CommandLoop.boot config ids interestRate markPrice).postTrade.ledger.verifyAllInvariants? =
        some (.ok ()) := by
    rfl
  refine ⟨⟨opened, some writer⟩, ?_, rfl, related, counts⟩
  rw [boots, Option.elim_none, launchChecked, verified]
  simp only [count, List.length_nil, ne_eq, not_true_eq_false, if_false]

end Server
end Exg
