import Exg.Ledger.Outcomes
import Exg.Support.Machine

/-!
# Retries

A call that fails takes its key back, so that it can be retried, on every exit but one:
where an account is not found the key stays, and a retry is taken for a duplicate.  A key
that a call has used keeps every later call with it from moving money, but a settlement of
zero succeeds without using its key.
-/

namespace Exg

open Support

namespace Ledger

variable {ledger : Ledger} {call : LedgerCall} {key : String}

/-- The call has inserted its key when it finds an account missing. -/
def Orphaned (ledger : Ledger) (call : LedgerCall) : Prop :=
  ∃ key, Fresh ledger call key ∧ ledger.Missing call

/-- Neither a balance nor the journal has changed. -/
def SameMoney (before after : Ledger) : Prop :=
  (∀ slot, after.holding slot = before.holding slot) ∧ after.journal = before.journal

private theorem Unmoved.sameMoney {before after : Ledger} (unmoved : Unmoved before after) :
    SameMoney before after := ⟨unmoved.1, unmoved.2.1⟩

/-! ## Failures -/

/-- A failed call has changed nothing exactly when no account was missing after the key was
inserted. -/
theorem unmoved_iff_of_failed {error : LedgerError}
    (failed : (ledger.perform call).2 = .failed error) :
    Unmoved ledger (ledger.perform call).1 ↔ ¬ledger.Orphaned call := by
  have outcome := perform_outcome ledger call
  generalize ledger.perform call = next at outcome failed
  cases outcome with
  | refused invalid =>
      refine iff_of_true ⟨fun _ => rfl, rfl, rfl⟩ ?_
      rintro ⟨key, fresh, missing⟩
      exact Option.some_ne_none _ (invalid.symm.trans fresh.valid)
  | orphaned fresh missing =>
      refine iff_of_false (fun unmoved => ?_) (not_not.2 ⟨_, fresh, missing⟩)
      exact List.cons_ne_self _ _ unmoved.2.2
  | short known uncovered effect =>
      refine iff_of_true effect.unmoved ?_
      rintro ⟨key, fresh, missing⟩
      exact known missing
  | idle idle => cases failed
  | repeated keyed used => cases failed
  | opened same => cases failed
  | panicked same accepts overdraws effect => cases failed
  | performed accepts within effect => cases failed

/-! ## Used keys -/

/-- No call forgets a key that was used before it. -/
theorem mem_keys_perform (used : key ∈ ledger.idempotencyKeys) (call : LedgerCall) :
    key ∈ (ledger.perform call).1.idempotencyKeys := by
  have outcome := perform_outcome ledger call
  generalize ledger.perform call = next at outcome
  cases outcome with
  | refused invalid => exact used
  | idle idle => exact used
  | repeated keyed member => exact used
  | opened same => simpa using used
  | orphaned fresh missing => exact List.mem_cons_of_mem _ used
  | short known uncovered effect =>
      rw [effect.keys]
      exact used
  | panicked same accepts overdraws effect =>
      rw [effect.keys]
      exact List.mem_cons_of_mem _ used
  | performed accepts within effect =>
      rw [effect.keys]
      exact List.mem_cons_of_mem _ used

/-- A success uses its key, unless it settled nothing. -/
theorem mem_keys_of_done (done : (ledger.perform call).2 = .done) (keyed : call.key? = some key)
    (active : ¬call.Idle) : key ∈ (ledger.perform call).1.idempotencyKeys := by
  have outcome := perform_outcome ledger call
  generalize ledger.perform call = next at outcome done
  cases outcome with
  | idle idle => exact absurd idle active
  | repeated other used =>
      obtain rfl := Option.some.inj (other.symm.trans keyed)
      exact used
  | opened same =>
      subst same
      cases keyed
  | performed accepts within effect =>
      obtain rfl := Option.some.inj (accepts.keyed.symm.trans keyed)
      rw [effect.keys]
      exact List.mem_cons_self
  | refused invalid => cases done
  | orphaned fresh missing => cases done
  | short known uncovered effect => cases done
  | panicked same accepts overdraws effect => cases done

/-- A call with a used key moves no money. -/
theorem sameMoney_of_used (keyed : call.key? = some key) (used : key ∈ ledger.idempotencyKeys) :
    SameMoney ledger (ledger.perform call).1 := by
  have outcome := perform_outcome ledger call
  have unused : ∀ {other : String}, Fresh ledger call other → False := by
    intro other fresh
    obtain rfl := Option.some.inj (keyed.symm.trans fresh.keyed)
    exact fresh.unused used
  generalize ledger.perform call = next at outcome
  cases outcome with
  | refused invalid => exact ⟨fun _ => rfl, rfl⟩
  | idle idle => exact ⟨fun _ => rfl, rfl⟩
  | repeated other member => exact ⟨fun _ => rfl, rfl⟩
  | opened same =>
      subst same
      cases keyed
  | orphaned fresh missing => exact (unused fresh).elim
  | short known uncovered effect => exact effect.unmoved.sameMoney
  | panicked same accepts overdraws effect => exact (unused accepts.toFresh).elim
  | performed accepts within effect => exact (unused accepts.toFresh).elim

/-! ## Every run -/

/-- Every success in a run has used its key, unless it settled nothing. -/
theorem mem_keys_of_succeeded {calls : List LedgerCall} {earlier : LedgerCall}
    (succeeded : (earlier, .done) ∈ (run step ledger calls).2) (keyed : earlier.key? = some key)
    (active : ¬earlier.Idle) : key ∈ (run step ledger calls).1.idempotencyKeys := by
  refine run_induction
    (motive := fun _ (reached : Ledger) log =>
      (earlier, OperationResult.done) ∈ log → key ∈ reached.idempotencyKeys)
    step ledger calls (fun member => absurd member List.not_mem_nil) ?_ succeeded
  intro before call isPrefix inductionHypothesis member
  rcases List.mem_append.1 member with old | new
  · exact mem_keys_perform (inductionHypothesis old) call
  · obtain ⟨rfl, done⟩ := Prod.mk.inj (List.mem_singleton.1 new)
    exact mem_keys_of_done done.symm keyed active

/-- A withdrawal from an account that does not exist yet. -/
def earlyWithdrawal : LedgerCall := .withdraw 1 (.ofInt 10) "withdrawal" 1

/-- The early withdrawal fails and keeps its key: after a deposit the retry succeeds and pays
nothing out. -/
theorem earlyWithdrawal_lost :
    (new.perform earlyWithdrawal).2 = .failed (.accountNotFound 1) ∧
      ¬Unmoved new (new.perform earlyWithdrawal).1 ∧
      (run step new [earlyWithdrawal, .deposit 1 (.ofInt 100) "deposit" 2,
        earlyWithdrawal]).2.getLast?
        = some (earlyWithdrawal, .done) ∧
      (run step new [earlyWithdrawal, .deposit 1 (.ofInt 100) "deposit" 2,
        earlyWithdrawal]).1.holding (.user 1 .funding .available) = .ofInt 100 := by
  refine ⟨by decide +kernel, fun unmoved => ?_, by decide +kernel, by decide +kernel⟩
  exact absurd unmoved.2.2 (by decide +kernel)

/-- In every state a run reaches: a call that fails leaves everything as it was exactly when
no account was missing, and a call whose key has succeeded moves no money, if that success
was not a settlement of zero. -/
theorem exactly_once (calls : List LedgerCall) (call : LedgerCall) :
    (∀ error, ((run step new calls).1.perform call).2 = .failed error →
      (Unmoved (run step new calls).1 ((run step new calls).1.perform call).1 ↔
        ¬(run step new calls).1.Orphaned call)) ∧
      (∀ key earlier, call.key? = some key → earlier.key? = some key →
        (earlier, .done) ∈ (run step new calls).2 → ¬earlier.Idle →
          SameMoney (run step new calls).1 ((run step new calls).1.perform call).1) :=
  ⟨fun _ failed => unmoved_iff_of_failed failed, fun _ _ keyed sameKey succeeded active =>
    sameMoney_of_used keyed (mem_keys_of_succeeded succeeded sameKey active)⟩

end Ledger
end Exg
