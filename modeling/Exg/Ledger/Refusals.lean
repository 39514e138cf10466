import Exg.Ledger.ExactlyOnce

/-!
# Refused, repeated and spent

Whether a call fails, and whether it uses its key up, can be told from the ledger before
it.  A call fails when its arguments are invalid, or when its key is new and an account or
a balance is lacking.  It leaves a trace exactly when it uses its key up.
-/

namespace Exg
namespace Ledger

/-- The arguments, the accounts or the balances do not allow the call. -/
def Refuses (ledger : Ledger) (call : LedgerCall) : Prop :=
  call.invalid ≠ none ∨
    (¬call.Idle ∧ (∀ key, call.key? = some key → key ∉ ledger.idempotencyKeys) ∧
      (ledger.Missing call ∨ ¬ledger.Covered call))

/-- The call is taken for a duplicate. -/
def Repeats (ledger : Ledger) (call : LedgerCall) : Prop :=
  call.invalid = none ∧ ∃ key, call.key? = some key ∧ key ∈ ledger.idempotencyKeys

/-- The call uses its key up: it is carried out, or it finds an account missing. -/
def Spends (ledger : Ledger) (call : LedgerCall) : Prop :=
  ∃ key, Fresh ledger call key ∧ (ledger.Missing call ∨ ledger.Covered call)

variable {ledger : Ledger} {call : LedgerCall} {key : String}

/-! ## Before the accounts are looked at -/

private theorem once_invalid {invalid : Option String} {text : String}
    (refused : invalid = some text) (body : Ledger → Ledger × OperationResult) :
    ledger.once invalid key body = (ledger, .failed (.invalidQuantity text)) := by
  simp only [once, refused]

private theorem once_used {invalid : Option String} (valid : invalid = none)
    (used : key ∈ ledger.idempotencyKeys) (body : Ledger → Ledger × OperationResult) :
    ledger.once invalid key body = (ledger, .done) := by
  simp only [once, valid, used, if_true]

private theorem perform_invalid {text : String} (refused : call.invalid = some text) :
    ledger.perform call = (ledger, .failed (.invalidQuantity text)) := by
  cases call with
  | deposit userId amount idempotencyKey timestamp =>
      simp only [LedgerCall.invalid, requirePositive] at refused
      split at refused
      · cases refused
      · rename_i notPositive
        cases refused
        simp [perform, deposit, notPositive]
  | withdraw | transfer | freezeForOrder | unfreezeOrder | openPosition | closePosition
  | closePositionSettled | liquidate =>
      simp only [perform, withdraw, transfer, freezeForOrder, unfreezeOrder, openPosition,
        closePosition, closePositionSettled, liquidate]
      exact once_invalid refused _
  | settleFunding | settleFundingChecked | settleRealizedPnlCapped | getOrCreateAccount =>
      cases refused

private theorem settleFunding_used {userId : UserId} {payment : Decimal128} {timestamp : UnixMicros}
    (used : key ∈ ledger.idempotencyKeys) :
    ledger.settleFunding userId payment key timestamp = (ledger, .done) := by
  rw [settleFunding]
  split
  · rfl
  · exact once_used rfl used _

theorem perform_repeated (repeats : ledger.Repeats call) :
    ledger.perform call = (ledger, .done) := by
  obtain ⟨valid, key, keyed, used⟩ := repeats
  cases call with
  | deposit userId amount idempotencyKey timestamp =>
      obtain rfl := Option.some.inj keyed
      simp only [LedgerCall.invalid, requirePositive] at valid
      split at valid
      · rename_i positive
        simp [perform, deposit, positive, used]
      · cases valid
  | withdraw | transfer | freezeForOrder | unfreezeOrder | openPosition | closePosition
  | closePositionSettled | liquidate =>
      obtain rfl := Option.some.inj keyed
      simp only [perform, withdraw, transfer, freezeForOrder, unfreezeOrder, openPosition,
        closePosition, closePositionSettled, liquidate]
      exact once_used valid used _
  | settleFunding userId payment idempotencyKey timestamp =>
      obtain rfl := Option.some.inj keyed
      exact settleFunding_used used
  | settleFundingChecked userId symbol fundingPeriodId payment timestamp =>
      obtain rfl := Option.some.inj keyed
      simp only [perform, settleFundingChecked, settleFunding_used used]
  | settleRealizedPnlCapped userId signed idempotencyKey timestamp =>
      obtain rfl := Option.some.inj keyed
      by_cases zero : signed = 0
      · simp [perform, settleRealizedPnlCapped, zero]
      · simp [perform, settleRealizedPnlCapped, zero, used]
  | getOrCreateAccount userId => cases keyed

private theorem perform_idle (idle : call.Idle) : ledger.perform call = (ledger, .done) := by
  cases call with
  | settleFunding userId payment idempotencyKey timestamp =>
      have zero : payment = 0 := idle
      simp [perform, settleFunding, zero]
  | settleFundingChecked userId symbol fundingPeriodId payment timestamp =>
      have zero : payment = 0 := idle
      simp [perform, settleFundingChecked, settleFunding, zero]
  | settleRealizedPnlCapped userId signed idempotencyKey timestamp =>
      have zero : signed = 0 := idle
      simp [perform, settleRealizedPnlCapped, zero]
  | deposit | withdraw | transfer | freezeForOrder | unfreezeOrder | openPosition
  | closePosition | closePositionSettled | liquidate | getOrCreateAccount => exact idle.elim

/-- Only a liquidation can panic. -/
def LedgerCall.IsLiquidation : LedgerCall → Prop
  | .liquidate _ _ _ _ _ => True
  | _ => False

theorem isLiquidation_of_panicked {text : String}
    (panicked : (ledger.perform call).2 = .panicked text) : call.IsLiquidation := by
  have outcome := perform_outcome ledger call
  generalize ledger.perform call = next at outcome panicked
  cases outcome with
  | panicked same accepts overdraws effect =>
      subst same
      trivial
  | refused | idle | repeated | opened | orphaned | short | performed => cases panicked

/-- A call panics exactly when it gets past all its checks and overdraws escrow. -/
theorem panicked_iff :
    (∃ text, (ledger.perform call).2 = .panicked text) ↔
      ∃ key, Accepts ledger call key ∧ ledger.Overdraws call := by
  have outcome := perform_outcome ledger call
  generalize ledger.perform call = next at outcome
  constructor
  · rintro ⟨text, panicked⟩
    cases outcome with
    | panicked same accepts overdraws effect => exact ⟨_, accepts, overdraws⟩
    | refused | idle | repeated | opened | orphaned | short | performed => cases panicked
  · rintro ⟨key, accepts, overdraws⟩
    cases outcome with
    | panicked same own overdraws effect => exact ⟨_, rfl⟩
    | refused invalid => simp [accepts.valid] at invalid
    | idle idle => exact absurd idle accepts.active
    | repeated keyed used =>
        obtain rfl := Option.some.inj (keyed.symm.trans accepts.keyed)
        exact absurd used accepts.unused
    | opened same =>
        subst same
        cases overdraws
    | orphaned fresh missing => exact absurd missing accepts.known
    | short known uncovered effect => exact absurd accepts.covered uncovered
    | performed own within effect => exact absurd overdraws within

/-! ## Failures -/

theorem Refuses.not_repeats (refuses : ledger.Refuses call) : ¬ledger.Repeats call := by
  rintro ⟨valid, key, keyed, used⟩
  rcases refuses with invalid | ⟨-, unused, -⟩
  · exact invalid valid
  · exact unused key keyed used

/-- A call fails exactly when it is refused. -/
theorem failed_iff_refuses :
    (∃ error, (ledger.perform call).2 = .failed error) ↔ ledger.Refuses call := by
  by_cases invalid : call.invalid = none
  · by_cases idle : call.Idle
    · rw [perform_idle idle]
      apply iff_of_false
      · rintro ⟨error, failed⟩
        cases failed
      · rintro (other | ⟨active, -⟩)
        · exact other invalid
        · exact active idle
    · by_cases repeats : ledger.Repeats call
      · rw [perform_repeated repeats]
        apply iff_of_false
        · rintro ⟨error, failed⟩
          cases failed
        · exact fun refuses => refuses.not_repeats repeats
      · have unused : ∀ key, call.key? = some key → key ∉ ledger.idempotencyKeys :=
          fun key keyed used => repeats ⟨invalid, key, keyed, used⟩
        have outcome := perform_outcome ledger call
        generalize ledger.perform call = next at outcome
        cases outcome with
        | refused other => exact absurd (invalid.symm.trans other) (Option.some_ne_none _).symm
        | idle other => exact absurd other idle
        | repeated keyed used => exact absurd used (unused _ keyed)
        | opened same =>
            subst same
            simp [Refuses, invalid, Missing, Covered]
        | orphaned fresh missing =>
            exact iff_of_true ⟨_, rfl⟩ (Or.inr ⟨idle, unused, Or.inl missing⟩)
        | short known uncovered effect =>
            exact iff_of_true ⟨_, rfl⟩ (Or.inr ⟨idle, unused, Or.inr uncovered⟩)
        | panicked same accepts overdraws effect =>
            simp [Refuses, invalid, accepts.known, accepts.covered]
        | performed accepts within effect =>
            simp [Refuses, invalid, accepts.known, accepts.covered]
  · obtain ⟨text, refused⟩ := Option.ne_none_iff_exists'.1 invalid
    rw [perform_invalid refused]
    exact iff_of_true ⟨_, rfl⟩ (Or.inl invalid)

/-! ## Traces -/

theorem Spends.not_repeats (spends : ledger.Spends call) : ¬ledger.Repeats call := by
  rintro ⟨-, other, keyed, used⟩
  obtain ⟨key, fresh, -⟩ := spends
  obtain rfl := Option.some.inj (fresh.keyed.symm.trans keyed)
  exact fresh.unused used

/-- A call leaves a trace exactly when it uses its key up. -/
theorem unmoved_perform_iff : Unmoved ledger (ledger.perform call).1 ↔ ¬ledger.Spends call := by
  have outcome := perform_outcome ledger call
  have idleLedger : Unmoved ledger ledger := ⟨fun _ => rfl, rfl, rfl⟩
  generalize ledger.perform call = next at outcome
  cases outcome with
  | refused invalid =>
      apply iff_of_true idleLedger
      rintro ⟨key, fresh, -⟩
      exact Option.some_ne_none _ (invalid.symm.trans fresh.valid)
  | idle idle =>
      apply iff_of_true idleLedger
      rintro ⟨key, fresh, -⟩
      exact fresh.active idle
  | repeated keyed used =>
      apply iff_of_true idleLedger
      rintro ⟨key, fresh, -⟩
      obtain rfl := Option.some.inj (fresh.keyed.symm.trans keyed)
      exact fresh.unused used
  | @opened userId same =>
      apply iff_of_true (effect_getOrCreateAccount ledger userId).unmoved
      rintro ⟨key, fresh, -⟩
      subst same
      cases fresh.keyed
  | @orphaned key userId fresh missing =>
      apply iff_of_false
      · exact fun unmoved => List.cons_ne_self _ _ unmoved.2.2
      · exact not_not.2 ⟨key, fresh, Or.inl missing⟩
  | short known uncovered effect =>
      apply iff_of_true effect.unmoved
      rintro ⟨key, fresh, missing | covered⟩
      · exact known missing
      · exact uncovered covered
  | panicked same accepts overdraws effect =>
      apply iff_of_false
      · intro unmoved
        exact List.cons_ne_self _ _ (effect.keys.symm.trans unmoved.2.2)
      · exact not_not.2 ⟨_, accepts.toFresh, Or.inr accepts.covered⟩
  | performed accepts within effect =>
      apply iff_of_false
      · intro unmoved
        exact List.cons_ne_self _ _ (effect.keys.symm.trans unmoved.2.2)
      · exact not_not.2 ⟨_, accepts.toFresh, Or.inr accepts.covered⟩

/-- The key that a call has used up was not there before it and is there afterwards. -/
theorem Spends.uses_key (spends : ledger.Spends call) :
    ∃ key, key ∉ ledger.idempotencyKeys ∧ key ∈ (ledger.perform call).1.idempotencyKeys := by
  obtain ⟨key, fresh, reached⟩ := spends
  refine ⟨key, fresh.unused, ?_⟩
  have outcome := perform_outcome ledger call
  have same : ∀ {other : String}, call.key? = some other → other = key :=
    fun keyed => Option.some.inj (keyed.symm.trans fresh.keyed)
  generalize ledger.perform call = next at outcome
  cases outcome with
  | refused invalid => exact absurd (invalid.symm.trans fresh.valid) (Option.some_ne_none _)
  | idle idle => exact absurd idle fresh.active
  | repeated keyed used => exact absurd (same keyed ▸ used) fresh.unused
  | opened opens =>
      subst opens
      cases fresh.keyed
  | orphaned other missing =>
      rw [same other.keyed]
      exact List.mem_cons_self
  | short known uncovered effect => exact (reached.elim known uncovered).elim
  | panicked opens accepts overdraws effect =>
      rw [effect.keys, same accepts.keyed]
      exact List.mem_cons_self
  | performed accepts within effect =>
      rw [effect.keys, same accepts.keyed]
      exact List.mem_cons_self

/-- What succeeds without using a key up is a duplicate. -/
theorem repeats_of_done (done : (ledger.perform call).2 = .done) (kept : ¬ledger.Spends call)
    (keyed : call.key? = some key) (active : ¬call.Idle) : ledger.Repeats call := by
  have valid : call.invalid = none := by
    by_contra invalid
    obtain ⟨text, refused⟩ := Option.ne_none_iff_exists'.1 invalid
    rw [perform_invalid refused] at done
    cases done
  have outcome := perform_outcome ledger call
  generalize ledger.perform call = next at outcome done
  cases outcome with
  | idle idle => exact absurd idle active
  | repeated keyed used => exact ⟨valid, _, keyed, used⟩
  | opened same =>
      subst same
      cases keyed
  | performed accepts within effect =>
      exact absurd ⟨_, accepts.toFresh, Or.inr accepts.covered⟩ kept
  | refused | orphaned | short | panicked => cases done

end Ledger
end Exg
