import Exg.Support.Definedness

/-!
# Computations that overflow or fail

The outcome `none` is a panic of an operator; `some` holds what a fallible function returns.
`checked` turns such a step into one of a follower, which stops at a panic as at an error.  Where
the steps agree with those of a follower of exact numbers, so do whole logs.
-/

namespace Support

universe u v w

variable {ε : Type u} {α β σ : Type v} {ι : Type w}

/-! ## One computation -/

/-- How a computation ends without a value. -/
inductive Failure (ε : Type u) where
  | overflow
  | failed (error : ε)
  deriving DecidableEq, Repr

/-- Go on with the value of a fallible computation. -/
def thenOk (outcome : Option (Except ε α)) (rest : α → Option (Except ε β)) :
    Option (Except ε β) :=
  match outcome with
  | none => none
  | some (.error error) => some (.error error)
  | some (.ok value) => rest value

theorem agrees_thenOk {outcome : Option (Except ε α)} {exact : Except ε α}
    {rest : α → Option (Except ε β)} {final : Except ε β} (first : Agrees outcome exact)
    (failed : ∀ error, exact = .error error → final = .error error)
    (next : ∀ value, exact = .ok value → Agrees (rest value) final) :
    Agrees (thenOk outcome rest) final := by
  intro result found
  cases outcome with
  | none => cases found
  | some ended =>
      have same := (first ended rfl).symm
      cases ended with
      | error error =>
          cases found
          exact (failed error same).symm
      | ok value => exact next value same result found

/-! ## Followers -/

/-- A step that stops at a panic and at an error. -/
def checked (step? : σ → ι → Option (Except ε σ)) (state : σ) (input : ι) :
    Except (Failure ε) σ :=
  match step? state input with
  | none => .error .overflow
  | some (.error error) => .error (.failed error)
  | some (.ok next) => .ok next

/-- A follower ends where the property holds, unless an operator overflows on the way. -/
def UnlessOverflow (outcome : Except (Failure ε) α) (holds : α → Prop) : Prop :=
  outcome = .error .overflow ∨ ∃ final, outcome = .ok final ∧ holds final

section Follow

variable {step? : σ → ι → Option (Except ε σ)} {step : σ → ι → Except ε σ}

theorem checked_ok_iff {state next : σ} {input : ι} :
    checked step? state input = .ok next ↔ step? state input = some (.ok next) := by
  rw [checked]
  cases step? state input with
  | none => simp
  | some ended => cases ended <;> simp

/-- A log that goes through leads to where it leads with exact numbers. -/
theorem follow_of_checked (agrees : ∀ state input, Agrees (step? state input) (step state input))
    {state final : σ} {inputs : List ι}
    (followed : follow (checked step?) state inputs = .ok final) :
    follow step state inputs = .ok final := by
  induction inputs generalizing state with
  | nil =>
      cases followed
      rfl
  | cons input rest inductionHypothesis =>
      obtain ⟨next, applied, later⟩ := follow_cons_ok followed
      have exact := (agrees state input _ (checked_ok_iff.1 applied)).symm
      rw [follow_cons_of_ok exact]
      exact inductionHypothesis later

/-- A log that goes through with exact numbers does so, unless an operator overflows. -/
theorem unlessOverflow_follow
    (agrees : ∀ state input, Agrees (step? state input) (step state input)) {state final : σ}
    {inputs : List ι} (followed : follow step state inputs = .ok final) {holds : σ → Prop}
    (kept : holds final) : UnlessOverflow (follow (checked step?) state inputs) holds := by
  induction inputs generalizing state with
  | nil =>
      cases followed
      exact Or.inr ⟨_, rfl, kept⟩
  | cons input rest inductionHypothesis =>
      obtain ⟨next, applied, later⟩ := follow_cons_ok followed
      rw [follow, checked]
      cases ended : step? state input with
      | none => exact Or.inl rfl
      | some result =>
          rw [agrees _ _ result ended, applied]
          exact inductionHypothesis later

/-- A log goes through where its two parts do. -/
theorem unlessOverflow_append {state : σ} {before after : List ι} {holds : σ → Prop}
    (ends : UnlessOverflow (follow (checked step?) state before) fun middle =>
      UnlessOverflow (follow (checked step?) middle after) holds) :
    UnlessOverflow (follow (checked step?) state (before ++ after)) holds := by
  rw [follow_append]
  obtain overflows | ⟨middle, ended, later⟩ := ends
  · rw [overflows]
    exact Or.inl rfl
  · rw [ended]
    exact later

end Follow

theorem UnlessOverflow.mono {outcome : Except (Failure ε) α} {holds more : α → Prop}
    (ends : UnlessOverflow outcome holds)
    (implies : ∀ final, outcome = .ok final → holds final → more final) :
    UnlessOverflow outcome more := by
  obtain overflows | ⟨final, ended, kept⟩ := ends
  · exact Or.inl overflows
  · exact Or.inr ⟨final, ended, implies final ended kept⟩

/-- What goes through has the property. -/
theorem UnlessOverflow.of_isOk {outcome : Except (Failure ε) α} {holds : α → Prop}
    (ends : UnlessOverflow outcome holds) (isOk : outcome.isOk = true) :
    ∃ final, outcome = .ok final ∧ holds final := by
  obtain overflows | ended := ends
  · rw [overflows] at isOk
    cases isOk
  · exact ended

end Support
