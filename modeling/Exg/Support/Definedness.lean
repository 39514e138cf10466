import Exg.Support.Machine

/-!
# Partial computations with a known domain

`Computes outcome domain value` says that a computation has a result exactly on its domain,
and that this result is `value` there.  The rules follow the ways in which computations are
put together; `computes_run` is the rule for a whole run.
-/

namespace Support

universe u v w

section Rules

variable {α β : Type u}

/-- The computation has a result if and only if the domain holds, and then it is the value. -/
def Computes (outcome : Option α) (domain : Prop) (value : α) : Prop :=
  ∀ result, outcome = some result ↔ domain ∧ value = result

namespace Computes

variable {outcome : Option α} {domain other : Prop} {value : α}

theorem pure (value : α) : Computes (some value) True value := by
  intro result
  rw [Option.some.injEq, true_and]

theorem guarded [Decidable domain] (value : α) :
    Computes (if domain then some value else none) domain value := by
  intro result
  by_cases holds : domain
  · rw [if_pos holds, Option.some.injEq]
    exact (and_iff_right holds).symm
  · rw [if_neg holds]
    simp [holds]

theorem eq_some (computes : Computes outcome domain value) (holds : domain) :
    outcome = some value :=
  (computes value).2 ⟨holds, rfl⟩

theorem domain_of_isSome (computes : Computes outcome domain value) (isSome : outcome.isSome) :
    domain := by
  obtain ⟨result, found⟩ := Option.isSome_iff_exists.1 isSome
  exact ((computes result).1 found).1

theorem isSome_iff (computes : Computes outcome domain value) : outcome.isSome ↔ domain := by
  refine ⟨computes.domain_of_isSome, fun holds => ?_⟩
  rw [computes.eq_some holds]
  rfl

theorem congr (computes : Computes outcome domain value) (same : domain ↔ other) :
    Computes outcome other value := by
  intro result
  rw [computes result, same]

/-- A value that is only reached on the domain may be given another way there. -/
theorem congr_value (computes : Computes outcome domain value) {again : α}
    (same : domain → value = again) : Computes outcome domain again := by
  intro result
  rw [computes result]
  exact and_congr_right fun holds => by rw [same holds]

theorem of_eq (computed : outcome = some value) : Computes outcome True value := by
  rw [computed]
  exact pure value

/-- The rest of a computation may rely on the domain of its first part. -/
theorem bind {rest : α → Option β} {later : Prop} {final : β}
    (first : Computes outcome domain value)
    (next : domain → Computes (rest value) later final) :
    Computes (outcome >>= rest) (domain ∧ later) final := by
  intro result
  by_cases holds : domain
  · rw [first.eq_some holds]
    exact (next holds result).trans (by simp [holds])
  · have stuck : outcome = none := by
      apply Option.not_isSome_iff_eq_none.1
      exact fun isSome => holds (first.domain_of_isSome isSome)
    rw [stuck]
    simp [holds]

theorem map (computes : Computes outcome domain value) (change : α → β) :
    Computes (outcome.map change) domain (change value) := by
  intro result
  rw [Option.map_eq_some_iff]
  constructor
  · rintro ⟨middle, found, rfl⟩
    have parts := (computes middle).1 found
    exact ⟨parts.1, congrArg change parts.2⟩
  · rintro ⟨holds, rfl⟩
    exact ⟨value, computes.eq_some holds, rfl⟩

/-- A last step that cannot fail. -/
theorem bind_some (computes : Computes outcome domain value) (change : α → β) :
    Computes (outcome >>= fun result => some (change result)) domain (change value) :=
  (computes.bind fun _ => pure (change value)).congr (and_iff_left trivial)

/-- One computation for each item of a list. -/
theorem mapM {γ : Type u} {items : List γ} {each? : γ → Option α} {domainOf : γ → Prop}
    {each : γ → α}
    (computes : ∀ item ∈ items, Computes (each? item) (domainOf item) (each item)) :
    Computes (items.mapM each?) (∀ item ∈ items, domainOf item) (items.map each) := by
  induction items with
  | nil => exact (pure []).congr (by simp)
  | cons item rest inductionHypothesis =>
      have first := computes item List.mem_cons_self
      have others := inductionHypothesis fun other member =>
        computes other (List.mem_cons_of_mem item member)
      rw [List.mapM_cons, List.map_cons]
      refine (first.bind fun _ => others.bind_some fun values => each item :: values).congr ?_
      exact List.forall_mem_cons.symm

end Computes
end Rules

/-! ## Computations that follow a total one -/

section Agreement

variable {α β : Type u}

/-- Where the computation has a result, it is the value. -/
def Agrees (outcome : Option α) (value : α) : Prop :=
  ∀ result, outcome = some result → result = value

theorem Computes.agrees {outcome : Option α} {domain : Prop} {value : α}
    (computes : Computes outcome domain value) : Agrees outcome value := by
  intro result found
  exact ((computes result).1 found).2.symm

namespace Agrees

variable {outcome : Option α} {value : α}

theorem pure (value : α) : Agrees (some value) value := by
  intro result found
  exact (Option.some.inj found).symm

theorem none (value : α) : Agrees Option.none value := by
  intro result found
  cases found

theorem eq_some (agrees : Agrees outcome value) (isSome : outcome.isSome) :
    outcome = some value := by
  obtain ⟨result, found⟩ := Option.isSome_iff_exists.1 isSome
  rw [found, agrees result found]

theorem bind {rest : α → Option β} {final : β} (first : Agrees outcome value)
    (next : Agrees (rest value) final) : Agrees (outcome >>= rest) final := by
  intro result found
  obtain ⟨middle, computed, continues⟩ := Option.bind_eq_some_iff.1 found
  rw [first middle computed] at continues
  exact next result continues

/-- A first part whose result is not used. -/
theorem after {rest : α → Option β} {final : β} (next : ∀ middle, Agrees (rest middle) final) :
    Agrees (outcome >>= rest) final := by
  intro result found
  obtain ⟨middle, -, continues⟩ := Option.bind_eq_some_iff.1 found
  exact next middle result continues

theorem map (agrees : Agrees outcome value) (change : α → β) :
    Agrees (outcome.map change) (change value) := by
  intro result found
  obtain ⟨middle, computed, rfl⟩ := Option.map_eq_some_iff.1 found
  rw [agrees middle computed]

/-- A last step that cannot fail. -/
theorem bind_some (agrees : Agrees outcome value) (change : α → β) :
    Agrees (outcome >>= fun result => some (change result)) (change value) :=
  agrees.bind (pure (change value))

theorem ite {condition : Prop} [Decidable condition] {other : Option α} {otherwise : α}
    (yes : Agrees outcome value) (no : Agrees other otherwise) :
    Agrees (if condition then outcome else other) (if condition then value else otherwise) := by
  split
  · exact yes
  · exact no

end Agrees

/-- Where a whole list is computed, each of its items is. -/
theorem isSome_of_mapM {γ : Type u} {each? : γ → Option α} {items : List γ} {values : List α}
    (mapped : items.mapM each? = some values) : ∀ item ∈ items, (each? item).isSome := by
  induction items generalizing values with
  | nil => simp
  | cons item rest inductionHypothesis =>
      rw [List.mapM_cons] at mapped
      obtain ⟨value, first, later⟩ := Option.bind_eq_some_iff.1 mapped
      obtain ⟨others, computed, -⟩ := Option.bind_eq_some_iff.1 later
      rw [List.forall_mem_cons]
      exact ⟨by rw [first]; rfl, inductionHypothesis computed⟩

end Agreement

/-! ## Computations that are defined less often -/

section Inclusion

variable {α β : Type u}

/-- Where the computation has a result, the wider one has the same. -/
def Within (outcome wider : Option α) : Prop :=
  ∀ result, outcome = some result → wider = some result

theorem Agrees.within {outcome : Option α} {value : α} (agrees : Agrees outcome value) :
    Within outcome (some value) := by
  intro result found
  rw [agrees result found]

namespace Within

variable {outcome wider : Option α}

theorem refl (outcome : Option α) : Within outcome outcome := fun _ found => found

theorem eq_of_isSome (within : Within outcome wider) (isSome : outcome.isSome) :
    outcome = wider := by
  obtain ⟨result, found⟩ := Option.isSome_iff_exists.1 isSome
  rw [found, within result found]

theorem bind {rest later : α → Option β} (first : Within outcome wider)
    (next : ∀ middle, Within (rest middle) (later middle)) :
    Within (outcome >>= rest) (wider >>= later) := by
  intro result found
  obtain ⟨middle, computed, continues⟩ := Option.bind_eq_some_iff.1 found
  exact Option.bind_eq_some_iff.2 ⟨middle, first middle computed, next middle result continues⟩

theorem agrees {value : α} (within : Within outcome wider) (agrees : Agrees wider value) :
    Agrees outcome value :=
  fun result found => agrees result (within result found)

/-- A first part whose result is not used. -/
theorem after {first : Option β} {rest : β → Option α}
    (next : ∀ middle, first = some middle → Within (rest middle) wider) :
    Within (first >>= rest) wider := by
  intro result found
  obtain ⟨middle, computed, continues⟩ := Option.bind_eq_some_iff.1 found
  exact next middle computed result continues

/-- A first part that follows a total one. -/
theorem after_agrees {first : Option β} {value : β} {rest : β → Option α}
    (agrees : Agrees first value) (next : Within (rest value) wider) :
    Within (first >>= rest) wider :=
  after fun middle computed => by rwa [agrees middle computed]

theorem map (within : Within outcome wider) (change : α → β) :
    Within (outcome.map change) (wider.map change) := by
  intro result found
  obtain ⟨middle, computed, changed⟩ := Option.map_eq_some_iff.1 found
  rw [within middle computed, Option.map_some, changed]

theorem ite {condition : Prop} [Decidable condition] {other otherwise : Option α}
    (yes : Within outcome wider) (no : Within other otherwise) :
    Within (if condition then outcome else other) (if condition then wider else otherwise) := by
  split
  · exact yes
  · exact no

/-- One computation for each item of a list. -/
theorem mapM {γ : Type u} {each eachWider : γ → Option α}
    (within : ∀ item, Within (each item) (eachWider item)) :
    ∀ items : List γ, Within (items.mapM each) (items.mapM eachWider)
  | [] => refl _
  | item :: rest => by
      rw [List.mapM_cons, List.mapM_cons]
      exact (within item).bind fun _ => (mapM within rest).bind fun _ => refl _

end Within
end Inclusion

/-! ## Runs -/

section Run

variable {σ : Type u} {ι : Type v} {ω : Type w}

/-- Run a machine that may fail over a list of inputs. -/
def runPartial (step : σ → ι → Option (σ × List ω)) : σ → List ι → Option (σ × List ω)
  | state, [] => some (state, [])
  | state, input :: rest => do
      let next ← step state input
      let later ← runPartial step next.1 rest
      some (later.1, next.2 ++ later.2)

/-- A run of a machine that may fail gives what the run of the total machine gives. -/
theorem agrees_run {step? : σ → ι → Option (σ × List ω)} {step : σ → ι → σ × List ω}
    (agrees : ∀ state input, Agrees (step? state input) (step state input)) :
    ∀ (state : σ) (inputs : List ι), Agrees (runPartial step? state inputs) (run step state inputs)
  | state, [] => .pure (state, [])
  | state, input :: rest =>
      (agrees state input).bind ((agrees_run agrees _ rest).bind_some fun later =>
        (later.1, (step state input).2 ++ later.2))

/-- Every input is allowed where the machine that may fail has come to. -/
def ReachedMeet (step? : σ → ι → Option (σ × List ω)) (allowed : σ → ι → Prop) :
    σ → List ι → Prop
  | _, [] => True
  | state, input :: rest =>
      allowed state input ∧
        ∀ next, step? state input = some next → ReachedMeet step? allowed next.1 rest

theorem ReachedMeet.of_forall {step? : σ → ι → Option (σ × List ω)} {allowed : ι → Prop} :
    ∀ {state : σ} {inputs : List ι}, (∀ input ∈ inputs, allowed input) →
      ReachedMeet step? (fun _ => allowed) state inputs
  | _, [], _ => trivial
  | _, input :: _, admitted =>
      ⟨admitted input List.mem_cons_self, fun _ _ => of_forall fun other member =>
        admitted other (List.mem_cons_of_mem input member)⟩

theorem ReachedMeet.of_stepsMeet {step? : σ → ι → Option (σ × List ω)}
    {step : σ → ι → σ × List ω} {allowed : σ → ι → Prop}
    (agrees : ∀ state input, Agrees (step? state input) (step state input)) :
    ∀ {state : σ} {inputs : List ι}, StepsMeet step allowed state inputs →
      ReachedMeet step? allowed state inputs
  | _, [], _ => trivial
  | state, input :: _, meet => by
      refine ⟨meet.1, fun next stepped => ?_⟩
      rw [agrees state input next stepped]
      exact of_stepsMeet agrees meet.2

/-- A run of a machine that may fail has a result exactly where every step of the run of the
total machine is in the domain.  Only what it reaches has to be allowed. -/
theorem computes_run_reached {step? : σ → ι → Option (σ × List ω)} {step : σ → ι → σ × List ω}
    {domain allowed : σ → ι → Prop} {invariant : σ → Prop}
    (each : ∀ state input, invariant state → allowed state input →
      Computes (step? state input) (domain state input) (step state input))
    (kept : ∀ state input, invariant state → allowed state input → domain state input →
      invariant (step state input).1) :
    ∀ {state : σ} {inputs : List ι}, invariant state → ReachedMeet step? allowed state inputs →
      Computes (runPartial step? state inputs) (StepsMeet step domain state inputs)
        (run step state inputs)
  | state, [], _, _ => Computes.pure (state, [])
  | state, input :: rest, holds, admitted => by
      have first := each state input holds admitted.1
      refine (first.bind fun now => ?_).congr Iff.rfl
      have next := kept state input holds admitted.1 now
      have later := computes_run_reached each kept next (admitted.2 _ (first.eq_some now))
      exact later.bind_some fun result => (result.1, (step state input).2 ++ result.2)

/-- What the steps that have a result keep, a run that has one keeps. -/
theorem runPartial_keeps {step? : σ → ι → Option (σ × List ω)} {allowed : σ → ι → Prop}
    {invariant : σ → Prop}
    (kept : ∀ {state input next}, invariant state → allowed state input →
      step? state input = some next → invariant next.1) :
    ∀ {state : σ} {inputs : List ι} {outcome : σ × List ω}, invariant state →
      ReachedMeet step? allowed state inputs → runPartial step? state inputs = some outcome →
      invariant outcome.1
  | state, [], outcome, holds, _, runs => by
      cases runs
      exact holds
  | state, input :: rest, outcome, holds, admitted, runs => by
      rw [runPartial, Option.bind_eq_bind, Option.bind_eq_some_iff] at runs
      obtain ⟨next, stepped, continues⟩ := runs
      rw [Option.bind_eq_some_iff] at continues
      obtain ⟨later, continued, same⟩ := continues
      cases same
      have final := runPartial_keeps kept (kept holds admitted.1 stepped)
        (admitted.2 next stepped) continued
      exact final

theorem computes_run {step? : σ → ι → Option (σ × List ω)} {step : σ → ι → σ × List ω}
    {domain : σ → ι → Prop} {invariant : σ → Prop} {allowed : ι → Prop}
    (each : ∀ state input, invariant state → allowed input →
      Computes (step? state input) (domain state input) (step state input))
    (kept : ∀ state input, invariant state → allowed input → domain state input →
      invariant (step state input).1)
    {state : σ} {inputs : List ι} (holds : invariant state)
    (admitted : ∀ input ∈ inputs, allowed input) :
    Computes (runPartial step? state inputs) (StepsMeet step domain state inputs)
      (run step state inputs) :=
  computes_run_reached each kept holds (.of_forall admitted)

end Run
end Support
