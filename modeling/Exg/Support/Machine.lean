import Mathlib.Data.List.Induction
import Mathlib.Tactic.Common

/-!
# Machines that write a log

A machine steps on an input and emits a list of records.  `run` collects the records of
a whole input list.  The rules below reduce a statement about every run to one about a
single step: `run_induction` for invariants, `StepsMeet` for runs whose every step meets
a condition, and `follow` for a follower that rebuilds its state from the log alone.
-/

namespace Support

universe u v w x y

variable {σ : Type u} {ι : Type v} {ω : Type w}

/-- Run a machine over a list of inputs and collect what it emits. -/
def run (step : σ → ι → σ × List ω) : σ → List ι → σ × List ω
  | state, [] => (state, [])
  | state, input :: rest =>
      let next := step state input
      let later := run step next.1 rest
      (later.1, next.2 ++ later.2)

section Run

variable (step : σ → ι → σ × List ω)

@[simp]
theorem run_nil (state : σ) : run step state [] = (state, []) := rfl

theorem run_append (state : σ) (before after : List ι) :
    run step state (before ++ after) =
      ((run step (run step state before).1 after).1,
        (run step state before).2 ++
          (run step (run step state before).1 after).2) := by
  induction before generalizing state with
  | nil => rfl
  | cons input rest inductionHypothesis =>
      simp only [List.cons_append, run, inductionHypothesis, List.append_assoc]

theorem run_concat (state : σ) (before : List ι) (input : ι) :
    run step state (before ++ [input]) =
      ((step (run step state before).1 input).1,
        (run step state before).2 ++ (step (run step state before).1 input).2) := by
  rw [run_append]
  simp [run]

/-- A property of the inputs read, the state and the log holds of a whole run when it
holds at the start and every step of that run keeps it. -/
theorem run_induction {motive : List ι → σ → List ω → Prop}
    (start : σ) (inputs : List ι) (base : motive [] start [])
    (preserved : ∀ before input,
      before ++ [input] <+: inputs →
      motive before (run step start before).1 (run step start before).2 →
      motive (before ++ [input])
        (step (run step start before).1 input).1
        ((run step start before).2 ++ (step (run step start before).1 input).2)) :
    motive inputs (run step start inputs).1 (run step start inputs).2 := by
  suffices reached : ∀ before, before <+: inputs →
      motive before (run step start before).1 (run step start before).2 from
    reached inputs (List.prefix_refl inputs)
  intro before
  induction before using List.reverseRecOn with
  | nil => exact fun _ => base
  | append_singleton before input inductionHypothesis =>
      intro isPrefix
      have earlier := inductionHypothesis ((List.prefix_append before [input]).trans isPrefix)
      rw [run_concat]
      exact preserved before input isPrefix earlier

/-- A prefix of a run's log is the log of the first inputs, and a part of the records of the
next one. -/
theorem run_cut {start : σ} {inputs : List ι} {kept : List ω}
    (isPrefix : kept <+: (run step start inputs).2) :
    ∃ count part, kept = (run step start (inputs.take count)).2 ++ part ∧
      (part = [] ∨ ∃ input, inputs[count]? = some input ∧
        part <+: (step (run step start (inputs.take count)).1 input).2 ∧
        part ≠ (step (run step start (inputs.take count)).1 input).2) := by
  induction inputs generalizing start kept with
  | nil => exact ⟨0, [], List.prefix_nil.1 isPrefix, Or.inl rfl⟩
  | cons input rest inductionHypothesis =>
      have logged : (run step start (input :: rest)).2 =
          (step start input).2 ++ (run step (step start input).1 rest).2 := rfl
      rw [logged] at isPrefix
      rcases List.prefix_or_prefix_of_prefix isPrefix (List.prefix_append _ _) with within | past
      · by_cases whole : kept = (step start input).2
        · exact ⟨1, [], by simp [run, whole], Or.inl rfl⟩
        · exact ⟨0, kept, rfl, Or.inr ⟨input, rfl, within, whole⟩⟩
      · obtain ⟨later, rfl⟩ := past
        rw [List.prefix_append_right_inj] at isPrefix
        obtain ⟨count, part, same, ends⟩ := inductionHypothesis isPrefix
        refine ⟨count + 1, part, ?_, ends⟩
        rw [List.take_succ_cons, run, same, List.append_assoc]

/-- Every step of the run meets a condition on the state before it and its input. -/
def StepsMeet (condition : σ → ι → Prop) : σ → List ι → Prop
  | _, [] => True
  | state, input :: rest =>
      condition state input ∧ StepsMeet condition (step state input).1 rest

instance decidableStepsMeet {condition : σ → ι → Prop}
    [decidable : ∀ state input, Decidable (condition state input)] :
    ∀ state inputs, Decidable (StepsMeet step condition state inputs)
  | _, [] => isTrue trivial
  | state, input :: rest =>
      have : Decidable (StepsMeet step condition (step state input).1 rest) :=
        decidableStepsMeet (step state input).1 rest
      inferInstanceAs (Decidable (_ ∧ _))

variable {step}

theorem StepsMeet.append_iff {condition : σ → ι → Prop} {state : σ} {before after : List ι} :
    StepsMeet step condition state (before ++ after) ↔
      StepsMeet step condition state before ∧
        StepsMeet step condition (run step state before).1 after := by
  induction before generalizing state with
  | nil => simp [StepsMeet]
  | cons input rest inductionHypothesis =>
      simp only [List.cons_append, StepsMeet, run, inductionHypothesis, and_assoc]

theorem StepsMeet.of_prefix {condition : σ → ι → Prop} {state : σ} {before inputs : List ι}
    {input : ι} (meet : StepsMeet step condition state inputs)
    (isPrefix : before ++ [input] <+: inputs) :
    condition (run step state before).1 input := by
  obtain ⟨after, rfl⟩ := isPrefix
  rw [List.append_assoc, StepsMeet.append_iff] at meet
  exact meet.2.1

/-- A run meets a condition when each of its steps does, in the state that its prefix leads to. -/
theorem StepsMeet.of_prefixes {condition : σ → ι → Prop} {state : σ} {inputs : List ι}
    (each : ∀ before input, before ++ [input] <+: inputs →
      condition (run step state before).1 input) :
    StepsMeet step condition state inputs := by
  induction inputs generalizing state with
  | nil => trivial
  | cons input rest inductionHypothesis =>
      refine ⟨each [] input (List.prefix_append [input] rest), ?_⟩
      refine inductionHypothesis fun before next isPrefix => ?_
      exact each (input :: before) next ((List.prefix_cons_inj input).2 isPrefix)

theorem StepsMeet.initial {condition : σ → ι → Prop} {state : σ} {before inputs : List ι}
    (meet : StepsMeet step condition state inputs) (isPrefix : before <+: inputs) :
    StepsMeet step condition state before := by
  obtain ⟨after, rfl⟩ := isPrefix
  exact (StepsMeet.append_iff.1 meet).1

theorem StepsMeet.of_forall {condition : σ → ι → Prop} :
    ∀ {state : σ} {inputs : List ι}, (∀ state, ∀ input ∈ inputs, condition state input) →
      StepsMeet step condition state inputs
  | _, [], _ => trivial
  | state, input :: _, everywhere =>
      ⟨everywhere state input List.mem_cons_self,
        StepsMeet.of_forall fun other later member =>
          everywhere other later (List.mem_cons_of_mem input member)⟩

theorem StepsMeet.mono {strong weak : σ → ι → Prop}
    (weaker : ∀ state input, strong state input → weak state input) :
    ∀ {state : σ} {inputs : List ι},
      StepsMeet step strong state inputs → StepsMeet step weak state inputs
  | _, [], _ => trivial
  | state, input :: _, ⟨now, later⟩ => ⟨weaker state input now, later.mono weaker⟩

/-- What every step that meets the condition keeps holds after a run of such steps. -/
theorem StepsMeet.run_keeps {condition : σ → ι → Prop} {invariant : σ → Prop}
    (kept : ∀ state input, condition state input → invariant state →
      invariant (step state input).1) :
    ∀ {state : σ} {inputs : List ι}, StepsMeet step condition state inputs → invariant state →
      invariant (run step state inputs).1
  | _, [], _, holds => holds
  | state, input :: _, ⟨now, later⟩, holds => later.run_keeps kept (kept state input now holds)

end Run

section Alike

variable {τ : Type x} {υ : Type y}

/-- Two machines whose steps keep a relation and look the same have runs that look the same. -/
theorem run_alike {step : σ → ι → σ × List ω} {step' : τ → ι → τ × List ω} {view : ω → υ}
    {related : σ → τ → Prop}
    (alike : ∀ first second input, related first second →
      related (step first input).1 (step' second input).1 ∧
        (step first input).2.map view = (step' second input).2.map view) :
    ∀ {first : σ} {second : τ} (inputs : List ι), related first second →
      related (run step first inputs).1 (run step' second inputs).1 ∧
        (run step first inputs).2.map view = (run step' second inputs).2.map view
  | _, _, [], holds => ⟨holds, rfl⟩
  | first, second, input :: rest, holds => by
      obtain ⟨next, same⟩ := alike first second input holds
      obtain ⟨final, later⟩ := run_alike alike rest next
      refine ⟨final, ?_⟩
      simp only [run, List.map_append, same, later]

end Alike

section Refine

variable {τ : Type x}

/-- A log that a transition relation can produce, from its first to its last state. -/
inductive Trace (next : τ → ω → τ → Prop) : τ → List ω → τ → Prop where
  | nil {state : τ} : Trace next state [] state
  | cons {first middle last : τ} {record : ω} {rest : List ω} (now : next first record middle)
      (later : Trace next middle rest last) : Trace next first (record :: rest) last

variable {next : τ → ω → τ → Prop}

theorem Trace.single {first last : τ} {record : ω} (now : next first record last) :
    Trace next first [record] last := .cons now .nil

theorem Trace.append {first middle last : τ} {before after : List ω}
    (early : Trace next first before middle) (late : Trace next middle after last) :
    Trace next first (before ++ after) last := by
  induction early with
  | nil => exact late
  | cons now _ inductionHypothesis => exact .cons now (inductionHypothesis late)

theorem Trace.split {first last : τ} {before after : List ω}
    (trace : Trace next first (before ++ after) last) :
    ∃ middle, Trace next first before middle ∧ Trace next middle after last := by
  induction before generalizing first with
  | nil => exact ⟨first, .nil, trace⟩
  | cons record rest inductionHypothesis =>
      cases trace with
      | cons now later =>
          obtain ⟨middle, early, late⟩ := inductionHypothesis later
          exact ⟨middle, .cons now early, late⟩

/-- A machine refines a transition relation when each step's log is a trace between related
states.  The relation may use the inputs read so far. -/
theorem run_refines {step : σ → ι → σ × List ω} (related : List ι → σ → τ → Prop)
    (start : σ) (abstract : τ) (inputs : List ι) (base : related [] start abstract)
    (simulates : ∀ before input state middle, before ++ [input] <+: inputs →
      related before state middle →
      ∃ final, Trace next middle (step state input).2 final ∧
        related (before ++ [input]) (step state input).1 final) :
    ∃ final, Trace next abstract (run step start inputs).2 final ∧
      related inputs (run step start inputs).1 final := by
  apply run_induction step (motive := fun before state log =>
    ∃ final, Trace next abstract log final ∧ related before state final)
  · exact ⟨abstract, .nil, base⟩
  · rintro before input isPrefix ⟨middle, early, holds⟩
    obtain ⟨final, late, kept⟩ := simulates before input _ middle isPrefix holds
    exact ⟨final, early.append late, kept⟩

end Refine

section Follow

variable {ρ : Type x} {ε : Type y}

/-- A follower applies a log record by record and stops at the first error. -/
def follow (apply : ρ → ω → Except ε ρ) : ρ → List ω → Except ε ρ
  | state, [] => .ok state
  | state, record :: rest =>
      match apply state record with
      | .error error => .error error
      | .ok next => follow apply next rest

variable {apply : ρ → ω → Except ε ρ}

@[simp]
theorem follow_nil (state : ρ) : follow apply state [] = .ok state := rfl

theorem follow_cons_of_ok {state next : ρ} {record : ω} {rest : List ω}
    (applied : apply state record = .ok next) :
    follow apply state (record :: rest) = follow apply next rest := by
  simp [follow, applied]

theorem follow_cons_ok {state final : ρ} {record : ω} {rest : List ω}
    (followed : follow apply state (record :: rest) = .ok final) :
    ∃ next, apply state record = .ok next ∧ follow apply next rest = .ok final := by
  cases applied : apply state record with
  | error error => simp [follow, applied] at followed
  | ok next => exact ⟨next, rfl, by rwa [follow_cons_of_ok applied] at followed⟩

theorem follow_append (state : ρ) (before after : List ω) :
    follow apply state (before ++ after) =
      match follow apply state before with
      | .error error => .error error
      | .ok middle => follow apply middle after := by
  induction before generalizing state with
  | nil => rfl
  | cons record rest inductionHypothesis =>
      rw [List.cons_append, follow, follow]
      cases apply state record with
      | error error => rfl
      | ok next => exact inductionHypothesis next

theorem follow_append_of_ok {state middle : ρ} {before after : List ω}
    (followed : follow apply state before = .ok middle) :
    follow apply state (before ++ after) = follow apply middle after := by
  rw [follow_append, followed]

/-- Records that change nothing can be left out. -/
theorem follow_ignored {records : List ω}
    (ignored : ∀ state, ∀ record ∈ records, apply state record = .ok state) (state : ρ) :
    follow apply state records = .ok state := by
  induction records with
  | nil => rfl
  | cons record rest inductionHypothesis =>
      rw [follow_cons_of_ok (ignored state record List.mem_cons_self)]
      exact inductionHypothesis fun other later member =>
        ignored other later (List.mem_cons_of_mem record member)

/-- A log that replays has all its prefixes replay. -/
theorem follow_append_ok {state final : ρ} {before after : List ω}
    (followed : follow apply state (before ++ after) = .ok final) :
    ∃ middle, follow apply state before = .ok middle ∧
      follow apply middle after = .ok final := by
  induction before generalizing state with
  | nil => exact ⟨state, rfl, followed⟩
  | cons record rest inductionHypothesis =>
      obtain ⟨next, applied, following⟩ := follow_cons_ok followed
      obtain ⟨middle, earlier, later⟩ := inductionHypothesis following
      exact ⟨middle, by rw [follow_cons_of_ok applied, earlier], later⟩

/-- A log that replays does so from where a part of it has led. -/
theorem follow_part {state middle final : ρ} {before part log : List ω}
    (followed : follow apply state log = .ok final) (isPrefix : before ++ part <+: log)
    (early : follow apply state before = .ok middle) :
    ∃ after, follow apply middle part = .ok after := by
  obtain ⟨rest, rfl⟩ := isPrefix
  rw [List.append_assoc, follow_append_of_ok early] at followed
  obtain ⟨after, followedPart, -⟩ := follow_append_ok followed
  exact ⟨after, followedPart⟩

end Follow
end Support
