import Exg.Support.Machine

/-!
# Auditing a log

A reader notes what the records of a log tell, and asks of each record something that
depends on what it has noted before.  `Audited` says that no record fails; the rules
below build it up over the log, and over the run of a machine that writes the log.
-/

namespace Support

universe u v w x

variable {κ : Type u} {ω : Type v}

/-- Every record meets a condition on what is noted of the records before it. -/
def Audited (note : κ → ω → κ) (holds : κ → ω → Prop) (view : κ) (log : List ω) : Prop :=
  ∀ before record after, log = before ++ record :: after → holds (before.foldl note view) record

variable {note : κ → ω → κ} {holds : κ → ω → Prop} {view : κ}

theorem audited_nil : Audited note holds view [] :=
  fun _ _ _ split => absurd split.symm (List.append_ne_nil_of_right_ne_nil _ (List.cons_ne_nil _ _))

theorem audited_cons {record : ω} {rest : List ω} :
    Audited note holds view (record :: rest) ↔
      holds view record ∧ Audited note holds (note view record) rest := by
  constructor
  · intro audited
    refine ⟨audited [] record rest rfl, fun before later after split => ?_⟩
    exact audited (record :: before) later after (congrArg (List.cons record) split)
  · rintro ⟨here, audited⟩ before later after split
    cases before with
    | nil =>
        cases split
        exact here
    | cons first middle =>
        cases split
        exact audited middle later after rfl

theorem audited_append {before after : List ω} :
    Audited note holds view (before ++ after) ↔
      Audited note holds view before ∧ Audited note holds (before.foldl note view) after := by
  induction before generalizing view with
  | nil => exact (and_iff_right audited_nil).symm
  | cons record rest inductionHypothesis =>
      rw [List.cons_append, audited_cons, audited_cons, inductionHypothesis, and_assoc,
        List.foldl_cons]

/-- Records that tell nothing new are asked on their own. -/
theorem audited_of_silent {log : List ω} (silent : ∀ record ∈ log, note view record = view)
    (met : ∀ record ∈ log, holds view record) :
    Audited note holds view log ∧ log.foldl note view = view := by
  induction log with
  | nil => exact ⟨audited_nil, rfl⟩
  | cons record rest inductionHypothesis =>
      have same := silent record List.mem_cons_self
      obtain ⟨audited, noted⟩ := inductionHypothesis
        (fun other member => silent other (List.mem_cons_of_mem record member))
        (fun other member => met other (List.mem_cons_of_mem record member))
      rw [audited_cons, List.foldl_cons, same]
      exact ⟨⟨met record List.mem_cons_self, audited⟩, noted⟩

section Run

variable {σ : Type w} {ι : Type x} {step : σ → ι → σ × List ω}

/-- A machine passes the audit when each step does, from a state that fits what is noted. -/
theorem StepsMeet.run_audited {condition : σ → ι → Prop} {fits : σ → κ → Prop}
    (kept : ∀ state view input, condition state input → fits state view →
      Audited note holds view (step state input).2 ∧
        fits (step state input).1 ((step state input).2.foldl note view)) :
    ∀ {state : σ} {view : κ} {inputs : List ι}, StepsMeet step condition state inputs →
      fits state view →
      Audited note holds view (run step state inputs).2 ∧
        fits (run step state inputs).1 ((run step state inputs).2.foldl note view)
  | _, _, [], _, start => ⟨audited_nil, start⟩
  | state, view, input :: _, ⟨now, later⟩, start => by
      obtain ⟨here, next⟩ := kept state view input now start
      obtain ⟨rest, final⟩ := later.run_audited kept next
      simp only [run, audited_append, List.foldl_append]
      exact ⟨⟨here, rest⟩, final⟩

end Run
end Support
