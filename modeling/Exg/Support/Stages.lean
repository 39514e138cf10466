import Mathlib.Tactic.Common

/-!
# Operations in stages over two stores

An operation changes a store of its own and asks a second store, stage by stage, and stops
at the first request that is turned down.  Nothing is undone then: what earlier stages
did, and what the stage itself did before it asked, stays.
-/

namespace Support

universe u v w x

variable {σ : Type u} {τ : Type v} {κ : Type w} {ε : Type x}

/-- One stage: the own store before the request, the request, and the own store after it. -/
structure Stage (σ : Type u) (τ : Type v) (κ : Type w) where
  prepare : σ → σ
  call : κ
  conclude : τ → σ → σ

section

variable (ask : τ → κ → τ × Option ε)

/-- Carry out stages until a request is turned down. -/
def runStages : List (Stage σ τ κ) → σ → τ → (σ × τ) × Option ε
  | [], own, other => ((own, other), none)
  | stage :: rest, own, other =>
      match ask other stage.call with
      | (next, none) => runStages rest (stage.conclude next (stage.prepare own)) next
      | (next, some stop) => ((stage.prepare own, next), some stop)

/-- One of the requests, made in turn, is turned down. -/
def StopsInTurn : List κ → τ → Prop
  | [], _ => False
  | call :: rest, other =>
      (ask other call).2.isSome ∨ StopsInTurn rest (ask other call).1

variable {ask} {own : σ} {other : τ} {stage : Stage σ τ κ} {rest stages : List (Stage σ τ κ)}

theorem runStages_granted (granted : (ask other stage.call).2 = none) :
    runStages ask (stage :: rest) own other =
      runStages ask rest (stage.conclude (ask other stage.call).1 (stage.prepare own))
        (ask other stage.call).1 := by
  rw [runStages]
  split
  · rename_i next asked
    rw [asked]
  · rename_i next stop asked
    rw [asked] at granted
    cases granted

theorem runStages_stopped {stop : ε} (stopped : (ask other stage.call).2 = some stop) :
    runStages ask (stage :: rest) own other =
      ((stage.prepare own, (ask other stage.call).1), some stop) := by
  rw [runStages]
  split
  · rename_i next asked
    rw [asked] at stopped
    cases stopped
  · rename_i next other asked
    rw [asked] at stopped ⊢
    cases stopped
    rfl

theorem runStages_append (first second : List (Stage σ τ κ)) (own : σ) (other : τ) :
    runStages ask (first ++ second) own other =
      match runStages ask first own other with
      | ((reached, next), none) => runStages ask second reached next
      | (state, some stop) => (state, some stop) := by
  induction first generalizing own other with
  | nil => rfl
  | cons stage rest inductionHypothesis =>
      cases asked : (ask other stage.call).2 with
      | none =>
          rw [List.cons_append, runStages_granted asked, runStages_granted asked]
          exact inductionHypothesis _ _
      | some stop => rw [List.cons_append, runStages_stopped asked, runStages_stopped asked]

theorem runStages_append_of_finished {first second : List (Stage σ τ κ)}
    (finished : (runStages ask first own other).2 = none) :
    runStages ask (first ++ second) own other =
      runStages ask second (runStages ask first own other).1.1
        (runStages ask first own other).1.2 := by
  rw [runStages_append]
  split
  · rename_i reached next same
    rw [same]
  · rename_i state stop same
    rw [same] at finished
    cases finished

theorem runStages_append_of_stopped {first second : List (Stage σ τ κ)} {stop : ε}
    (stopped : (runStages ask first own other).2 = some stop) :
    runStages ask (first ++ second) own other = runStages ask first own other := by
  rw [runStages_append]
  split
  · rename_i reached next same
    rw [same] at stopped
    cases stopped
  · rename_i state other same
    rw [same]

/-- An operation stops exactly when one of its requests is turned down in turn. -/
theorem runStages_stops_iff (stages : List (Stage σ τ κ)) (own : σ) (other : τ) :
    (runStages ask stages own other).2.isSome ↔
      StopsInTurn ask (stages.map Stage.call) other := by
  induction stages generalizing own other with
  | nil => simp [runStages, StopsInTurn]
  | cons stage rest inductionHypothesis =>
      rw [List.map_cons, StopsInTurn]
      cases asked : (ask other stage.call).2 with
      | none =>
          rw [runStages_granted asked]
          simp [inductionHypothesis]
      | some stop =>
          rw [runStages_stopped asked]
          simp

/-- What an operation stops with, one of its stages was told. -/
theorem exists_of_stopped {stop : ε} (stopped : (runStages ask stages own other).2 = some stop) :
    ∃ stage ∈ stages, ∃ reached, (ask reached stage.call).2 = some stop := by
  induction stages generalizing own other with
  | nil => cases stopped
  | cons stage rest inductionHypothesis =>
      cases asked : (ask other stage.call).2 with
      | none =>
          rw [runStages_granted asked] at stopped
          obtain ⟨later, member, reached, told⟩ := inductionHypothesis stopped
          exact ⟨later, List.mem_cons_of_mem stage member, reached, told⟩
      | some told =>
          rw [runStages_stopped asked] at stopped
          exact ⟨stage, List.mem_cons_self, other, asked.trans stopped⟩

/-- What every request keeps of the other store, a whole operation keeps. -/
theorem runStages_other {kept : τ → Prop}
    (keeps : ∀ other call, kept other → kept (ask other call).1) (stages : List (Stage σ τ κ))
    (own : σ) (holds : kept other) : kept (runStages ask stages own other).1.2 := by
  induction stages generalizing own other with
  | nil => exact holds
  | cons stage rest inductionHypothesis =>
      have next := keeps other stage.call holds
      cases asked : (ask other stage.call).2 with
      | none =>
          rw [runStages_granted asked]
          exact inductionHypothesis _ next
      | some stop =>
          rw [runStages_stopped asked]
          exact next

/-- What every stage keeps of the own store, whether it stops or not, an operation keeps. -/
theorem runStages_own {kept : σ → Prop}
    (prepares : ∀ stage ∈ stages, ∀ own, kept own → kept (stage.prepare own))
    (concludes : ∀ stage ∈ stages, ∀ other own, kept own → kept (stage.conclude other own))
    (holds : kept own) : kept (runStages ask stages own other).1.1 := by
  induction stages generalizing own other with
  | nil => exact holds
  | cons stage rest inductionHypothesis =>
      have prepared := prepares stage List.mem_cons_self own holds
      cases asked : (ask other stage.call).2 with
      | none =>
          rw [runStages_granted asked]
          apply inductionHypothesis
          · exact fun later member => prepares later (List.mem_cons_of_mem stage member)
          · exact fun later member => concludes later (List.mem_cons_of_mem stage member)
          · exact concludes stage List.mem_cons_self _ _ prepared
      | some stop =>
          rw [runStages_stopped asked]
          exact prepared

/-- An operation that finishes has prepared all its stages, where they conclude with nothing. -/
theorem runStages_own_of_finished (finished : (runStages ask stages own other).2 = none)
    (concludes : ∀ stage ∈ stages, ∀ other own, stage.conclude other own = own) :
    (runStages ask stages own other).1.1 =
      stages.foldl (fun own stage => stage.prepare own) own := by
  induction stages generalizing own other with
  | nil => rfl
  | cons stage rest inductionHypothesis =>
      cases asked : (ask other stage.call).2 with
      | none =>
          have concluded := concludes stage List.mem_cons_self (ask other stage.call).1
            (stage.prepare own)
          rw [runStages_granted asked, concluded] at finished ⊢
          exact inductionHypothesis finished fun later member =>
            concludes later (List.mem_cons_of_mem stage member)
      | some stop =>
          rw [runStages_stopped asked] at finished
          cases finished

/-- A view of the own store that no stage changes. -/
theorem runStages_view {α : Type*} (view : σ → α)
    (prepares : ∀ stage ∈ stages, ∀ own, view (stage.prepare own) = view own)
    (concludes : ∀ stage ∈ stages, ∀ other own, view (stage.conclude other own) = view own) :
    view (runStages ask stages own other).1.1 = view own := by
  have prepared : ∀ stage ∈ stages, ∀ reached, view reached = view own →
      view (stage.prepare reached) = view own :=
    fun stage member reached same => (prepares stage member reached).trans same
  have concluded : ∀ stage ∈ stages, ∀ other reached, view reached = view own →
      view (stage.conclude other reached) = view own :=
    fun stage member other reached same => (concludes stage member other reached).trans same
  exact runStages_own prepared concluded rfl

/-- A view of the own store that the later stages do not change. -/
theorem runStages_append_view {α : Type*} (view : σ → α) (first : List (Stage σ τ κ))
    (prepares : ∀ stage ∈ stages, ∀ own, view (stage.prepare own) = view own)
    (concludes : ∀ stage ∈ stages, ∀ other own, view (stage.conclude other own) = view own) :
    view (runStages ask (first ++ stages) own other).1.1 =
      view (runStages ask first own other).1.1 := by
  rw [runStages_append]
  split
  · rename_i reached next finished
    rw [finished]
    exact runStages_view view prepares concludes
  · rename_i state stop stopped
    rw [stopped]

end
end Support
