import Exg.Support.Machine
import Mathlib.Data.List.Basic
import Mathlib.Logic.Function.Basic

/-!
# Loops that compare and exchange one word

Threads share one word.  Each of them reads an input of its own, loads the word, computes from
both a new word and an output, and exchanges the word if it is still the one it has loaded; if
it is not, or if there is nothing to propose, it starts again.  Whatever the interleaving, the
words that the threads have written one after the other are those of a sequence of whole turns,
one thread at a time (`exchange_serial`).
-/

namespace Support

universe u v w x

variable {Thread : Type u} {Word : Type v} {Input : Type w} {Output : Type x}

/-- Where a thread is in its loop. -/
inductive LoopPoint (Word : Type v) (Input : Type w) (Output : Type x) where
  | top
  | sampled (input : Input)
  | proposed (old new : Word) (output : Output)

/-- The shared word, and where each thread is. -/
structure SharedWord (Thread : Type u) (Word : Type v) (Input : Type w) (Output : Type x) where
  word : Word
  point : Thread → LoopPoint Word Input Output

/-- The next step of one thread, with the input it reads if this is the step that reads one. -/
structure ThreadStep (Thread : Type u) (Input : Type w) where
  thread : Thread
  input : Input

/-- Every thread is at the top of its loop. -/
def SharedWord.start (word : Word) : SharedWord Thread Word Input Output :=
  { word, point := fun _ => .top }

section Exchange

variable (propose : Input → Word → Option (Word × Output))

/-- One step of one thread: it reads its input, loads the word or exchanges it. -/
def exchangeStep [DecidableEq Thread] [DecidableEq Word]
    (shared : SharedWord Thread Word Input Output) (step : ThreadStep Thread Input) :
    SharedWord Thread Word Input Output × List Output :=
  match shared.point step.thread with
  | .top =>
      ({ shared with
          point := Function.update shared.point step.thread (.sampled step.input) }, [])
  | .sampled input =>
      match propose input shared.word with
      | none => ({ shared with point := Function.update shared.point step.thread .top }, [])
      | some (new, output) =>
          ({ shared with
              point := Function.update shared.point step.thread
                (.proposed shared.word new output) }, [])
  | .proposed old new output =>
      let point := Function.update shared.point step.thread .top
      if shared.word = old then ({ word := new, point }, [output])
      else ({ shared with point }, [])

variable (readable : Input → Prop)

/-- A whole turn: the word is replaced by one that is proposed from it for a readable input. -/
def Exchanged (old : Word) (output : Output) (new : Word) : Prop :=
  ∃ input, readable input ∧ propose input old = some (new, output)

/-- What a thread carries is readable, or was proposed from the word it has loaded. -/
def PointHolds : LoopPoint Word Input Output → Prop
  | .top => True
  | .sampled input => readable input
  | .proposed old new output => Exchanged propose readable old output new

variable {propose readable} [DecidableEq Thread]

theorem pointHolds_update {point : Thread → LoopPoint Word Input Output}
    {next : LoopPoint Word Input Output} {thread : Thread}
    (holds : ∀ thread, PointHolds propose readable (point thread))
    (nextHolds : PointHolds propose readable next) (other : Thread) :
    PointHolds propose readable (Function.update point thread next other) := by
  by_cases same : other = thread
  · subst same
    rw [Function.update_self]
    exact nextHolds
  · rw [Function.update_of_ne same]
    exact holds other

/-- What one step does: nothing to the word, or a whole turn. -/
theorem exchangeStep_serial [DecidableEq Word] {shared : SharedWord Thread Word Input Output}
    {step : ThreadStep Thread Input} (readableInput : readable step.input)
    (holds : ∀ thread, PointHolds propose readable (shared.point thread)) :
    Trace (Exchanged propose readable) shared.word
        (exchangeStep propose shared step).2 (exchangeStep propose shared step).1.word ∧
      ∀ thread, PointHolds propose readable
        ((exchangeStep propose shared step).1.point thread) := by
  have now := holds step.thread
  rw [exchangeStep]
  cases located : shared.point step.thread with
  | top => exact ⟨.nil, pointHolds_update holds readableInput⟩
  | sampled input =>
      rw [located] at now
      simp only
      cases proposes : propose input shared.word with
      | none => exact ⟨.nil, pointHolds_update holds trivial⟩
      | some proposal => exact ⟨.nil, pointHolds_update holds ⟨input, now, proposes⟩⟩
  | proposed old new output =>
      rw [located] at now
      simp only
      by_cases unchanged : shared.word = old
      · rw [if_pos unchanged, unchanged]
        exact ⟨.single now, pointHolds_update holds trivial⟩
      · rw [if_neg unchanged]
        exact ⟨.nil, pointHolds_update holds trivial⟩

/-- A step gives out at most one output, and with it replaces the word. -/
theorem exchangeStep_once [DecidableEq Word] {shared : SharedWord Thread Word Input Output}
    {step : ThreadStep Thread Input} (readableInput : readable step.input)
    (holds : ∀ thread, PointHolds propose readable (shared.point thread)) :
    ((exchangeStep propose shared step).2 = [] ∧
        (exchangeStep propose shared step).1.word = shared.word) ∨
      ∃ output, (exchangeStep propose shared step).2 = [output] ∧
        Exchanged propose readable shared.word output
          (exchangeStep propose shared step).1.word := by
  have short : (exchangeStep propose shared step).2.length ≤ 1 := by
    rw [exchangeStep]
    cases shared.point step.thread with
    | top => exact Nat.zero_le 1
    | sampled input =>
        dsimp only
        split <;> exact Nat.zero_le 1
    | proposed old new output =>
        dsimp only
        split
        · exact Nat.le_refl 1
        · exact Nat.zero_le 1
  have serial := (exchangeStep_serial readableInput holds).1
  generalize (exchangeStep propose shared step).1.word = final at serial ⊢
  cases emitted : (exchangeStep propose shared step).2 with
  | nil =>
      rw [emitted] at serial
      cases serial
      exact Or.inl ⟨rfl, rfl⟩
  | cons output rest =>
      rw [emitted] at serial short
      cases rest with
      | cons other more => simp at short
      | nil =>
          cases serial with
          | cons now later =>
              cases later
              exact Or.inr ⟨output, rfl, now⟩

/-- Every run writes the words of a sequence of whole turns. -/
theorem exchange_serial [DecidableEq Word] (word : Word) (steps : List (ThreadStep Thread Input))
    (readableInputs : ∀ step ∈ steps, readable step.input) :
    ∃ final, Trace (Exchanged propose readable) word
      (run (exchangeStep propose) (SharedWord.start word) steps).2 final := by
  have related : ∃ final,
      Trace (Exchanged propose readable) word
        (run (exchangeStep propose) (SharedWord.start word) steps).2 final ∧
      (run (exchangeStep propose) (SharedWord.start word) steps).1.word = final ∧
      ∀ thread, PointHolds propose readable
        ((run (exchangeStep propose) (SharedWord.start word) steps).1.point thread) := by
    refine run_refines (fun _ shared current => shared.word = current ∧
      ∀ thread, PointHolds propose readable (shared.point thread))
      (SharedWord.start word) word steps ?_ ?_
    · exact ⟨rfl, fun _ => trivial⟩
    · rintro before step shared current isPrefix ⟨rfl, holds⟩
      have member : step ∈ steps := isPrefix.subset (by simp)
      obtain ⟨serial, kept⟩ := exchangeStep_serial (readableInputs step member) holds
      exact ⟨_, serial, rfl, kept⟩
  obtain ⟨final, serial, -⟩ := related
  exact ⟨final, serial⟩

end Exchange
end Support
