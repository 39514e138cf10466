import Exg.Support.Machine

/-!
# Workers that poll until they are told to stop

A worker takes items from a queue.  When it finds the queue empty, it looks at a stop flag: it
stops if the flag is set and polls again if not.  The two looks are steps of their own, and
items may arrive between them.  What is left behind when the worker stops is exactly what has
arrived since it last found the queue empty (`left_since_emptied`).
-/

namespace Support

universe u

variable {α : Type u}

/-- Where a worker is in its loop. -/
inductive WorkerPoint where
  | polling
  /-- The queue was empty; the flag is still to be read. -/
  | deciding
  | stopped
  deriving DecidableEq, Repr

/-- A queue and its worker. -/
structure Polled (α : Type u) where
  queue : List α
  worker : WorkerPoint

inductive PollEvent (α : Type u) where
  | arrived (item : α)
  | taken (item : α)
  | emptied
  | resumed
  | stopped
  deriving DecidableEq, Repr

/-- The steps of the loop, and the arrivals between them. -/
inductive PollStep : Polled α → PollEvent α → Polled α → Prop where
  | arrived {queue : List α} {worker : WorkerPoint} {item : α} :
      PollStep ⟨queue, worker⟩ (.arrived item) ⟨queue ++ [item], worker⟩
  | taken {item : α} {rest : List α} :
      PollStep ⟨item :: rest, .polling⟩ (.taken item) ⟨rest, .polling⟩
  | emptied : PollStep ⟨[], .polling⟩ .emptied ⟨[], .deciding⟩
  | resumed {queue : List α} : PollStep ⟨queue, .deciding⟩ .resumed ⟨queue, .polling⟩
  | stopped {queue : List α} : PollStep ⟨queue, .deciding⟩ .stopped ⟨queue, .stopped⟩

def arrivals (log : List (PollEvent α)) : List α :=
  log.filterMap fun
    | .arrived item => some item
    | _ => none

def takings (log : List (PollEvent α)) : List α :=
  log.filterMap fun
    | .taken item => some item
    | _ => none

/-- What has arrived since the queue was last found empty, behind what had arrived before. -/
def afterEmptied (before : List α) : List (PollEvent α) → List α
  | [] => before
  | .emptied :: rest => afterEmptied [] rest
  | .arrived item :: rest => afterEmptied (before ++ [item]) rest
  | _ :: rest => afterEmptied before rest

/-- What has arrived since the queue was last found empty. -/
def sinceEmptied (log : List (PollEvent α)) : List α := afterEmptied [] log

variable {first last : Polled α} {log : List (PollEvent α)}

/-- Items are taken in the order of their arrival, and each of them once. -/
theorem taken_in_order (trace : Trace PollStep first log last) :
    first.queue ++ arrivals log = takings log ++ last.queue := by
  induction trace with
  | nil => simp [arrivals, takings]
  | @cons first middle last event rest now _ inductionHypothesis =>
      cases now with
      | arrived =>
          rw [List.append_assoc] at inductionHypothesis
          exact inductionHypothesis
      | @taken item _ => exact congrArg (item :: ·) inductionHypothesis
      | emptied => exact inductionHypothesis
      | resumed => exact inductionHypothesis
      | stopped => exact inductionHypothesis

theorem queue_afterEmptied {before : List α} (trace : Trace PollStep first log last)
    (known : first.worker ≠ .polling → first.queue = before) (waits : last.worker ≠ .polling) :
    last.queue = afterEmptied before log := by
  induction trace generalizing before with
  | nil => exact known waits
  | @cons first middle last event rest now _ inductionHypothesis =>
      cases now with
      | @arrived _ _ item =>
          exact inductionHypothesis (fun away => congrArg (· ++ [item]) (known away)) waits
      | taken => exact inductionHypothesis (fun away => absurd rfl away) waits
      | emptied => exact inductionHypothesis (fun _ => rfl) waits
      | resumed => exact inductionHypothesis (fun away => absurd rfl away) waits
      | stopped => exact inductionHypothesis (fun _ => known (by simp)) waits

/-- A worker that has left its loop leaves behind what arrived since it last looked. -/
theorem left_since_emptied (trace : Trace PollStep ⟨[], .polling⟩ log last)
    (waits : last.worker ≠ .polling) : last.queue = sinceEmptied log :=
  queue_afterEmptied trace (fun away => absurd rfl away) waits

end Support
