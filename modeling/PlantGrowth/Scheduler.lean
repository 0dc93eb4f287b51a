import PlantGrowth.Growth.Machine

/-!
# The scheduler

Continuations wait in a queue. A tick resumes those at its front, at most as many as the budget
allows and none that came in during the tick; so a burst of forks costs no more than its share of a
tick. What a continuation parks on the way goes to the end of the queue, and the continuation itself
after that if it needs another tick.
-/

namespace PlantGrowth

variable {H : Type}

/-- What a tick did. -/
structure TickSummary where
  resumed : Nat := 0
  requeued : Nat := 0
  completed : Nat := 0
  dropped : Nat := 0
  /-- The continuations that wait after the tick. -/
  queued : Nat := 0
  deriving DecidableEq, Repr, Inhabited

namespace TickSummary

/-- Counts a resumed continuation by the step it took. -/
def count (report : TickSummary) : Step → TickSummary
  | .pending => { report with resumed := report.resumed + 1, requeued := report.requeued + 1 }
  | .complete => { report with resumed := report.resumed + 1, completed := report.completed + 1 }
  | .unsupported _ => { report with resumed := report.resumed + 1, dropped := report.dropped + 1 }

end TickSummary

/-- The queue and the budget of a tick. -/
structure Scheduler (H : Type) where
  queue : List (Continuation H) := []
  budget : Nat := 100

namespace Scheduler

/-- The number of waiting continuations. -/
def size (scheduler : Scheduler H) : Nat := scheduler.queue.length

/-- Does nothing wait? -/
def isEmpty (scheduler : Scheduler H) : Bool := scheduler.queue.isEmpty

/-- Puts a continuation at the end of the queue. -/
def add (scheduler : Scheduler H) (work : Continuation H) : Scheduler H :=
  { scheduler with queue := scheduler.queue ++ [work] }

variable [Host H]

/-- Resumes a continuation. Returns the step it took, what goes to the end of the queue, and the
world: first what was parked on the way, then the continuation if it needs another tick. -/
def serve (limit : Nat) (work : Continuation H) (w : World H) :
    Option (Step × List (Continuation H) × World H) := do
  let (step, work, w) ← w.resume limit work
  let (parked, w) := w.unpark
  match step with
  | .pending => pure (step, parked ++ [work], w)
  | .complete => pure (step, parked, w)
  | .unsupported reason => pure (step, parked, w.warn (.unsupported work.label reason))

/-- Resumes continuations one after the other. Returns the counts, what goes to the end of the
queue, and the world. -/
def serveAll (limit : Nat) : List (Continuation H) → TickSummary → World H →
    Option (TickSummary × List (Continuation H) × World H)
  | [], report, w => some (report, [], w)
  | work :: rest, report, w => do
    let (step, back, w) ← serve limit work w
    let (report, more, w) ← serveAll limit rest (report.count step) w
    pure (report, back ++ more, w)

/-- Runs a tick with the given budget. -/
def turn (limit : Nat) (scheduler : Scheduler H) (w : World H) (budget : Nat) :
    Option (TickSummary × Scheduler H × World H) := do
  let (parked, w) := w.unpark
  let queue := scheduler.queue ++ parked
  let (report, back, w) ← serveAll limit (queue.take budget) {} w
  let queue := queue.drop budget ++ back
  pure ({ report with queued := queue.length }, { scheduler with queue }, w)

end Scheduler
end PlantGrowth
