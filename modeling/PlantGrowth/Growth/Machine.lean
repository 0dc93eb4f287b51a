import PlantGrowth.Growth.Branching
import PlantGrowth.Growth.Forking
import PlantGrowth.Growth.Moving
import PlantGrowth.Growth.Pausing
import PlantGrowth.Growth.Seeding
import PlantGrowth.Growth.Unfolding

/-!
# Doing nested work

A task is done in one step, which may put further tasks in its place; a run does tasks until none
are left. A run need not end: a branch may name its own symbol for its tip, and its tip then has a
tip without end. So a run is given a number of steps, and has no result if they do not suffice.

There are two faults at which the program stops in the midst of a task: a random number is wanted
between bounds that are too far apart, or the counter of generations has no next number. A run that
comes to such a task has no result, however many steps it is given.
-/

namespace PlantGrowth

variable {H : Type} [Host H]

/-- Lets a handler act at a node. Returns the instance as the call leaves it, and the effect. -/
def Handler.call (handler : Handler H) (w : World H) (node : NodeId) (bundle : Bundle H)
    (baked : Bool) : Handler H × Effect H :=
  match handler with
  | .fork closing => (handler, w.fork closing node bundle)
  | .pause minSeconds maxSeconds => (handler, w.pause minSeconds maxSeconds node bundle baked)
  | .turnRotation eulerMin eulerMax => (handler, w.turnRotation eulerMin eulerMax node bundle)
  | .turnHeading axis angleMin angleMax =>
    (handler, w.turnHeading axis angleMin angleMax node bundle)
  | .move distanceMin distanceMax =>
    (handler, w.move distanceMin distanceMax node bundle)
  | .branch shape => (handler, w.branch shape node bundle baked)
  | .leaf shape => (handler, w.leaf shape node bundle baked)
  | .seed planted =>
    let (planted, effect) :=
      if baked then w.seedBaked planted node bundle else w.seedLive planted node bundle
    (.seed planted, effect)
  | .host foreign =>
    let (foreign, effect) := Host.call foreign w node bundle baked
    (.host foreign, effect)

namespace World

/-- Does one task. -/
def perform (w : World H) : Task H → World H × List (Task H)
  | .advance predecessor chain baked => w.advance predecessor chain baked
  | .search predecessor chain baked => w.search predecessor chain baked
  | .call handler node bundle baked =>
    let (_, effect) := handler.call w node bundle baked
    (effect.world, effect.allTasks)
  | .carryOn node chain => w.carryOn node chain
  | .destroy node => (w.destroy node, [])
  | .park work => (w.park work, [])
  | .carryTip growth => (growth.carryTip w, [])
  | .ripen growth => growth.ripen w
  | .publish prefab => (w.publish prefab, [])

/-- Does the program stop in the midst of a task? -/
def halts (w : World H) (task : Task H) : Bool :=
  task.overflows || !w.drewAll (w.perform task).1

/-- Does tasks until none are left, in at most `limit` steps. There is no result either if the program
stops in the midst of a task. -/
def run : Nat → List (Task H) → World H → Option (World H)
  | _, [], w => some w
  | 0, _ :: _, _ => none
  | limit + 1, task :: rest, w =>
    let (later, tasks) := w.perform task
    if task.overflows || !w.drewAll later then none else run limit (tasks ++ rest) later

@[simp] theorem run_nil (limit : Nat) (w : World H) : run limit [] w = some w := by
  cases limit <;> rfl

theorem run_of_halts {task : Task H} {w : World H} (h : w.halts task = true) (limit : Nat)
    (rest : List (Task H)) : run limit (task :: rest) w = none := by
  cases limit with
  | zero => rfl
  | succ limit => exact if_pos h

theorem run_cons {task : Task H} {w : World H} (h : w.halts task = false) (limit : Nat)
    (rest : List (Task H)) :
    run (limit + 1) (task :: rest) w =
      run limit ((w.perform task).2 ++ rest) (w.perform task).1 :=
  if_neg (Bool.eq_false_iff.mp h)

/-- A run with a result does its first task. -/
theorem halts_eq_false_of_run {limit : Nat} {task : Task H} {rest : List (Task H)} {w after : World H}
    (h : run limit (task :: rest) w = some after) : w.halts task = false := by
  rw [Bool.eq_false_iff]
  intro hhalts
  rw [run_of_halts hhalts] at h
  cases h

/-- A run that ends within some number of steps ends the same way within any larger number. -/
theorem run_mono {limit more : Nat} {tasks : List (Task H)} {w after : World H}
    (h : run limit tasks w = some after) (hle : limit ≤ more) : run more tasks w = some after := by
  induction limit generalizing more tasks w with
  | zero =>
    cases tasks with
    | nil => simpa using h
    | cons task rest => simp [run] at h
  | succ limit ih =>
    cases tasks with
    | nil => simpa using h
    | cons task rest =>
      obtain ⟨k, rfl⟩ : ∃ k, more = k + 1 := ⟨more - 1, by omega⟩
      have hgoes := halts_eq_false_of_run h
      rw [run_cons hgoes] at h ⊢
      exact ih h (by omega)

/-- Continues a chain after a node. Was a handler dispatched? -/
def continueAfter (limit : Nat) (w : World H) (predecessor : NodeId) (chain : Chain H)
    (baked : Bool) : Option (Bool × World H) := do
  let (w, tasks) ← seek limit (w.advance predecessor chain baked)
  let after ← run limit tasks w
  pure (!tasks.isEmpty, after)

/-- Lets a handler act at a node, and does all that follows at once. The work that is left for later
ticks is returned, not parked. -/
def invoke (limit : Nat) (w : World H) (handler : Handler H) (node : NodeId) (bundle : Bundle H)
    (baked : Bool) : Option (Handler H × Option (Continuation H) × World H) := do
  let (handler, effect) := handler.call w node bundle baked
  let later ← if w.drewAll effect.world then run limit effect.tasks effect.world else none
  pure (handler, effect.continuation, later)

end World

namespace Continuation

/-- Resumes a continuation, up to the nested work that follows. -/
def resume (continuation : Continuation H) (w : World H) : Resumption H :=
  match continuation with
  | .dispatch next => next.resume w
  | .wait waiting => waiting.resume w
  | .branch growth => growth.resume w
  | .leaf unfolding => unfolding.resume w
  | .emergence scaling => scaling.resume w
  | .host work =>
    let (step, work, w) := Host.resume work w
    { step, continuation := .host work, world := w }

/-- The name of a continuation in warnings. -/
def label : Continuation H → String
  | .dispatch _ => "dispatch"
  | .wait _ => "pause"
  | .branch _ => "branch"
  | .leaf _ => "leaf"
  | .emergence _ => "scale_in"
  | .host work => Host.label work

end Continuation

/-- Resumes a continuation, with the nested work that follows. -/
def World.resume (limit : Nat) (w : World H) (continuation : Continuation H) :
    Option (Step × Continuation H × World H) := do
  let resumption := continuation.resume w
  let later ← if w.drewAll resumption.world then World.run limit resumption.tasks resumption.world
    else none
  pure (resumption.step, resumption.continuation, later)

end PlantGrowth
