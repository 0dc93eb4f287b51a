import PlantGrowth.Scheduler

/-!
# Simulations

A world and the scheduler that drives it. Every function that lets handlers act takes the number of
steps that the nested work of one call may take, and has no result if they do not suffice.
-/

namespace PlantGrowth

variable {H : Type}

/-- A world with its scheduler. -/
structure Simulation (H : Type) where
  world : World H
  scheduler : Scheduler H

namespace Simulation

/-- The simulation before anything grows. -/
def ofSettings (settings : Settings) : Simulation H :=
  { world := World.ofSettings settings, scheduler := { budget := settings.maxStepsPerTick } }

/-- Is there nothing left to do? -/
def isIdle (sim : Simulation H) : Bool := sim.scheduler.isEmpty && sim.world.parked.isEmpty

variable [Host H]

/-- Makes a node and lets a handler act there, live or baked as the node is marked. -/
def plant (limit : Nat) (sim : Simulation H) (draft : NodeDraft) (handler : Handler H)
    (bundle : Bundle H) : Option (NodeId × Simulation H) := do
  let (node, nodes) := sim.world.nodes.addNode draft
  let world ← World.run limit [.call handler node bundle draft.baked] { sim.world with nodes }
  pure (node, { sim with world })

/-- Lets the time of one tick pass and runs the scheduler once. -/
def tick (limit : Nat) (sim : Simulation H) : Option (TickSummary × Simulation H) := do
  let world := sim.world.elapse sim.world.settings.tickSeconds
  let (report, scheduler, world) ← sim.scheduler.turn limit world sim.scheduler.budget
  pure (report, { world, scheduler })

/-- Ticks until nothing is left to do, at most a given number of times. Returns how often it ticked.
-/
def settle (limit : Nat) : Nat → Simulation H → Option (Nat × Simulation H)
  | 0, sim => some (0, sim)
  | most + 1, sim =>
    if sim.isIdle then some (0, sim)
    else do
      let (_, sim) ← sim.tick limit
      let (ticks, sim) ← settle limit most sim
      pure (ticks + 1, sim)

end Simulation
end PlantGrowth
