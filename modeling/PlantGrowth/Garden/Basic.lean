import PlantGrowth.Plan.Basic
import PlantGrowth.Simulation

/-!
# Gardens

A garden is a simulation in which one planned plant grows, a batch of ticks at a time, and whose
visible nodes the host draws. It has no parts of the host.
-/

namespace PlantGrowth

/-- Why a plant could not be planted. -/
structure PlantError where
  /-- The sentence that the plant was to start from. -/
  start : String
  cause : PlanFault

namespace PlantError

/-- Which plant it is about. -/
def context (e : PlantError) : String := "invalid plant config for axiom " ++ quoted e.start

/-- The text shown to the user. -/
def message (e : PlantError) : String := e.context ++ ": " ++ e.cause.message

end PlantError

/-- Plants a plan. -/
def Simulation.sow {H : Type} [Host H] (limit : Nat) (sim : Simulation H)
    (plan : PlantPlan) : Except PlantError (Option (NodeId × Simulation H)) :=
  match plan.seed with
  | .error cause => .error { start := plan.traits.start, cause }
  | .ok seed => .ok (sim.plant limit plan.traits.root (.seed seed) .empty)

/-- A simulation of one plant, without parts of the host. -/
abbrev Garden := Simulation Empty

/-- What a batch of ticks did. -/
structure BatchSummary where
  ticks : Nat := 0
  resumed : Nat := 0
  dropped : Nat := 0
  /-- The continuations that wait after the last tick. -/
  queued : Nat := 0
  idle : Bool := false
  deriving DecidableEq, Repr, Inhabited

namespace BatchSummary

/-- Adds a tick. -/
def add (batch : BatchSummary) (tick : TickSummary) : BatchSummary :=
  { batch with
    ticks := batch.ticks + 1, resumed := batch.resumed + tick.resumed
    dropped := batch.dropped + tick.dropped, queued := tick.queued }

end BatchSummary

/-- A visible node, as the host sees it. -/
structure NodeView where
  id : NodeId
  symbol : String
  name : String
  previous : Option NodeId
  parent : Option NodeId
  transform : Transform
  dead : Bool
  hidden : Bool
  segment : Option Segment
  blade : Option Blade

namespace NodeView

/-- A node as the host sees it. -/
def ofNode (id : NodeId) (node : Node) : NodeView :=
  { id, symbol := String.singleton node.symbol, name := node.name, previous := node.previous
    parent := node.parent, transform := node.transform, dead := node.dead, hidden := node.hidden
    segment := node.segment, blade := node.blade }

/-- The node as an object. -/
def toJson (view : NodeView) : Json :=
  let t := view.transform
  .obj [("id", .ofNat view.id), ("symbol", .str view.symbol), ("name", .str view.name),
    ("previous", .ofOption .ofNat view.previous), ("parent", .ofOption .ofNat view.parent),
    ("position", t.position.toJson),
    ("rotation", .arr [.ofFloat t.rotation.i, .ofFloat t.rotation.j, .ofFloat t.rotation.k,
      .ofFloat t.rotation.w]),
    ("scale", .ofFloat t.scale), ("dead", .bool view.dead), ("hidden", .bool view.hidden),
    ("segment", .ofOption Segment.toJson view.segment),
    ("blade", .ofOption Blade.toJson view.blade)]

end NodeView

namespace Garden

/-- A garden with a planned plant in it. -/
def build (limit : Nat) (plan : PlantPlan) (settings : Settings) :
    Except PlantError (Option Garden) :=
  match Simulation.sow limit (Simulation.ofSettings settings : Garden) plan with
  | .error e => .error e
  | .ok planted => .ok (planted.map (·.2))

/-- The text shown to the user when there is no garden. -/
def buildMessage (e : PlantError) : String := "failed to plant seed: " ++ e.message

/-- Ticks until nothing is left to do, at most a given number of times, adding to a report. -/
def accumulate (limit : Nat) : Nat → BatchSummary → Garden → Option (BatchSummary × Garden)
  | 0, report, garden => some (report, garden)
  | most + 1, report, garden =>
    if garden.isIdle then some (report, garden)
    else
      match Simulation.tick limit garden with
      | none => none
      | some (tick, garden) => accumulate limit most (report.add tick) garden

/-- Runs a batch of ticks. -/
def batch (limit : Nat) (garden : Garden) (size : Nat) : Option (BatchSummary × Garden) :=
  (accumulate limit size {} garden).map fun result =>
    ({ result.1 with idle := result.2.isIdle }, result.2)

/-- The visible nodes. -/
def view (garden : Garden) : List NodeView :=
  garden.world.nodes.nodes.toList.zipIdx.filterMap fun (node, id) =>
    if node.visible then some (NodeView.ofNode id node) else none

end Garden
end PlantGrowth
