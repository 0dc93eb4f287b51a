import PlantGrowth.World.Basic

/-!
# Nested work

A handler that continues its chain sets off another handler, and that one the next. This nested work
is data: a handler's effect names what is to be done after it, as a list of tasks, and the tasks are
done from the front, each putting its own tasks before the ones that are left. So the order is that
of calls within calls, and no definition of a handler calls another one.
-/

namespace PlantGrowth

/-- A prototype whose structure is being grown. -/
structure Prefab where
  node : NodeId
  identifier : String
  /-- The node that its first instance hangs from. -/
  anchor : Option NodeId
  placement : Transform
  variation : Variation

/-- A piece of nested work. -/
inductive Task (H : Type) where
  /-- Continue a chain after a node, unless the node is dead. -/
  | advance (predecessor : NodeId) (chain : Chain H) (baked : Bool)
  /-- Look for the next symbol of a chain that is bound to a handler. -/
  | search (predecessor : NodeId) (chain : Chain H) (baked : Bool)
  /-- Let a handler act at a node. -/
  | call (handler : Handler H) (node : NodeId) (bundle : Bundle H) (baked : Bool)
  /-- Continue a chain after a node in the way the node is marked for. -/
  | carryOn (node : NodeId) (chain : Chain H)
  /-- Mark a node as gone. -/
  | destroy (node : NodeId)
  /-- Park a continuation. -/
  | park (work : Continuation H)
  /-- Carry the node at the tip of a branch to where the tip is. -/
  | carryTip (growth : Elongation H)
  /-- Let a branch be full-grown at once. -/
  | ripen (growth : Elongation H)
  /-- Make a prototype of structure that has been grown. -/
  | publish (prefab : Prefab)

/-- What a call of a handler does: a new world, what is to be done next, and work left for later
ticks, which is to be parked when that is done. -/
structure Effect (H : Type) where
  world : World H
  tasks : List (Task H) := []
  continuation : Option (Continuation H) := none

/-- What resuming a continuation does. -/
structure Resumption (H : Type) where
  step : Step
  continuation : Continuation H
  world : World H
  tasks : List (Task H) := []

/-- The parts that a host program may add: handlers, continuations, callbacks and notes are all
values of the one type `H`. -/
class Host (H : Type) where
  /-- What a handler of the host does. -/
  call : H → World H → NodeId → Bundle H → Bool → H × Effect H
  /-- What resuming a continuation of the host does. -/
  resume : H → World H → Step × H × World H
  /-- What telling a callback of the host a radius does. -/
  signal : H → World H → Float → World H
  /-- The name of a continuation of the host in warnings. -/
  label : H → String

/-- A library on its own has no parts of a host. -/
instance : Host Empty where
  call h := nomatch h
  resume h := nomatch h
  signal h := nomatch h
  label h := nomatch h

variable {H : Type}

namespace Effect

/-- The tasks of an effect, the last one to park the work that is left. -/
def allTasks (effect : Effect H) : List (Task H) :=
  match effect.continuation with
  | some work => effect.tasks ++ [.park work]
  | none => effect.tasks

end Effect

/-- Tells a callback the radius at the base of a branch. -/
def World.signal [Host H] (w : World H) (callback : Callback H) (radius : Float) : World H :=
  match callback with
  | .topRadius node factor =>
    w.mapNodes fun nodes => nodes.modify node fun state =>
      { state with segment := state.segment.map fun segment =>
        { segment with topRadius := radius * factor } }
  | .host callback => Host.signal callback w radius

end PlantGrowth
