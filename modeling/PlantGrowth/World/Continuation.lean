import PlantGrowth.Bundle.Basic

/-!
# Work that waits

Growth takes many ticks. What a chain still has to do is kept as a continuation, which the scheduler
resumes once in a tick. A continuation that is done may be resumed again; its chain has then been
handed on and is not handed on twice.
-/

namespace PlantGrowth

/-- How a continuation stands after it was resumed. -/
inductive Step where
  /-- It needs another tick. -/
  | pending
  /-- It is done. -/
  | complete
  /-- It waits for something that the scheduler does not know. -/
  | unsupported (reason : String)
  deriving DecidableEq, Repr, Inhabited

/-- A dispatch that is due. -/
structure NextDispatch (H : Type) where
  predecessor : NodeId
  work : Option (Chain H)

/-- A chain that waits until the world's clock shows a time. -/
structure Delay (H : Type) where
  node : NodeId
  deadline : Float
  work : Option (Chain H)

/-- A branch that grows along its heading. -/
structure Elongation (H : Type) where
  node : NodeId
  /-- The node that is carried on the tip. -/
  tip : Option NodeId
  shape : BranchShape
  origin : Vec3
  heading : Vec3
  /-- The length at which growth ends. -/
  length : Float
  radius : Float
  speed : Float
  faces : Float
  /-- The radius at the base so far. -/
  bottomRadius : Float
  /-- Who is told the radius at the base. -/
  callback : Option (Callback H)
  work : Option (Chain H)

/-- A leaf that unfolds. -/
structure Unfolding (H : Type) where
  node : NodeId
  shape : LeafShape
  medialSize : Float
  lateralSize : Float
  growTime : Float
  elapsed : Float
  work : Option (Chain H)

/-- An instance of baked structure that grows from nothing to its size. -/
structure Emergence where
  node : NodeId
  endScale : Float
  elapsed : Float
  duration : Float

/-- Work that waits for the scheduler. -/
inductive Continuation (H : Type) where
  | dispatch (next : NextDispatch H)
  | wait (delay : Delay H)
  | branch (growth : Elongation H)
  | leaf (unfolding : Unfolding H)
  | emergence (scaling : Emergence)
  | host (work : H)

end PlantGrowth
