import PlantGrowth.World.Task

/-!
# Turning and moving

These handlers act at once. A turn changes the bundle and its node is gone afterwards; a move
changes its own node, which stays, so that what follows hangs off the new position. What is to be
turned or followed may be missing: then there is a warning, and the chain goes on.
-/

namespace PlantGrowth

variable {H : Type}

namespace World

/-- Continues a chain if its bundle had the core entries, in the name of the given handler. -/
def carryOnOrWarn (w : World H) (handler : String) (node : NodeId)
    (core : Except MissingEntry (Core H)) (bundle : Bundle H) : Effect H :=
  match core with
  | .ok core => { world := w, tasks := [.carryOn node { core, bundle }] }
  | .error missing => { world := w.warn (.missingCore handler node missing) }

/-- The effect, and then the node is gone. -/
def andDestroy (node : NodeId) (effect : Effect H) : Effect H :=
  { effect with tasks := effect.tasks ++ [.destroy node] }

/-- What a rotation does, live and baked. -/
def turnRotation (w : World H) (eulerMin eulerMax : Vec3) (node : NodeId) (bundle : Bundle H) :
    Effect H :=
  let core := bundle.core
  andDestroy node <|
    match bundle.rotation? Key.rotation with
    | some rotation =>
      let (turn, w) := w.drawRotation eulerMin eulerMax
      w.carryOnOrWarn "rotate" node core (bundle.write Key.rotation (.rotation (rotation.mul turn)))
    | none => (w.warn (.nothingToTurn node Key.rotation)).carryOnOrWarn "rotate" node core bundle

/-- What a rotation about an axis does, live and baked. An axis without direction turns nothing. -/
def turnHeading (w : World H) (axis : Vec3) (angleMin angleMax : Float) (node : NodeId)
    (bundle : Bundle H) : Effect H :=
  let core := bundle.core
  andDestroy node <|
    match bundle.vec3? Key.heading with
    | some heading =>
      let (angle, w) := w.drawBetween angleMin angleMax
      let bundle :=
        match axis.direction? machineEpsilon with
        | some axis =>
          let turn := Rotation.ofAxisAngle axis (radians angle)
          bundle.write Key.heading (.vec3 (turn.apply heading))
        | none => bundle
      w.carryOnOrWarn "axis_angle_rotate" node core bundle
    | none =>
      (w.warn (.nothingToTurn node Key.heading)).carryOnOrWarn "axis_angle_rotate" node core bundle

/-- What a move does, live and baked. -/
def move (w : World H) (distanceMin distanceMax : Float) (node : NodeId) (bundle : Bundle H) :
    Effect H :=
  let core := bundle.core
  match bundle.vec3? Key.heading with
  | some heading =>
    let (distance, w) := w.drawBetween distanceMin distanceMax
    let w := w.mapNodes (·.place node (·.move (heading.scale distance)))
    w.carryOnOrWarn "translate" node core bundle
  | none => (w.warn (.nothingToFollow node)).carryOnOrWarn "translate" node core bundle

end World
end PlantGrowth
