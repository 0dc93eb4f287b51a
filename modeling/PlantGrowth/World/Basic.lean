import PlantGrowth.Random.Basic
import PlantGrowth.Settings
import PlantGrowth.World.Continuation
import PlantGrowth.World.Warning

/-!
# The world

All that handlers may read and change: the nodes, the prefabs and the outlines that leaves share,
the random generator, the clock. Continuations made on the way are parked here until the scheduler
takes them. Warnings, and what the host's own parts wrote down, are kept in the order they came.
-/

namespace PlantGrowth

/-- The state of a simulation, apart from the scheduler's queue. -/
structure World (H : Type) where
  nodes : Arena
  prefabs : PrefabStore
  /-- Outlines of baked leaves, under their identifiers. -/
  sharedBlades : Dictionary Blade
  settings : Settings
  random : Random
  time : Float
  /-- The world time of the latest tick. -/
  deltaTime : Float
  parked : Array (Continuation H)
  /-- The number of handlers dispatched so far. -/
  dispatched : Nat
  warnings : Array Warning
  notes : Array H

namespace World

variable {H : Type}

/-- The world before anything grows. -/
def ofSettings (settings : Settings) : World H :=
  { nodes := {}, prefabs := {}, sharedBlades := .empty, settings
    random := Random.ofSeed settings.rngSeed, time := 0, deltaTime := settings.tickSeconds
    parked := #[], dispatched := 0, warnings := #[], notes := #[] }

/-- Changes the nodes. -/
def mapNodes (w : World H) (change : Arena → Arena) : World H := { w with nodes := change w.nodes }

/-- Marks a node as gone. -/
def destroy (w : World H) (node : NodeId) : World H := w.mapNodes (·.destroy node)

/-- Records a warning. -/
def warn (w : World H) (warning : Warning) : World H :=
  { w with warnings := w.warnings.push warning }

/-- Records a note of the host. -/
def note (w : World H) (entry : H) : World H := { w with notes := w.notes.push entry }

/-- Parks a continuation for the scheduler. -/
def park (w : World H) (work : Continuation H) : World H :=
  { w with parked := w.parked.push work }

/-- The parked continuations, and the world without them. -/
def unpark (w : World H) : List (Continuation H) × World H :=
  (w.parked.toList, { w with parked := #[] })

/-- Lets time pass. -/
def elapse (w : World H) (seconds : Float) : World H :=
  { w with deltaTime := seconds, time := w.time + seconds }

/-- Counts a dispatch. -/
def countDispatch (w : World H) : World H := { w with dispatched := w.dispatched + 1 }

/-- A number drawn between two bounds. -/
def drawBetween (w : World H) (first second : Float) : Float × World H :=
  let (x, random) := w.random.range first second
  (x, { w with random })

/-- A rotation drawn between two sets of angles in degrees. -/
def drawRotation (w : World H) (first second : Vec3) : Rotation × World H :=
  let (x, w) := w.drawBetween first.x second.x
  let (y, w) := w.drawBetween first.y second.y
  let (z, w) := w.drawBetween first.z second.z
  (Rotation.ofEuler (radians x) (radians y) (radians z), w)

/-- Were no draws refused on the way from one world to another? -/
def drewAll (w later : World H) : Bool := later.random.refused == w.random.refused

/-- The core entries of a handler's bundle. If one is missing, the world keeps a warning. -/
def coreOrWarn (w : World H) (handler : String) (node : NodeId) (bundle : Bundle H) :
    Option (Core H) × World H :=
  match bundle.core with
  | .ok core => (some core, w)
  | .error missing => (none, w.warn (.missingCore handler node missing))

end World
end PlantGrowth
