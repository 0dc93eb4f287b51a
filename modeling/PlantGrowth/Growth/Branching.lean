import PlantGrowth.Growth.Advance

/-!
# Growing branches

A branch moves its node along the heading, a little in every tick, until it has its length, and
records how long and how thick it is. The dimensions of the next branch of the chain follow from its
own, and it leaves that branch a callback, through which the base radius of the next branch becomes
its own top radius. A baked branch has its full length at once.

The shape may name a symbol for the tip; its handler acts once, at a dead node that is carried
along.
-/

namespace PlantGrowth

variable {H : Type}

/-- The value `t` of the way from `a` to `b`; the way does not go beyond its ends. -/
def interpolate (a b t : Float) : Float := a + (b - a) * clampFloat t 0 1

/-- The smaller of two numbers, and the other one if one of them is no number. -/
def minFloat (x y : Float) : Float :=
  if x.isNaN then y else if y.isNaN then x else if x < y then x else y

/-- A number cut to a count that fits into 64 bits. What is no number counts as zero. -/
def countOfFloat (x : Float) : Nat := x.toUInt64.toNat

namespace Elongation

/-- The direction of growth. -/
def direction (growth : Elongation H) : Vec3 :=
  (growth.heading.normalize? machineEpsilon).getD Vec3.unitY

/-- How long the branch is. -/
def distance (growth : Elongation H) (w : World H) : Float :=
  match w.nodes.get? growth.node with
  | some state => (state.transform.position.sub growth.origin).norm
  | none => 0

/-- Carries the node at the tip to where the tip is, turned to the heading. -/
def carryTip (growth : Elongation H) (w : World H) : World H :=
  match growth.tip, w.nodes.get? growth.node with
  | some tip, some state =>
    w.mapNodes (·.place tip fun t =>
      Transform.face { t with position := state.transform.position } growth.heading)
  | _, _ => w

/-- Records the dimensions. The top radius is what the next branch said, and zero before that. -/
def measure (growth : Elongation H) (w : World H) (distance : Float) : World H :=
  w.mapNodes fun nodes => nodes.modify growth.node fun state =>
    let segment : Segment :=
      { length := distance
        bottomRadius := growth.bottomRadius * growth.shape.bottomRadiusFactor
        topRadius := (state.segment.map (·.topRadius)).getD 0
        faces := max (countOfFloat growth.faces) 2 }
    { state with segment := some segment }

/-- Tells the radius at the base to whom it concerns. -/
def tellRadius [Host H] (growth : Elongation H) (w : World H) : World H :=
  match growth.callback with
  | some callback => w.signal callback growth.bottomRadius
  | none => w

/-- The bundle for what follows: the dimensions of the next branch, and whom it tells its radius. -/
def handOn (growth : Elongation H) (bundle : Bundle H) : Bundle H :=
  let shape := growth.shape
  let bundle := bundle.write Key.branchLength (.float (growth.length * shape.lengthFactor))
  let bundle := bundle.write Key.branchRadius (.float (growth.radius * shape.radiusFactor))
  let bundle := bundle.write Key.branchSpeed (.float (growth.speed * shape.speedFactor))
  let bundle := bundle.write Key.branchFaces (.float (growth.faces * shape.facesFactor))
  bundle.write Key.growLoop (.callback (.topRadius growth.node shape.topRadiusFactor))

/-- Records the full-grown branch and hands the chain on, if that was not done before. -/
def finish [Host H] (growth : Elongation H) (w : World H) : Resumption H :=
  let grown := { growth with bottomRadius := growth.radius }
  let w := growth.carryTip w
  let w := grown.measure w (grown.distance w)
  let w := grown.tellRadius w
  { step := .complete
    continuation := .branch { grown with work := none }
    world := w
    tasks :=
      match growth.work with
      | some chain => [.carryOn growth.node { chain with bundle := grown.handOn chain.bundle }]
      | none => [] }

/-- Grows on for a tick, or is full-grown. -/
def resume [Host H] (growth : Elongation H) (w : World H) : Resumption H :=
  match w.nodes.get? growth.node with
  | none => { step := .complete, continuation := .branch growth, world := w }
  | some state =>
    let distance := growth.distance w
    if state.destroyed then { step := .complete, continuation := .branch growth, world := w }
    else if distance ≥ growth.length then growth.finish w
    else
      let ratio := distance / growth.length
      let speed := interpolate growth.speed (growth.speed * growth.shape.speedFactor) ratio
      let step := minFloat (growth.heading.norm * w.deltaTime * speed) (growth.length - distance)
      let offset := growth.direction.scale step
      let w := w.mapNodes (·.place growth.node (·.move offset))
      let w := growth.carryTip w
      let growth := { growth with bottomRadius := interpolate 0 growth.radius ratio }
      let w := growth.measure w (growth.distance w)
      { step := .pending, continuation := .branch growth, world := growth.tellRadius w }

/-- Moves the tip to the full length at once, and finishes. -/
def ripen [Host H] (growth : Elongation H) (w : World H) : World H × List (Task H) :=
  let tip := growth.origin.add (growth.direction.scale growth.length)
  let w := w.mapNodes (·.place growth.node fun t => { t with position := tip })
  let done := growth.finish w
  (done.world, done.tasks)

end Elongation

namespace World

/-- What a branch does. The chain ends at a branch that would be too short or too thin. -/
def branch (w : World H) (shape : BranchShape) (node : NodeId) (bundle : Bundle H) (baked : Bool) :
    Effect H :=
  match w.coreOrWarn "branch" node bundle with
  | (none, w) => { world := w }
  | (some core, w) =>
    match bundle.vec3? Key.heading with
    | none => { world := w.warn (.noHeading node) }
    | some heading =>
      let length := (bundle.float? Key.branchLength).getD shape.startLength
      let radius := (bundle.float? Key.branchRadius).getD shape.startRadius
      let speed := (bundle.float? Key.branchSpeed).getD shape.startSpeed
      let faces := (bundle.float? Key.branchFaces).getD shape.startFaces
      if length < shape.lengthCutoff || radius < shape.radiusCutoff then { world := w }
      else
        match w.nodes.get? node with
        | none => { world := w }
        | some state =>
          let w := w.mapNodes (·.place node (·.face heading))
          let (tip, w, tipTasks) :=
            match shape.tipSymbol with
            | some symbol => w.attachTip node core.registry symbol bundle baked
            | none => (none, w, [])
          let growth : Elongation H :=
            { node, tip, shape, origin := state.transform.position, heading, length, radius, speed
              faces, bottomRadius := 0, callback := bundle.callback? Key.growLoop
              work := some { core, bundle } }
          if baked then { world := w, tasks := tipTasks ++ [.carryTip growth, .ripen growth] }
          else
            { world := w
              tasks := tipTasks ++ [.carryTip growth]
              continuation := some (.branch growth) }

end World
end PlantGrowth
