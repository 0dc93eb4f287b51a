import PlantGrowth.World.Task

/-!
# Unfolding leaves

A leaf sits at its node, turned to the heading, and unfolds over some time; its outline is recorded
in every tick. A leaf that is not animated, or baked, is full-grown at once. Baked leaves under one
identifier share the outline of the first of them.
-/

namespace PlantGrowth

variable {H : Type}

namespace Unfolding

/-- The outline at a progress. -/
def outline? (unfolding : Unfolding H) (progress : Float) : Option Blade :=
  unfolding.shape.outline? unfolding.medialSize unfolding.lateralSize progress

/-- Records an outline. -/
def record (unfolding : Unfolding H) (w : World H) (blade : Option Blade) : World H :=
  w.mapNodes fun nodes => nodes.modify unfolding.node fun state => { state with blade }

/-- The bundle for what follows: the sizes and the time of the next leaf. -/
def handOn (unfolding : Unfolding H) (bundle : Bundle H) : Bundle H :=
  let shape := unfolding.shape
  let medialSize := unfolding.medialSize * shape.medialSizeFactor
  let lateralSize := unfolding.lateralSize * shape.lateralSizeFactor
  let growTime := unfolding.growTime * shape.growTimeFactor
  let bundle := bundle.write Key.leafMedialSize (.float medialSize)
  let bundle := bundle.write Key.leafLateralSize (.float lateralSize)
  bundle.write Key.leafGrowTime (.float growTime)

/-- Records the last outline and hands the chain on, if that was not done before. -/
def finish (unfolding : Unfolding H) (w : World H) (blade : Option Blade) : Resumption H :=
  { step := .complete
    continuation := .leaf { unfolding with work := none }
    world := unfolding.record w blade
    tasks :=
      match unfolding.work with
      | some chain =>
        [.carryOn unfolding.node { chain with bundle := unfolding.handOn chain.bundle }]
      | none => [] }

/-- Unfolds on for a tick, or is full-grown. -/
def resume (unfolding : Unfolding H) (w : World H) : Resumption H :=
  match w.nodes.get? unfolding.node with
  | none => { step := .complete, continuation := .leaf unfolding, world := w }
  | some state =>
    if state.destroyed then { step := .complete, continuation := .leaf unfolding, world := w }
    else if unfolding.elapsed < unfolding.growTime then
      let unfolding := { unfolding with elapsed := unfolding.elapsed + w.deltaTime }
      let blade := unfolding.outline? (unfolding.elapsed / unfolding.growTime)
      { step := .pending, continuation := .leaf unfolding, world := unfolding.record w blade }
    else unfolding.finish w (unfolding.outline? 1)

end Unfolding

namespace World

/-- The outline of a baked leaf: the shared one of its node's identifier if there is one, and
otherwise its own, which is shared from then on. -/
def bakedOutline (w : World H) (unfolding : Unfolding H) : Option Blade × World H :=
  match (w.nodes.get? unfolding.node).bind (·.prefab) with
  | none => (unfolding.outline? 1, w)
  | some identifier =>
    match w.sharedBlades.find? identifier with
    | some shared => (some shared, w)
    | none =>
      match unfolding.outline? 1 with
      | some blade =>
        (some blade, { w with sharedBlades := w.sharedBlades.insert identifier blade })
      | none => (none, w)

/-- What a leaf does. -/
def leaf (w : World H) (shape : LeafShape) (node : NodeId) (bundle : Bundle H) (baked : Bool) :
    Effect H :=
  match w.coreOrWarn "leaf" node bundle with
  | (none, w) => { world := w }
  | (some core, w) =>
    match bundle.vec3? Key.heading with
    | none => { world := w.warn (.noHeading node) }
    | some heading =>
      let w :=
        if shape.hasSegments then w
        else w.warn (.noSegments node shape.medialSegments shape.lateralSegments)
      let unfolding : Unfolding H :=
        { node, shape, elapsed := 0, work := some { core, bundle }
          medialSize := (bundle.float? Key.leafMedialSize).getD shape.startMedialSize
          lateralSize := (bundle.float? Key.leafLateralSize).getD shape.startLateralSize
          growTime := (bundle.float? Key.leafGrowTime).getD shape.startGrowTime }
      if w.nodes.contains node then
        let w := w.mapNodes (·.place node (·.face heading))
        if baked then
          let (blade, w) := w.bakedOutline unfolding
          let done := unfolding.finish w blade
          { world := done.world, tasks := done.tasks }
        else if shape.animate then { world := w, continuation := some (.leaf unfolding) }
        else
          let done := unfolding.finish w (unfolding.outline? 1)
          { world := done.world, tasks := done.tasks }
      else { world := w }

end World
end PlantGrowth
