import PlantGrowth.Arena.Subtree
import PlantGrowth.World.Task

/-!
# Seeds and baked structure

A seed writes its plant's sentence, registry and rules into the bundle and starts the chain. A baked
seed whose node has an identifier does so only once for all seeds of that identifier: what has grown
becomes a prototype, hidden and dead, and every seed, the first one too, shows a copy of it. Copies
are varied at random in rotation and scale, and may grow in from nothing.

While some prototype is still being grown nothing grows in, because what is placed then becomes part
of that prototype and has to be copied at its full size.
-/

namespace PlantGrowth

variable {H : Type}

namespace Seed

/-- The sentence and the rules that the chain starts with. Rules that were applied in advance are
infertile from then on. -/
def grammar (seed : Seed H) : Sentence × RuleSet :=
  let start := Sentence.ofString seed.traits.start
  let rules := seed.traits.rules
  match seed.traits.mode with
  | .inAdvance =>
    (rules.generation seed.traits.iterations.toNat start, { rules with fertile := false })
  | .alongTheWay => (start, { rules with fertile := true })

/-- The last generation that the chain may reach. -/
def ceiling (seed : Seed H) : Int :=
  match seed.traits.mode with
  | .inAdvance => 0
  | .alongTheWay => seed.traits.iterations

/-- The chain of a seed whose node is at the given position. -/
def chain (seed : Seed H) (position : Vec3) (bundle : Bundle H) : Chain H :=
  let (sentence, rules) := seed.grammar
  let bundle := bundle.write Key.iterations (.int seed.ceiling)
  let bundle := bundle.write Key.generation (.int 0)
  let bundle := bundle.write Key.sentence (.sentence sentence)
  let bundle := bundle.write Key.registry (.registry seed.registry)
  let bundle := bundle.write Key.rules (.rules rules)
  let bundle := (bundle.add Key.position (.vec3 position)).2
  let heading : Value H := .vec3 seed.traits.heading
  let bundle :=
    if seed.traits.inheritHeading then (bundle.add Key.heading heading).2
    else bundle.write Key.heading heading
  { core := { sentence, registry := seed.registry, rules }, bundle }

/-- Starts the chain of a seed, unless this instance has started it before. -/
def startChain (seed : Seed H) (w : World H) (node : NodeId) (bundle : Bundle H) :
    Seed H × List (Task H) :=
  if seed.executed then (seed, [])
  else
    let position := ((w.nodes.get? node).map (·.transform.position)).getD Vec3.zero
    ({ seed with executed := true }, [.carryOn node (seed.chain position bundle)])

end Seed

namespace World

/-- A placement at a position, turned to the heading, varied at random. -/
def placement (w : World H) (variation : Variation) (position heading : Vec3) :
    Transform × World H :=
  let (spin, w) := w.drawRotation variation.rotationMin variation.rotationMax
  let (scale, w) := w.drawBetween variation.scaleMin variation.scaleMax
  ({ position, rotation := (Rotation.towards heading).mul spin, scale }, w)

/-- Lets an instance grow in from nothing, if the variation says so and no prototype is being grown.
-/
def emerge (w : World H) (variation : Variation) (instanceId : NodeId) : World H :=
  if !variation.scaleOnSpawn || w.prefabs.isGrowing then w
  else
    match w.nodes.get? instanceId with
    | none => w
    | some state =>
      let w := w.mapNodes (·.place instanceId fun t => { t with scale := 0 })
      w.park (.emergence
        { node := instanceId, endScale := state.transform.scale, elapsed := 0
          duration := variation.scaleTime })

/-- Places a copy of a prototype that is there already. -/
def placeInstance (w : World H) (identifier : String) (prototype : NodeId) (parent : Option NodeId)
    (placement : Transform) (variation : Variation) : World H :=
  match w.nodes.copyPrototype prototype parent placement with
  | (none, nodes) => { w with nodes }
  | (some root, nodes) =>
    { w with nodes := nodes.rename root ("Instance_" ++ identifier) }.emerge variation root

/-- Makes a prototype of the structure that has grown under a node, registers it and leaves a dead
copy of it in the scene. -/
def publish (w : World H) (prefab : Prefab) : World H :=
  let nodes := w.nodes.moveToOrigin prefab.node
  let (copy, nodes) := nodes.copySubtree prefab.node prefab.anchor prefab.placement
  let nodes := nodes.freeze prefab.node
  let nodes := nodes.rename prefab.node ("Prototype_" ++ prefab.identifier)
  let (registered, prefabs) := w.prefabs.register prefab.identifier prefab.node
  let w := { w with nodes, prefabs }
  let w :=
    match registered with
    | .ok _ => w
    | .error cause => w.warn (.bakeRefused prefab.node cause)
  match copy with
  | none => w
  | some root =>
    let w := w.mapNodes fun nodes =>
      (nodes.modifyAll (nodes.subtree root) fun node => { node with dead := true }).rename root
        ("InitialInstance_" ++ prefab.identifier)
    w.emerge prefab.variation root

/-- What a seed does live. -/
def seedLive (w : World H) (seed : Seed H) (node : NodeId) (bundle : Bundle H) :
    Seed H × Effect H :=
  if w.nodes.isDead node then (seed, { world := w })
  else
    let (seed, tasks) := seed.startChain w node bundle
    (seed, { world := w, tasks })

/-- What a baked seed does. -/
def seedBaked (w : World H) (seed : Seed H) (node : NodeId) (bundle : Bundle H) :
    Seed H × Effect H :=
  match w.nodes.get? node with
  | none => (seed, { world := w })
  | some state =>
    if state.dead then (seed, { world := w })
    else
      match state.prefab with
      | none =>
        let (seed, tasks) := seed.startChain w node bundle
        (seed, { world := w, tasks })
      | some identifier =>
        let variation := seed.traits.variation
        let anchor := state.previous
        let position :=
          match anchor.bind w.nodes.get? with
          | some node => node.transform.position
          | none => state.transform.position
        let heading := (bundle.vec3? Key.heading).getD Vec3.unitY
        let (placement, w) := w.placement variation position heading
        let (found, prefabs) := w.prefabs.lookup identifier
        let w := { w with prefabs }
        match found with
        | .hit prototype =>
          let parent := anchor.or (some node)
          (seed, { world := w.placeInstance identifier prototype parent placement variation })
        | .inProgress => (seed, { world := w })
        | .miss =>
          let w := { w with prefabs := (w.prefabs.claim identifier).2 }
          let (seed, tasks) := seed.startChain w node bundle
          (seed,
            { world := w
              tasks := tasks ++ [.publish { node, identifier, anchor, placement, variation }] })

end World

/-- Grows an instance in for a tick. -/
def Emergence.resume (scaling : Emergence) (w : World H) : Resumption H :=
  let scaling := { scaling with elapsed := scaling.elapsed + w.deltaTime }
  let done := decide (scaling.duration ≤ scaling.elapsed)
  let scale :=
    if done then scaling.endScale else scaling.endScale * scaling.elapsed / scaling.duration
  if w.nodes.contains scaling.node then
    { step := if done then .complete else .pending
      continuation := .emergence scaling
      world := w.mapNodes (·.place scaling.node fun t => { t with scale }) }
  else { step := .complete, continuation := .emergence scaling, world := w }

end PlantGrowth
