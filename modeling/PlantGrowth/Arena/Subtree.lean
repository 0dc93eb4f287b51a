import PlantGrowth.Arena.Basic

/-!
# Subtrees

The subtree under a node is what the host draws when it draws that node: the node and, through
children that are not destroyed, everything below it. It is listed in pre-order by a walk with a
stack of nodes still to visit. Whole subtrees are copied, with the links inside a copy pointing into
the copy.
-/

namespace PlantGrowth
namespace Arena

/-- The number of nodes that a walk of the subtree under `id` takes from its stack, if the scene is
at most `depth` levels deep. -/
def visits (arena : Arena) : Nat → NodeId → Nat
  | 0, _ => 0
  | depth + 1, id =>
    match arena.get? id with
    | some node =>
      if node.destroyed then 1 else 1 + (node.children.map (visits arena depth)).sum
    | none => 1

/-- The walk: takes the first node from the stack, lists it and puts its children in its place.
Nodes that are missing or destroyed are passed over, with all below them. At most `limit` nodes are
taken. -/
def walk (arena : Arena) : Nat → List NodeId → List NodeId
  | 0, _ => []
  | _ + 1, [] => []
  | limit + 1, id :: stack =>
    match arena.get? id with
    | some node =>
      if node.destroyed then walk arena limit stack
      else id :: walk arena limit (node.children ++ stack)
    | none => walk arena limit stack

/-- The nodes under `root`, itself included, in pre-order. A scene without cycles has no more levels
than nodes, so the walk is over when its limit is reached. -/
def subtree (arena : Arena) (root : NodeId) : List NodeId :=
  arena.walk (arena.visits (arena.size + 1) root) [root]

/-- Changes all nodes of a list. -/
def modifyAll (arena : Arena) (ids : List NodeId) (change : Node → Node) : Arena :=
  ids.foldl (fun arena id => arena.modify id change) arena

/-- The copy of a node of a subtree, `remap` being the way from nodes of the subtree to their
copies. A link to the previous node that leaves the subtree is led to `parent`. -/
def copyNode (remap : NodeId → Option NodeId) (parent : Option NodeId) (placement : Transform)
    (source : Node) : Node :=
  { source with
    previous := (source.previous.bind remap).or parent
    parent := source.parent.bind remap
    children := source.children.filterMap remap
    transform := placement.compose source.transform }

/-- Copies the subtree under `root` to the end of the arena, in pre-order, and hangs the copy from
`parent`. Every placement in the copy is relative to `placement`. There is no copy of a subtree
without nodes. -/
def copySubtree (arena : Arena) (root : NodeId) (parent : Option NodeId) (placement : Transform) :
    Option NodeId × Arena :=
  let ids := arena.subtree root
  let base := arena.size
  if ids.isEmpty then (none, arena)
  else
    let remap (id : NodeId) : Option NodeId := (ids.idxOf? id).map (base + ·)
    let copies := (ids.filterMap arena.get?).map (copyNode remap parent placement)
    let extended : Arena := ⟨arena.nodes ++ copies.toArray⟩
    let loose := extended.modify base fun node => { node with parent := none }
    (some base, loose.hang base parent)

/-! ## Prototypes -/

/-- Moves the subtree under `root` so that `root` comes to lie at the origin, not turned and not
scaled. The nodes below keep their offset from it. -/
def moveToOrigin (arena : Arena) (root : NodeId) : Arena :=
  match arena.get? root with
  | none => arena
  | some node =>
    let origin := node.transform.position
    let moved := arena.modifyAll (arena.subtree root) fun node =>
      { node with transform :=
        { node.transform with position := node.transform.position.sub origin } }
    moved.place root fun _ => Transform.identity

/-- Turns the subtree under `root` into a prototype: out of the scene, all of it dead and hidden. -/
def freeze (arena : Arena) (root : NodeId) : Arena :=
  let detached := arena.hang root none
  detached.modifyAll (detached.subtree root) fun node => { node with dead := true, hidden := true }

/-- Copies a prototype into the scene. The copy is visible, and dead as the prototype is, because it
is structure that has grown already. -/
def copyPrototype (arena : Arena) (prototype : NodeId) (parent : Option NodeId)
    (placement : Transform) : Option NodeId × Arena :=
  match arena.copySubtree prototype parent placement with
  | (some root, arena) =>
    (some root, arena.modifyAll (arena.subtree root) fun node => { node with hidden := false })
  | (none, arena) => (none, arena)

end Arena
end PlantGrowth
