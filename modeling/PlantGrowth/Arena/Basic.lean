import PlantGrowth.Geometry.Transform
import PlantGrowth.Sentence.Basic
import PlantGrowth.Shape.Leaf

/-!
# Nodes and the arena that holds them

Every handler that acts on a plant does so at a node of its own. A node is named by its position in
the arena and stays there for good: destroying it only marks it, so a name never comes to mean
another node.

Two relations join the nodes. `previous` is given once, when a node is made, and leads back along
the chain that made it. `parent` and `children` are the scene that the host draws; they can change.
-/

namespace PlantGrowth

/-- The name of a node: its position in the arena. -/
abbrev NodeId := Nat

/-- The dimensions of a grown branch. -/
structure Segment where
  length : Float
  bottomRadius : Float
  topRadius : Float
  faces : Nat
  deriving BEq, Repr, Inhabited

namespace Segment

/-- The segment as an object. -/
def toJson (segment : Segment) : Json :=
  .obj [("length", .ofFloat segment.length), ("bottom_radius", .ofFloat segment.bottomRadius),
    ("top_radius", .ofFloat segment.topRadius), ("faces", .ofNat segment.faces)]

end Segment

/-- What a new node is made from. -/
structure NodeDraft where
  symbol : Char := sentinel
  name : String := ""
  previous : Option NodeId := none
  ethereal : Bool := false
  baked : Bool := false
  prefab : Option String := none
  deriving DecidableEq, Repr, Inhabited

/-- A node of a plant. -/
structure Node where
  symbol : Char
  name : String
  /-- The node after which this one was made. -/
  previous : Option NodeId
  parent : Option NodeId
  children : List NodeId
  /-- An ethereal node never anchors what follows it. -/
  ethereal : Bool
  /-- A dead node never continues its chain. -/
  dead : Bool
  /-- A baked node continues its chain at once, without the scheduler. -/
  baked : Bool
  destroyed : Bool
  hidden : Bool
  /-- The identifier under which baked structure is shared. -/
  prefab : Option String
  transform : Transform
  segment : Option Segment
  blade : Option Blade
  deriving BEq, Repr, Inhabited

/-- Neither destroyed nor hidden. -/
def Node.visible (node : Node) : Bool := !node.destroyed && !node.hidden

/-- All nodes ever made, in the order of their making. -/
structure Arena where
  nodes : Array Node := #[]
  deriving BEq, Repr, Inhabited

namespace Arena

/-- The number of nodes ever made. -/
def size (arena : Arena) : Nat := arena.nodes.size

/-- The node of a name. -/
def get? (arena : Arena) (id : NodeId) : Option Node := arena.nodes[id]?

/-- Does the name name a node? -/
def contains (arena : Arena) (id : NodeId) : Bool := id < arena.size

/-- Changes one node. A name without a node changes nothing. -/
def modify (arena : Arena) (id : NodeId) (change : Node → Node) : Arena :=
  ⟨arena.nodes.modify id change⟩

theorem get?_eq_none_iff {arena : Arena} {id : NodeId} :
    arena.get? id = none ↔ arena.size ≤ id :=
  Array.getElem?_eq_none_iff

@[simp] theorem size_modify (arena : Arena) (id : NodeId) (change : Node → Node) :
    (arena.modify id change).size = arena.size :=
  Array.size_modify

/-- A change of one node is seen at its name and nowhere else. -/
theorem get?_modify (arena : Arena) (id other : NodeId) (change : Node → Node) :
    (arena.modify id change).get? other =
      if id = other then (arena.get? other).map change else arena.get? other :=
  Array.getElem?_modify

/-- The number of visible nodes. -/
def visibleCount (arena : Arena) : Nat := arena.nodes.countP Node.visible

/-- Moves a node in the scene: away from its old parent, to the end of the new parent's children. A
parent that does not exist is none. -/
def hang (arena : Arena) (id : NodeId) (parent : Option NodeId) : Arena :=
  let left :=
    match (arena.get? id).bind (·.parent) with
    | some old => arena.modify old fun node =>
        { node with children := node.children.filter (· != id) }
    | none => arena
  let parent := parent.filter arena.contains
  let joined :=
    match parent with
    | some new => left.modify new fun node => { node with children := node.children ++ [id] }
    | none => left
  joined.modify id fun node => { node with parent }

@[simp] theorem size_hang (arena : Arena) (id : NodeId) (parent : Option NodeId) :
    (arena.hang id parent).size = arena.size := by
  simp only [hang, size_modify]
  split <;> split <;> simp

/-- Makes a node below the previous one, at the place of that one. -/
def addNode (arena : Arena) (draft : NodeDraft) : NodeId × Arena :=
  let id := arena.size
  let transform :=
    match draft.previous.bind arena.get? with
    | some previous => Transform.atPosition previous.transform.position
    | none => Transform.identity
  let node : Node :=
    { symbol := draft.symbol, name := draft.name, previous := draft.previous, parent := none
      children := [], ethereal := draft.ethereal, dead := false, baked := draft.baked
      destroyed := false, hidden := false, prefab := draft.prefab, transform
      segment := none, blade := none }
  (id, hang ⟨arena.nodes.push node⟩ id draft.previous)

@[simp] theorem fst_addNode (arena : Arena) (draft : NodeDraft) :
    (arena.addNode draft).1 = arena.size := rfl

@[simp] theorem size_addNode (arena : Arena) (draft : NodeDraft) :
    (arena.addNode draft).2.size = arena.size + 1 := by
  rw [addNode, size_hang]
  exact Array.size_push _

/-- The first node from `id` back along `previous` that is not ethereal, reached in at most `limit`
nodes; none if that node is destroyed or missing. -/
def anchorWithin (arena : Arena) : Nat → NodeId → Option NodeId
  | 0, _ => none
  | limit + 1, id =>
    match arena.get? id with
    | none => none
    | some node =>
      if node.ethereal then
        match node.previous with
        | some previous => anchorWithin arena limit previous
        | none => none
      else if node.destroyed then none
      else some id

/-- The nearest node at or before `id` that can anchor what follows. A way back that repeats no node
is no longer than the arena. -/
def nearestAnchor (arena : Arena) (id : NodeId) : Option NodeId :=
  arena.anchorWithin (arena.size + 1) id

/-- A node that is missing counts as dead. -/
def isDead (arena : Arena) (id : NodeId) : Bool :=
  match arena.get? id with
  | some node => node.dead
  | none => true

/-- Lets a node's chain end. -/
def kill (arena : Arena) (id : NodeId) : Arena :=
  arena.modify id fun node => { node with dead := true }

/-- Marks a node as gone. -/
def destroy (arena : Arena) (id : NodeId) : Arena :=
  arena.modify id fun node => { node with destroyed := true }

/-- Changes a node's placement. -/
def place (arena : Arena) (id : NodeId) (change : Transform → Transform) : Arena :=
  arena.modify id fun node => { node with transform := change node.transform }

/-- Renames a node. -/
def rename (arena : Arena) (id : NodeId) (name : String) : Arena :=
  arena.modify id fun node => { node with name }

end Arena
end PlantGrowth
