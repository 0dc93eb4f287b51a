import PlantGrowth.Geometry.Rotation

/-!
# Placements

A transform places a node in the world: where it is, how it is turned, how large it is.
-/

namespace PlantGrowth

/-- A placement in the world. -/
structure Transform where
  position : Vec3
  rotation : Rotation
  scale : Float
  deriving BEq, Repr

namespace Transform

/-- At the origin, neither turned nor scaled. -/
def identity : Transform := ⟨Vec3.zero, Rotation.identity, 1⟩

instance : Inhabited Transform := ⟨identity⟩

/-- At a position, neither turned nor scaled. -/
def atPosition (position : Vec3) : Transform := { identity with position }

/-- The up direction of what is placed. -/
def up (t : Transform) : Vec3 := t.rotation.apply Vec3.unitY

/-- Turns the up direction to a heading. -/
def face (t : Transform) (heading : Vec3) : Transform := { t with rotation := .towards heading }

/-- Moves by an offset. -/
def move (t : Transform) (offset : Vec3) : Transform :=
  { t with position := t.position.add offset }

/-- The placement in the world of what `local` places relative to `t`. -/
def compose (t inner : Transform) : Transform :=
  { position := t.position.add (t.rotation.apply (inner.position.scale t.scale))
    rotation := t.rotation.mul inner.rotation
    scale := t.scale * inner.scale }

section Compose

variable (t inner : Transform)

/-- What is placed at a distance from the origin is stretched, then turned, then moved. -/
@[simp] theorem position_compose : (t.compose inner).position =
    t.position.add (t.rotation.apply (inner.position.scale t.scale)) := rfl

/-- It is first turned as it is itself, then with all that is placed. -/
@[simp] theorem rotation_compose : (t.compose inner).rotation = t.rotation.mul inner.rotation := rfl

@[simp] theorem scale_compose : (t.compose inner).scale = t.scale * inner.scale := rfl

end Compose

end Transform
end PlantGrowth
