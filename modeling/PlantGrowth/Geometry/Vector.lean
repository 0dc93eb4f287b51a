import PlantGrowth.Json.Basic

/-!
# Vectors

Positions, headings and offsets in space. The order of the additions and multiplications below is
part of their meaning: how many ticks a branch grows hangs on exact comparisons of lengths.
-/

namespace PlantGrowth

/-- The least difference of floats next to 1. -/
def machineEpsilon : Float := Float.ofBits 0x3cb0000000000000

/-- A vector in space. -/
structure Vec3 where
  x : Float
  y : Float
  z : Float
  deriving BEq, Repr, Inhabited

namespace Vec3

/-- The origin. -/
def zero : Vec3 := ⟨0, 0, 0⟩

/-- The first unit vector. -/
def unitX : Vec3 := ⟨1, 0, 0⟩

/-- The second unit vector, which points up. -/
def unitY : Vec3 := ⟨0, 1, 0⟩

/-- The sum. -/
def add (a b : Vec3) : Vec3 := ⟨a.x + b.x, a.y + b.y, a.z + b.z⟩

/-- The difference. -/
def sub (a b : Vec3) : Vec3 := ⟨a.x - b.x, a.y - b.y, a.z - b.z⟩

/-- The vector stretched by a factor. -/
def scale (a : Vec3) (factor : Float) : Vec3 := ⟨a.x * factor, a.y * factor, a.z * factor⟩

/-- The vector shortened by a divisor. -/
def shrink (a : Vec3) (divisor : Float) : Vec3 := ⟨a.x / divisor, a.y / divisor, a.z / divisor⟩

/-- The scalar product. -/
def dot (a b : Vec3) : Float := a.x * b.x + a.y * b.y + a.z * b.z

/-- The vector product. -/
def cross (a b : Vec3) : Vec3 :=
  ⟨a.y * b.z - a.z * b.y, a.z * b.x - a.x * b.z, a.x * b.y - a.y * b.x⟩

/-- The square of the length. -/
def normSquared (a : Vec3) : Float := 0 + dot a a

/-- The length. -/
def norm (a : Vec3) : Float := a.normSquared.sqrt

/-- The vector of length one in the same direction, unless the length is at most `least`. -/
def normalize? (a : Vec3) (least : Float) : Option Vec3 :=
  if a.norm ≤ least then none else some (a.shrink a.norm)

/-- The vector of length one in the same direction, if the length, squared, exceeds `least`,
squared. A vector so short that its square vanishes has no direction. -/
def direction? (a : Vec3) (least : Float) : Option Vec3 :=
  if a.normSquared > least * least then some (a.shrink a.normSquared.sqrt) else none

instance : Add Vec3 := ⟨add⟩
instance : Sub Vec3 := ⟨sub⟩

/-! ## In JSON -/

/-- The components as an array. -/
def toJson (a : Vec3) : Json := .arr [.ofFloat a.x, .ofFloat a.y, .ofFloat a.z]

/-- Reads a vector from an array of exactly three numbers. -/
def ofJson? : Json → Option Vec3
  | .arr [x, y, z] => do pure ⟨← x.toFloat?, ← y.toFloat?, ← z.toFloat?⟩
  | _ => none

end Vec3
end PlantGrowth
