import PlantGrowth.Geometry.Vector

/-!
# Rotations

A rotation is a quaternion of length one. Products and turned vectors are not normalised again, so
the components are what the formulas below give and nothing else.
-/

namespace PlantGrowth

/-- Half a turn in radians. -/
def halfTurn : Float := 3.141592653589793

/-- Degrees as radians. -/
def radians (degrees : Float) : Float := degrees * (halfTurn / 180)

/-- A quaternion with the vector part `(i, j, k)` and the scalar part `w`. -/
structure Rotation where
  i : Float
  j : Float
  k : Float
  w : Float
  deriving BEq, Repr

namespace Rotation

/-- The rotation that turns nothing. -/
def identity : Rotation := ⟨0, 0, 0, 1⟩

instance : Inhabited Rotation := ⟨identity⟩

/-- The turn by `angle` about an axis of length one. -/
def ofAxisAngle (axis : Vec3) (angle : Float) : Rotation :=
  let v := axis.scale (angle / 2).sin
  ⟨v.x, v.y, v.z, (angle / 2).cos⟩

/-- The turn by roll, pitch and yaw, one after the other. -/
def ofEuler (roll pitch yaw : Float) : Rotation :=
  let sr := (roll * 0.5).sin
  let cr := (roll * 0.5).cos
  let sp := (pitch * 0.5).sin
  let cp := (pitch * 0.5).cos
  let sy := (yaw * 0.5).sin
  let cy := (yaw * 0.5).cos
  { w := cr * cp * cy + sr * sp * sy
    i := sr * cp * cy - cr * sp * sy
    j := cr * sp * cy + sr * cp * sy
    k := cr * cp * sy - sr * sp * cy }

/-- First `p`, then `q`. -/
def mul (q p : Rotation) : Rotation :=
  { w := q.w * p.w - q.i * p.i - q.j * p.j - q.k * p.k
    i := q.w * p.i + q.i * p.w + q.j * p.k - q.k * p.j
    j := q.w * p.j - q.i * p.k + q.j * p.w + q.k * p.i
    k := q.w * p.k + q.i * p.j - q.j * p.i + q.k * p.w }

instance : Mul Rotation := ⟨mul⟩

/-- The turned vector. -/
def apply (q : Rotation) (v : Vec3) : Vec3 :=
  let u : Vec3 := ⟨q.i, q.j, q.k⟩
  let t := (u.cross v).scale 2
  (t.scale q.w).add (u.cross t) |>.add v

/-- The shortest turn that takes the direction of `a` to that of `b`. Opposite directions have none,
and a vector without direction needs none. -/
def between? (a b : Vec3) : Option Rotation :=
  match a.direction? 0, b.direction? 0 with
  | some na, some nb =>
    match (na.cross nb).direction? machineEpsilon with
    | some axis =>
      let cosine := na.dot nb
      if cosine ≤ -1 then none
      else if cosine ≥ 1 then some identity
      else some (ofAxisAngle axis (cosine.acos * 1))
    | none => if na.dot nb < 0 then none else some identity
  | _, _ => some identity

/-- A turn that takes the up direction to `heading`: no turn for a heading without length, and half
a turn about a horizontal axis for one that points down. -/
def towards (heading : Vec3) : Rotation :=
  if heading.normSquared == 0 then identity
  else (between? Vec3.unitY heading).getD (ofAxisAngle Vec3.unitX halfTurn)

end Rotation
end PlantGrowth
