import PlantGrowth.Bundle.Basic
import PlantGrowth.Decimal.Layout

/-!
# Values in messages
-/

namespace PlantGrowth

/-- The name of a kind. -/
def Kind.name : Kind → String
  | .int => "Int"
  | .float => "Float"
  | .bool => "Bool"
  | .vec2 => "Vec2"
  | .vec3 => "Vec3"
  | .vec4 => "Vec4"
  | .rotation => "Rotation"
  | .curve => "Curve"
  | .color => "Color"
  | .sentence => "Sentence"
  | .rules => "Rules"
  | .registry => "Registry"
  | .callback => "Callback"

/-- Numbers with commas between them. -/
def Decimal.Layout.list (layout : Decimal.Layout) (xs : List Float) : String :=
  ", ".intercalate (xs.map layout.float)

/-- A curve in messages. -/
def Curve.describe (curve : Curve) : String :=
  let point (p : Float × Float) : String := "(" ++ Decimal.Layout.pointed.list [p.1, p.2] ++ ")"
  "Curve \x7b keys: [" ++ ", ".intercalate (curve.keys.map point) ++ "] \x7d"

/-- A colour in messages. -/
def Color.describe (color : Color) : String :=
  let part := Decimal.Layout.pointed.float32
  "Color \x7b r: " ++ part color.r ++ ", g: " ++ part color.g ++ ", b: " ++ part color.b ++
    ", a: " ++ part color.a ++ " \x7d"

/-- A value in messages. Rule sets and registries show their size only. -/
def Value.describe {H : Type} : Value H → String
  | .int n => "Int(" ++ toString n ++ ")"
  | .float x => "Float(" ++ Decimal.Layout.plain.float x ++ ")"
  | .bool b => "Bool(" ++ toString b ++ ")"
  | .vec2 x y => "Vec2(" ++ Decimal.Layout.plain.list [x, y] ++ ")"
  | .vec3 v => "Vec3(" ++ Decimal.Layout.plain.list [v.x, v.y, v.z] ++ ")"
  | .vec4 x y z w => "Vec4(" ++ Decimal.Layout.plain.list [x, y, z, w] ++ ")"
  | .rotation q => "Rotation([" ++ Decimal.Layout.pointed.list [q.i, q.j, q.k, q.w] ++ "])"
  | .curve c => c.describe
  | .color c => c.describe
  | .sentence s => "Sentence(" ++ quoted s.text ++ ")"
  | .rules r => "Rules(" ++ toString r.table.size ++ " rules)"
  | .registry r => "Registry(" ++ toString r.size ++ " handlers)"
  | .callback _ => "Callback(..)"

end PlantGrowth
