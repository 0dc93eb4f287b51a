import PlantGrowth.Handler.Basic
import PlantGrowth.Symbol.Codec

/-!
# Derivation modes and variations in JSON
-/

namespace PlantGrowth

namespace DerivationMode

/-- The names of the modes. -/
def choices : List (String × DerivationMode) :=
  [("PreEdgeRewrite", .inAdvance), ("IterativeNodeRewrite", .alongTheWay)]

/-- The mode by its name. -/
def toJson : DerivationMode → Json
  | .inAdvance => .str "PreEdgeRewrite"
  | .alongTheWay => .str "IterativeNodeRewrite"

/-- Reads a mode. -/
def ofJson? (value : Json) : Option DerivationMode := value.toChoice? choices

end DerivationMode

namespace Variation

/-- The variation as an object. -/
def toJson (variation : Variation) : Json :=
  .obj [("rotation_min", variation.rotationMin.toJson),
    ("rotation_max", variation.rotationMax.toJson),
    ("scale_min", .ofFloat variation.scaleMin), ("scale_max", .ofFloat variation.scaleMax),
    ("scale_on_spawn", .bool variation.scaleOnSpawn), ("scale_time", .ofFloat variation.scaleTime)]

/-- Reads a variation; each of its fields may be left out. -/
def ofJson? (value : Json) : Option Variation := do
  let _ ← value.toObj?
  let usual : Variation := {}
  pure {
    rotationMin := ← value.fieldD "rotation_min" Vec3.ofJson? usual.rotationMin
    rotationMax := ← value.fieldD "rotation_max" Vec3.ofJson? usual.rotationMax
    scaleMin := ← value.fieldD "scale_min" Json.toFloat? usual.scaleMin
    scaleMax := ← value.fieldD "scale_max" Json.toFloat? usual.scaleMax
    scaleOnSpawn := ← value.fieldD "scale_on_spawn" Json.toBool? usual.scaleOnSpawn
    scaleTime := ← value.fieldD "scale_time" Json.toFloat? usual.scaleTime }

end Variation
end PlantGrowth
