import PlantGrowth.Json.Basic

/-!
# Shapes of branches

A branch shape gives the dimensions of the first branch of a chain, the factors by which they change
from one branch to the next, and the sizes below which growth ends.
-/

namespace PlantGrowth

/-- Start values, change factors and cutoffs of branches. -/
structure BranchShape where
  lengthCutoff : Float := 0.001
  radiusCutoff : Float := 0.001
  startLength : Float := 1
  lengthFactor : Float := 1
  startRadius : Float := 1
  radiusFactor : Float := 1
  topRadiusFactor : Float := 1
  bottomRadiusFactor : Float := 1
  startSpeed : Float := 4
  speedFactor : Float := 1
  startFaces : Float := 6
  facesFactor : Float := 0.8
  /-- The symbol of the handler that is placed at the growing tip. -/
  tipSymbol : Option Char := none
  deriving BEq, Repr, Inhabited

namespace BranchShape

/-- The fields of the shape's object. -/
def fields (shape : BranchShape) : List (String × Json) :=
  [("length_cutoff", .ofFloat shape.lengthCutoff),
    ("radius_cutoff", .ofFloat shape.radiusCutoff),
    ("start_length", .ofFloat shape.startLength),
    ("length_change_coefficient", .ofFloat shape.lengthFactor),
    ("start_radius", .ofFloat shape.startRadius),
    ("radius_change_coefficient", .ofFloat shape.radiusFactor),
    ("top_radius_multiplier", .ofFloat shape.topRadiusFactor),
    ("bottom_radius_multiplier", .ofFloat shape.bottomRadiusFactor),
    ("start_grow_speed", .ofFloat shape.startSpeed),
    ("grow_speed_change_coefficient", .ofFloat shape.speedFactor),
    ("start_face_num", .ofFloat shape.startFaces),
    ("face_num_change_coefficient", .ofFloat shape.facesFactor),
    ("end_symbol", .ofOption .ofSymbol shape.tipSymbol)]

/-- Reads a shape; each of its fields may be left out. -/
def ofJson? (value : Json) : Option BranchShape := do
  let _ ← value.toObj?
  let usual : BranchShape := {}
  let number (key : String) (default : Float) := value.fieldD key Json.toFloat? default
  pure {
    lengthCutoff := ← number "length_cutoff" usual.lengthCutoff
    radiusCutoff := ← number "radius_cutoff" usual.radiusCutoff
    startLength := ← number "start_length" usual.startLength
    lengthFactor := ← number "length_change_coefficient" usual.lengthFactor
    startRadius := ← number "start_radius" usual.startRadius
    radiusFactor := ← number "radius_change_coefficient" usual.radiusFactor
    topRadiusFactor := ← number "top_radius_multiplier" usual.topRadiusFactor
    bottomRadiusFactor := ← number "bottom_radius_multiplier" usual.bottomRadiusFactor
    startSpeed := ← number "start_grow_speed" usual.startSpeed
    speedFactor := ← number "grow_speed_change_coefficient" usual.speedFactor
    startFaces := ← number "start_face_num" usual.startFaces
    facesFactor := ← number "face_num_change_coefficient" usual.facesFactor
    tipSymbol := ← value.fieldD "end_symbol" (Json.toOption? Json.toSymbol?) usual.tipSymbol }

end BranchShape
end PlantGrowth
