import PlantGrowth.Color
import PlantGrowth.Curve

/-!
# Shapes of leaves and their outlines

A leaf shape says how many segments a leaf has along its midrib and away from it, and how wide, how
folded and how curled it is in each of them. From a shape, two sizes and a progress between 0 and 1
follows the outline, the blade that the host turns into a mesh.
-/

namespace PlantGrowth

/-- A number brought between two bounds. What is no number stays none. -/
def clampFloat (x low high : Float) : Float :=
  let x := if x < low then low else x
  if x > high then high else x

/-- The outline of a leaf. -/
structure Blade where
  medialSize : Float
  lateralSize : Float
  medialSegments : Nat
  lateralSegments : Nat
  /-- How far the leaf has unfolded, from 0 to 1. -/
  progress : Float
  /-- Half the width at each vertex of the midrib, from the base on. -/
  widths : List Float
  /-- The fold in degrees at each vertex of the midrib. -/
  medialBend : List Float
  /-- The curl in degrees at each step away from the midrib. -/
  lateralCurl : List Float
  color : Color
  deriving BEq, Repr, Inhabited

/-- Segments, curves, sizes and change factors of leaves. -/
structure LeafShape where
  lateralSegments : Nat := 1
  medialSegments : Nat := 2
  startMedialSize : Float := 1
  startLateralSize : Float := 1
  startGrowTime : Float := 1
  /-- The width along the midrib, from base to tip. -/
  contour : Curve := .constant 1
  /-- The fold along the midrib, in quarter turns. -/
  medialRotation : Curve := .constant 0
  /-- The curl away from the midrib, in quarter turns. -/
  lateralRotation : Curve := .constant 0
  medialSizeFactor : Float := 1
  lateralSizeFactor : Float := 1
  growTimeFactor : Float := 1
  /-- Does the leaf unfold over time, or is it full-grown at once? -/
  animate : Bool := true
  color : Color := .white
  deriving BEq, Repr, Inhabited

namespace Blade

/-- The outline as an object. -/
def toJson (blade : Blade) : Json :=
  let numbers (xs : List Float) : Json := .arr (xs.map .ofFloat)
  .obj [("medial_size", .ofFloat blade.medialSize), ("lateral_size", .ofFloat blade.lateralSize),
    ("medial_segments", .ofNat blade.medialSegments),
    ("lateral_segments", .ofNat blade.lateralSegments),
    ("progress", .ofFloat blade.progress), ("widths", numbers blade.widths),
    ("medial_bend", numbers blade.medialBend), ("lateral_curl", numbers blade.lateralCurl),
    ("color", blade.color.toJson)]

end Blade

namespace LeafShape

/-- Is there at least one segment along the midrib and one away from it? -/
def hasSegments (shape : LeafShape) : Bool :=
  1 ≤ shape.medialSegments && 1 ≤ shape.lateralSegments

/-- The outline at a progress, for a full-grown leaf of the given sizes. A shape without segments
has none. -/
def outline? (shape : LeafShape) (medialSize lateralSize progress : Float) : Option Blade :=
  if shape.hasSegments then
    let progress := clampFloat progress 0 1
    let rows := (List.range (shape.medialSegments + 1)).map fun row =>
      Float.ofNat row / Float.ofNat shape.medialSegments
    let steps := (List.range shape.lateralSegments).map fun step => Float.ofNat (step + 1)
    some {
      medialSize := medialSize * progress
      lateralSize := lateralSize * progress
      medialSegments := shape.medialSegments
      lateralSegments := shape.lateralSegments
      progress
      widths := rows.map fun row => lateralSize * progress / 2 * shape.contour.valueAt row
      medialBend := rows.map fun row => 90 * shape.medialRotation.valueAt (progress * row)
      lateralCurl := steps.map fun step =>
        90 * shape.lateralRotation.valueAt (progress * step / Float.ofNat shape.lateralSegments)
      color := shape.color }
  else none

/-- The fields of the shape's object. -/
def fields (shape : LeafShape) : List (String × Json) :=
  [("lateral_segments", .ofNat shape.lateralSegments),
    ("medial_segments", .ofNat shape.medialSegments),
    ("start_medial_size", .ofFloat shape.startMedialSize),
    ("start_lateral_size", .ofFloat shape.startLateralSize),
    ("start_grow_time", .ofFloat shape.startGrowTime),
    ("contour", shape.contour.toJson),
    ("medial_rotation", shape.medialRotation.toJson),
    ("lateral_rotation", shape.lateralRotation.toJson),
    ("medial_size_change_coefficient", .ofFloat shape.medialSizeFactor),
    ("lateral_size_change_coefficient", .ofFloat shape.lateralSizeFactor),
    ("grow_time_change_coefficient", .ofFloat shape.growTimeFactor),
    ("animate", .bool shape.animate),
    ("color", shape.color.toJson)]

/-- Reads a shape; each of its fields may be left out. -/
def ofJson? (value : Json) : Option LeafShape := do
  let _ ← value.toObj?
  let usual : LeafShape := {}
  let number (key : String) (default : Float) := value.fieldD key Json.toFloat? default
  pure {
    lateralSegments := ←
      value.fieldD "lateral_segments" (Json.toNatBelow? UInt64.size) usual.lateralSegments
    medialSegments := ← value.fieldD "medial_segments" (Json.toNatBelow? UInt64.size) usual.medialSegments
    startMedialSize := ← number "start_medial_size" usual.startMedialSize
    startLateralSize := ← number "start_lateral_size" usual.startLateralSize
    startGrowTime := ← number "start_grow_time" usual.startGrowTime
    contour := ← value.fieldD "contour" Curve.ofJson? usual.contour
    medialRotation := ← value.fieldD "medial_rotation" Curve.ofJson? usual.medialRotation
    lateralRotation := ← value.fieldD "lateral_rotation" Curve.ofJson? usual.lateralRotation
    medialSizeFactor := ← number "medial_size_change_coefficient" usual.medialSizeFactor
    lateralSizeFactor := ← number "lateral_size_change_coefficient" usual.lateralSizeFactor
    growTimeFactor := ← number "grow_time_change_coefficient" usual.growTimeFactor
    animate := ← value.fieldD "animate" Json.toBool? usual.animate
    color := ← value.fieldD "color" Color.ofJson? usual.color }

end LeafShape
end PlantGrowth
