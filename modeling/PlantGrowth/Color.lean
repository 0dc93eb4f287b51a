import PlantGrowth.Json.Basic

/-!
# Colours

Colours have 32-bit components. Where one is written, its components are widened, which loses
nothing.
-/

namespace PlantGrowth

/-- Red, green, blue and opacity. -/
structure Color where
  r : Float32
  g : Float32
  b : Float32
  a : Float32 := 1
  deriving BEq, Repr, Inhabited

namespace Color

/-- Opaque white. -/
def white : Color := { r := 1, g := 1, b := 1 }

/-- The colour as an object. -/
def toJson (color : Color) : Json :=
  .obj [("r", .ofFloat (widen color.r)), ("g", .ofFloat (widen color.g)),
    ("b", .ofFloat (widen color.b)), ("a", .ofFloat (widen color.a))]

/-- Reads a colour, which is opaque unless it says otherwise. -/
def ofJson? (value : Json) : Option Color := do
  let r ← value.fieldOf "r" Json.toFloat32?
  let g ← value.fieldOf "g" Json.toFloat32?
  let b ← value.fieldOf "b" Json.toFloat32?
  let a ← value.fieldD "a" Json.toFloat32? 1
  pure ⟨r, g, b, a⟩

end Color
end PlantGrowth
