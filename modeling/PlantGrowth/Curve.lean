import PlantGrowth.Json.Basic

/-!
# Curves

A curve goes through its key points in straight lines and stays level before the first and after the
last. `Curve.ofPoints` sorts the points by time; a curve read from JSON keeps the order it was
written in.
-/

namespace PlantGrowth

/-- A place of every float in one line, from the negative not-a-number to the positive one. -/
def floatRank (x : Float) : Int :=
  let bits : Nat := x.toBits.toNat
  if bits < 0x8000000000000000 then bits else 0x7fffffffffffffff - (bits : Int)

/-- Key points as pairs of time and value. -/
structure Curve where
  keys : List (Float × Float)
  deriving BEq, Repr, Inhabited

namespace Curve

/-- The curve through the given points, sorted by time; points of one time keep their order. -/
def ofPoints (points : List (Float × Float)) : Curve :=
  ⟨points.mergeSort fun a b => floatRank a.1 ≤ floatRank b.1⟩

/-- The level curve. -/
def constant (value : Float) : Curve := ofPoints [(0, value), (1, value)]

/-- The value at a time on the line between two points. -/
def between (a b : Float × Float) (time : Float) : Float :=
  let span := b.1 - a.1
  if span ≤ 0 then b.2 else a.2 + (b.2 - a.2) * (time - a.1) / span

/-- The value at a time after the point `a`, and `beyond` if no later point reaches that time. -/
def valueFrom (time beyond : Float) (a : Float × Float) : List (Float × Float) → Float
  | [] => beyond
  | b :: rest => if time ≤ b.1 then between a b time else valueFrom time beyond b rest

/-- The value at a time; zero for a curve without points. -/
def valueAt (curve : Curve) (time : Float) : Float :=
  match curve.keys with
  | [] => 0
  | first :: rest =>
    let last := rest.getLastD first
    if time ≤ first.1 then first.2
    else if time ≥ last.1 then last.2
    else valueFrom time last.2 first rest

/-! ## In JSON -/

/-- A point as a pair. -/
def pointJson (point : Float × Float) : Json := .arr [.ofFloat point.1, .ofFloat point.2]

/-- Reads a point. -/
def point? : Json → Option (Float × Float)
  | .arr [time, value] => do pure (← time.toFloat?, ← value.toFloat?)
  | _ => none

/-- The curve as an object. -/
def toJson (curve : Curve) : Json := .obj [("keys", .arr (curve.keys.map pointJson))]

/-- Reads a curve. -/
def ofJson? (value : Json) : Option Curve := do
  let items ← value.fieldOf "keys" Json.toArr?
  pure ⟨← items.mapM point?⟩

end Curve
end PlantGrowth
