import PlantGrowth.Random.Keystream

/-!
# Random numbers

A generator is a key and the number of draws so far. A draw between equal or non-finite bounds takes
nothing from the stream; that is why a plant without randomness does not depend on the seed.

Two finite bounds can be so far apart that their distance is no finite number. A draw between them is
refused: there is no number, and the program that asked for it stops. The generator counts the draws
that it refused, so that whoever drives the program sees it (`World.drewAll`).
-/

namespace PlantGrowth

/-- A generator of random numbers. -/
structure Random where
  key : List UInt32
  drawn : Nat
  /-- The number of draws that were refused. -/
  refused : Nat
  deriving DecidableEq, Repr, Inhabited

namespace Random

/-- The generator with a given seed. -/
def ofSeed (seed : Nat) : Random := ⟨Keystream.key (UInt64.ofNat seed), 0, 0⟩

/-- The next double word of the stream. -/
def next (r : Random) : UInt64 × Random :=
  (Keystream.word64 r.key r.drawn, { r with drawn := r.drawn + 1 })

/-- The least float above zero that the unit interval is divided into. -/
def unitStep : Float := Float.ofBits 0x3cb0000000000000

/-- The largest number below one that a draw from the unit interval can give. -/
def unitMax : Float := 1 - unitStep

/-- The first float at or below the one with the given bits that, as a scale, keeps draws from `low`
on within `high`. -/
def fitScale (low high : Float) : Nat → Float
  | 0 => 0
  | bits + 1 =>
    let scale := Float.ofBits (UInt64.ofNat (bits + 1))
    if scale * unitMax + low > high then fitScale low high bits else scale

/-- The scale that takes the unit interval from `low` to `high`, the smaller one first. -/
def scale (low high : Float) : Float := (high - low) / unitMax

/-- A number drawn between two different finite bounds, the smaller one first. If their scale is not
finite the draw is refused, and the first of them stands for the number that there is not. -/
def draw (r : Random) (low high : Float) : Float × Random :=
  if (scale low high).isFinite then
    let scale := fitScale low high (scale low high).toBits.toNat
    let (word, r) := r.next
    ((word >>> 12).toFloat * unitStep * scale + low, r)
  else (low, { r with refused := r.refused + 1 })

/-- A number drawn between two bounds in either order. Nothing is drawn between equal or non-finite
bounds: the result then is the first of them. -/
def range (r : Random) (first second : Float) : Float × Random :=
  if first == second || !first.isFinite || !second.isFinite then (first, r)
  else if first < second then r.draw first second
  else r.draw second first

end Random
end PlantGrowth
