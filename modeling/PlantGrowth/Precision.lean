/-!
# Numbers of 32 and of 64 bits

A number is rounded to the nearest one of another format, and of two that are equally near to the one
whose last bit is zero. A number that is too large for the format becomes infinite.
-/

namespace PlantGrowth

open Float.Model (Format UnpackedFloat)

/-- The nearest number of a format. -/
def rounded (format : Format) : UnpackedFloat → UnpackedFloat
  | .finite sign mantissa exponent _ => UnpackedFloat.round format sign mantissa exponent
  | special => special

/-- A number of 32 bits as one of 64 bits. -/
def widen (x : Float32) : Float := .ofModel (.pack (rounded .binary64 x.toModel.unpack))

/-- The number of 32 bits nearest to one of 64 bits. -/
def narrow (x : Float) : Float32 := .ofModel (.pack (rounded .binary32 x.toModel.unpack))

end PlantGrowth
