/-!
# The shortest decimal that reads back

A binary floating-point number stands for all reals that round to it: those from half-way to its
lower neighbour up to half-way to its upper one, the two ends included exactly when its mantissa is
even. Among the decimals in that interval the ones with the fewest digits are chosen, and of those
the one nearest to the number, the larger of two equally near ones.

All of it is exact arithmetic on natural numbers: the number is `mantissa * 2 ^ exponent`, and every
comparison is one of cross-multiplied fractions.
-/

namespace PlantGrowth

/-- A positive binary number `mantissa * 2 ^ exponent`. Just above a power of two the gap below is
half the gap above; such a number is `narrow`. -/
structure Binary where
  mantissa : Nat
  exponent : Int
  narrow : Bool
  deriving DecidableEq, Repr

/-- The decimal number `digits * 10 ^ exponent`. -/
structure Decimal where
  digits : Nat
  exponent : Int
  deriving DecidableEq, Repr

namespace Binary

/-- The magnitude of a finite 64-bit number. -/
def ofFloat (x : Float) : Binary :=
  let bits : Nat := x.toBits.toNat % 0x8000000000000000
  let field : Nat := bits / 0x10000000000000
  let fraction : Nat := bits % 0x10000000000000
  if field = 0 then ⟨fraction, -1074, false⟩
  else ⟨0x10000000000000 + fraction, (field : Int) - 1075, fraction = 0 && 1 < field⟩

/-- The magnitude of a finite 32-bit number. -/
def ofFloat32 (x : Float32) : Binary :=
  let bits : Nat := x.toBits.toNat % 0x80000000
  let field : Nat := bits / 0x800000
  let fraction : Nat := bits % 0x800000
  if field = 0 then ⟨fraction, -149, false⟩
  else ⟨0x800000 + fraction, (field : Int) - 150, fraction = 0 && 1 < field⟩

/-- The factor that turns quarters of the last binary place into numerators over `denominator`. -/
def numeratorUnit (x : Binary) : Nat := Nat.pow 2 (x.exponent - 2).toNat

/-- The common denominator of the number and of the ends of its interval. -/
def denominator (x : Binary) : Nat := Nat.pow 2 (2 - x.exponent).toNat

/-- Does the decimal lie in the interval of reals that round to the number? -/
def contains (x : Binary) (d : Decimal) : Bool :=
  let value := d.digits * Nat.pow 10 d.exponent.toNat * x.denominator
  let unit := x.numeratorUnit * Nat.pow 10 (-d.exponent).toNat
  let low := (4 * x.mantissa - if x.narrow then 1 else 2) * unit
  let high := (4 * x.mantissa + 2) * unit
  if x.mantissa % 2 = 0 then low ≤ value && value ≤ high else low < value && value < high

/-- The number of decimal places before the point; zero or negative for numbers below one tenth. -/
def magnitude (x : Binary) : Int :=
  let numerator := 4 * x.mantissa * x.numeratorUnit
  let whole := numerator / x.denominator
  if whole ≠ 0 then (Nat.toDigits 10 whole).length
  else 1 - ((Nat.toDigits 10 ((x.denominator - 1) / numerator)).length : Int)

/-- The candidate on the grid of multiples of `10 ^ place`, if one of the two grid points around the
number reads back. -/
def candidate? (x : Binary) (place : Int) : Option Decimal :=
  let numerator := 4 * x.mantissa * x.numeratorUnit * Nat.pow 10 (-place).toNat
  let step := x.denominator * Nat.pow 10 place.toNat
  let below : Decimal := ⟨numerator / step, place⟩
  let above : Decimal := ⟨numerator / step + 1, place⟩
  match x.contains below, x.contains above with
  | true, true => some (if 2 * (numerator % step) < step then below else above)
  | true, false => some below
  | false, true => some above
  | false, false => none

/-- The value itself, written out with all its digits. -/
def exact (x : Binary) : Decimal :=
  if 0 ≤ x.exponent then ⟨x.mantissa * Nat.pow 2 x.exponent.toNat, 0⟩
  else ⟨x.mantissa * Nat.pow 5 (-x.exponent).toNat, x.exponent⟩

/-- The shortest decimal that reads back. Seventeen digits identify every 64-bit number. -/
def shortest (x : Binary) : Decimal :=
  ((List.range 17).findSome? fun (n : Nat) => x.candidate? (x.magnitude - (n + 1))).getD x.exact

end Binary
end PlantGrowth
