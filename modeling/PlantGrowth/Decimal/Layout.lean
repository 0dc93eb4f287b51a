import PlantGrowth.Decimal.Shortest

/-!
# Numbers in messages

Two layouts of the shortest digits are in use. The plain one never has an exponent and leaves out
the point where no digit follows it. The pointed one shows by `.0` that a number is no integer, and
writes very small and very large numbers with an exponent.
-/

namespace PlantGrowth
namespace Decimal

/-- How the chosen digits are laid out. -/
structure Layout where
  /-- Does `.0` follow a number without places after the point? -/
  pointZero : Bool
  /-- Decimal exponents of the leading digit that are written without an exponent; all of them, if
  there is no such range. -/
  positional : Option (Int × Int)

/-- `2`, `-0.75`, `NaN`, `inf`; never an exponent. -/
def Layout.plain : Layout := ⟨false, none⟩

/-- `2.0`, `-0.75`; `1e16` from there on and `9e-5` below a ten-thousandth. -/
def Layout.pointed : Layout := ⟨true, some (-4, 15)⟩

/-- The digits without trailing zeros, most significant first. -/
def significant (d : Decimal) : List Char :=
  ((Nat.toDigits 10 d.digits).reverse.dropWhile (· = '0')).reverse

/-- The text of a positive number with the given significant digits, the point standing after
`point` of them (before the first digit if that is not positive). -/
def Layout.place (layout : Layout) (digits : List Char) (point : Int) : List Char :=
  let count := digits.length
  if point ≤ 0 then ['0', '.'] ++ List.replicate (-point).toNat '0' ++ digits
  else if (count : Int) ≤ point then
    let zeros := List.replicate (point.toNat - count) '0'
    digits ++ zeros ++ if layout.pointZero then ['.', '0'] else []
  else digits.take point.toNat ++ '.' :: digits.drop point.toNat

/-- One digit before the point, then the rest, then the exponent. -/
def scientific (digits : List Char) (exponent : Int) : List Char :=
  let mantissa :=
    match digits with
    | first :: second :: rest => first :: '.' :: second :: rest
    | short => short
  mantissa ++ 'e' :: (toString exponent).toList

/-- The text of a positive decimal. -/
def Layout.render (layout : Layout) (d : Decimal) : List Char :=
  let point := (Nat.toDigits 10 d.digits).length + d.exponent
  match layout.positional with
  | some (first, last) =>
    if first ≤ point - 1 ∧ point - 1 ≤ last then layout.place (significant d) point
    else scientific (significant d) (point - 1)
  | none => layout.place (significant d) point

/-- The text of zero. -/
def Layout.zero (layout : Layout) : List Char :=
  if layout.pointZero then ['0', '.', '0'] else ['0']

/-- A 64-bit number as text. -/
def Layout.float (layout : Layout) (x : Float) : String :=
  if x.isNaN then "NaN"
  else
    let sign := if 0x8000000000000000 ≤ x.toBits.toNat then ['-'] else []
    let magnitude :=
      if x.isInf then ['i', 'n', 'f']
      else if x == 0 then layout.zero
      else layout.render (Binary.ofFloat x).shortest
    String.ofList (sign ++ magnitude)

/-- A 32-bit number as text; its shortest digits are those that identify it among 32-bit numbers. -/
def Layout.float32 (layout : Layout) (x : Float32) : String :=
  if x.isNaN then "NaN"
  else
    let sign := if 0x80000000 ≤ x.toBits.toNat then ['-'] else []
    let magnitude :=
      if x.isInf then ['i', 'n', 'f']
      else if x == 0 then layout.zero
      else layout.render (Binary.ofFloat32 x).shortest
    String.ofList (sign ++ magnitude)

end Decimal
end PlantGrowth
