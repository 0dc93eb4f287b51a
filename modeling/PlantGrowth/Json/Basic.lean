import PlantGrowth.Precision

/-!
# JSON values

Plans of plants, settings and views of nodes have a JSON form. Integers and other numbers are kept
apart, because a field that counts something refuses `2.0`. A number that is not finite has no JSON
form and is written as null.
-/

namespace PlantGrowth

/-- A JSON value. -/
inductive Json where
  | null
  | bool (b : Bool)
  | int (n : Int)
  | float (x : Float)
  | str (text : String)
  | arr (items : List Json)
  | obj (fields : List (String × Json))

namespace Json

instance : Inhabited Json := ⟨.null⟩

/-- A number, or null if it is not finite. -/
def ofFloat (x : Float) : Json := if x.isFinite then .float x else .null

/-- A count. -/
def ofNat (n : Nat) : Json := .int n

/-- A symbol is a text of one character. -/
def ofSymbol (symbol : Char) : Json := .str (String.singleton symbol)

/-- A value that may be missing. -/
def ofOption {α : Type} (encode : α → Json) : Option α → Json
  | some value => encode value
  | none => .null

/-! ## Reading the shape of a value -/

/-- The value of an object's field. -/
def field? (key : String) : Json → Option Json
  | .obj fields => fields.lookup key
  | _ => none

/-- A truth value. -/
def toBool? : Json → Option Bool
  | .bool b => some b
  | _ => none

/-- A text. -/
def toText? : Json → Option String
  | .str text => some text
  | _ => none

/-- A text of exactly one character. -/
def toSymbol? : Json → Option Char
  | .str text =>
    match text.toList with
    | [symbol] => some symbol
    | _ => none
  | _ => none

/-- An integer from `low` to `high`. A number written with a point or an exponent is none. -/
def toIntIn? (low high : Int) : Json → Option Int
  | .int n => if low ≤ n ∧ n ≤ high then some n else none
  | _ => none

/-- A count below a bound. -/
def toNatBelow? (bound : Nat) (value : Json) : Option Nat :=
  (value.toIntIn? 0 (bound - 1)).map Int.toNat

/-- A number; integers count as numbers too. -/
def toFloat? : Json → Option Float
  | .float x => some x
  | .int n => some (Float.ofInt n)
  | _ => none

/-- A number of 32 bits, rounded to the nearest one. -/
def toFloat32? : Json → Option Float32
  | .float x => some (narrow x)
  | .int n => some (Float32.ofInt n)
  | _ => none

/-- The items of an array. -/
def toArr? : Json → Option (List Json)
  | .arr items => some items
  | _ => none

/-- The fields of an object. -/
def toObj? : Json → Option (List (String × Json))
  | .obj fields => some fields
  | _ => none

/-- A value, or null for its absence. -/
def toOption? {α : Type} (decode : Json → Option α) : Json → Option (Option α)
  | .null => some none
  | value => (decode value).map some

/-- The field of an object read by `decode`, and `default` if there is no such field. -/
def fieldD {α : Type} (value : Json) (key : String) (decode : Json → Option α) (default : α) :
    Option α :=
  match value.field? key with
  | some content => decode content
  | none => some default

/-- The field of an object read by `decode`; it must be there. -/
def fieldOf {α : Type} (value : Json) (key : String) (decode : Json → Option α) : Option α :=
  (value.field? key).bind decode

end Json
end PlantGrowth
