import PlantGrowth.Decimal.Layout
import PlantGrowth.Json.Basic

/-!
# Writing JSON text

Values are written on one line without blanks. Strings escape the quote, the backslash and the
control characters; numbers have the fewest digits that read back. Each writer appends to the text
written so far.
-/

namespace PlantGrowth
namespace Json
namespace Printer

/-- One character of a string. -/
def encodeChar (c : Char) : String :=
  if c = '"' then "\\\""
  else if c = '\\' then "\\\\"
  else if c = '\n' then "\\n"
  else if c = '\r' then "\\r"
  else if c = '\t' then "\\t"
  else if c.toNat < 0x20 then
    String.ofList ['\\', 'u', '0', '0', Nat.digitChar (c.toNat / 16), Nat.digitChar (c.toNat % 16)]
  else String.singleton c

/-- A string between quotes. -/
def string (written text : String) : String :=
  text.foldl (fun written c => written ++ encodeChar c) (written ++ "\"") ++ "\""

mutual

/-- A value. -/
def value (written : String) : Json → String
  | .null => written ++ "null"
  | .bool b => written ++ if b then "true" else "false"
  | .int n => written ++ toString n
  | .float x => written ++ if x.isFinite then Decimal.Layout.pointed.float x else "null"
  | .str text => string written text
  | .arr [] => written ++ "[]"
  | .arr (item :: rest) => items (value (written ++ "[") item) rest ++ "]"
  | .obj [] => written ++ "\x7b\x7d"
  | .obj ((key, content) :: rest) =>
    fields (value (string (written ++ "\x7b") key ++ ":") content) rest ++ "\x7d"

/-- Items, each after a comma. -/
def items (written : String) : List Json → String
  | [] => written
  | item :: rest => items (value (written ++ ",") item) rest

/-- Fields, each after a comma. -/
def fields (written : String) : List (String × Json) → String
  | [] => written
  | (key, content) :: rest => fields (value (string (written ++ ",") key ++ ":") content) rest

end

end Printer

/-- The value as text. -/
def render (value : Json) : String := Printer.value "" value

end Json
end PlantGrowth
