import PlantGrowth.Json.Basic
import PlantGrowth.Symbol.Table

/-!
# Symbol tables and named choices in JSON

A table is an object whose keys are symbols. A choice without data is written by its name; it is
also read from an object that gives the name as its only key, with null beside it.
-/

namespace PlantGrowth

namespace Json

/-- The choice with the given name. -/
def toChoice? {α : Type} (choices : List (String × α)) : Json → Option α
  | .str name => choices.lookup name
  | .obj [(name, .null)] => choices.lookup name
  | _ => none

/-- The only character of an object's key. -/
def keySymbol? (key : String) : Option Char :=
  match key.toList with
  | [symbol] => some symbol
  | _ => none

end Json

namespace SymbolTable

variable {β : Type}

/-- The table as an object. -/
def toJson (encode : β → Json) (table : SymbolTable β) : Json :=
  .obj (table.entries.map fun binding => (String.singleton binding.1, encode binding.2))

/-- The bindings of a list of fields, each key being one symbol. -/
def bindings? (decode : Json → Option β) : List (String × Json) → Option (List (Char × β))
  | [] => some []
  | (key, value) :: rest => do
    let symbol ← Json.keySymbol? key
    let content ← decode value
    let others ← bindings? decode rest
    pure ((symbol, content) :: others)

/-- Reads a table from an object. -/
def ofJson? (decode : Json → Option β) (value : Json) : Option (SymbolTable β) := do
  let fields ← value.toObj?
  let bindings ← bindings? decode fields
  pure (ofList bindings)

end SymbolTable
end PlantGrowth
