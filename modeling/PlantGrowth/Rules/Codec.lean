import PlantGrowth.Rules.Basic
import PlantGrowth.Symbol.Codec

/-!
# Rules in JSON
-/

namespace PlantGrowth

namespace Fallback

/-- The names of the policies. -/
def choices : List (String × Fallback) := [("PassThrough", .keep), ("Drop", .drop)]

/-- The policy by its name. -/
def toJson : Fallback → Json
  | .keep => .str "PassThrough"
  | .drop => .str "Drop"

/-- Reads a policy. -/
def ofJson? (value : Json) : Option Fallback := value.toChoice? choices

end Fallback

namespace RuleSet

/-- The rule set as an object. -/
def toJson (rules : RuleSet) : Json :=
  .obj [("fertile", .bool rules.fertile), ("rules", rules.table.toJson .str),
    ("unmapped", rules.fallback.toJson)]

/-- Reads a rule set; each of its fields may be left out. -/
def ofJson? (value : Json) : Option RuleSet := do
  let _ ← value.toObj?
  let fertile ← value.fieldD "fertile" Json.toBool? true
  let table ← value.fieldD "rules" (SymbolTable.ofJson? Json.toText?) .empty
  let fallback ← value.fieldD "unmapped" Fallback.ofJson? .keep
  pure ⟨fertile, table, fallback⟩

end RuleSet
end PlantGrowth
