import PlantGrowth.Handler.Codec
import PlantGrowth.Plan.Basic
import PlantGrowth.Rules.Codec

/-!
# Plans of plants in JSON

What a symbol is bound to is an object that names its kind in the field `kind`, beside the fields of
that kind. The fields of a leaf's shape and of a nested plant stand in the same object. Nearly every
field may be left out, and then has its usual value; fields of other names count for nothing.
-/

namespace PlantGrowth

namespace RulesPlan

/-- The rules as a text or as an object. -/
def toJson : RulesPlan → Json
  | .text written => .str written
  | .map table => table.toJson .str

/-- Reads rules. -/
def ofJson? : Json → Option RulesPlan
  | .str written => some (.text written)
  | value => (SymbolTable.ofJson? Json.toText? value).map .map

end RulesPlan

namespace PlantTraits

/-- The fields of the plant's object, without the handlers. -/
def fields (traits : PlantTraits) : List (String × Json) :=
  [("axiom", .str traits.start), ("iterations", .int traits.iterations),
    ("generate_mode", traits.mode.toJson), ("rules", traits.rules.toJson),
    ("unmapped", traits.fallback.toJson), ("inherit_heading", .bool traits.inheritHeading),
    ("heading", traits.heading.toJson), ("baked", .bool traits.baked),
    ("prefab_identifier", .ofOption .str traits.prefab), ("bake", traits.variation.toJson)]

/-- Reads the fields of a plant's object. Only the sentence to start from must be there. -/
def ofJson? (value : Json) : Option PlantTraits := do
  let start ← value.fieldOf "axiom" Json.toText?
  let usual : PlantTraits := { start }
  pure {
    start
    iterations := ←
      value.fieldD "iterations" (Json.toIntIn? (-0x8000000000000000) 0x7fffffffffffffff)
        usual.iterations
    mode := ← value.fieldD "generate_mode" DerivationMode.ofJson? usual.mode
    rules := ← value.fieldD "rules" RulesPlan.ofJson? usual.rules
    fallback := ← value.fieldD "unmapped" Fallback.ofJson? usual.fallback
    inheritHeading := ← value.fieldD "inherit_heading" Json.toBool? usual.inheritHeading
    heading := ← value.fieldD "heading" Vec3.ofJson? usual.heading
    baked := ← value.fieldD "baked" Json.toBool? usual.baked
    prefab := ← value.fieldD "prefab_identifier" (Json.toOption? Json.toText?) usual.prefab
    variation := ← value.fieldD "bake" Variation.ofJson? usual.variation }

end PlantTraits

/-! ## Writing -/

mutual

/-- What a symbol is bound to, as an object. -/
def HandlerPlan.toJson : HandlerPlan → Json
  | .fork closing => .obj [("kind", .str "Split"), ("close", .ofSymbol closing)]
  | .pause minSeconds maxSeconds =>
    .obj [("kind", .str "Pause"), ("min_seconds", .ofFloat minSeconds),
      ("max_seconds", .ofFloat maxSeconds)]
  | .turnRotation eulerMin eulerMax =>
    .obj [("kind", .str "Rotate"), ("euler_min", eulerMin.toJson), ("euler_max", eulerMax.toJson)]
  | .turnHeading axis angleMin angleMax =>
    .obj [("kind", .str "AxisAngleRotate"), ("axis", axis.toJson), ("angle_min", .ofFloat angleMin),
      ("angle_max", .ofFloat angleMax)]
  | .move distanceMin distanceMax =>
    .obj [("kind", .str "Translate"), ("distance_min", .ofFloat distanceMin),
      ("distance_max", .ofFloat distanceMax)]
  | .branch shape => .obj (("kind", .str "Branch") :: shape.fields)
  | .leaf prefab shape =>
    .obj (("kind", .str "Leaf") :: ("prefab_identifier", .ofOption .str prefab) :: shape.fields)
  | .seed plant => .obj (("kind", .str "Seed") :: plant.fields)

/-- The fields of the plant's object. -/
def PlantPlan.fields : PlantPlan → List (String × Json)
  | ⟨traits, ⟨entries⟩⟩ => traits.fields ++ [("handlers", .obj (bindingFields entries))]

/-- The bindings as the fields of an object. -/
def bindingFields : List (Char × HandlerPlan) → List (String × Json)
  | [] => []
  | (symbol, handler) :: rest => (String.singleton symbol, handler.toJson) :: bindingFields rest

end

/-- The plant as an object. -/
def PlantPlan.toJson (plan : PlantPlan) : Json := .obj plan.fields

/-! ## Reading -/

/-- Reads an object of one of the kinds that hold no plant. -/
def HandlerPlan.leafOfJson? (kind : String) (value : Json) : Option HandlerPlan :=
  if kind = "Split" then do pure (.fork (← value.fieldD "close" Json.toSymbol? ']'))
  else if kind = "Pause" then do
    pure (.pause (← value.fieldOf "min_seconds" Json.toFloat?)
      (← value.fieldOf "max_seconds" Json.toFloat?))
  else if kind = "Rotate" then do
    pure (.turnRotation (← value.fieldOf "euler_min" Vec3.ofJson?)
      (← value.fieldOf "euler_max" Vec3.ofJson?))
  else if kind = "AxisAngleRotate" then do
    pure (.turnHeading (← value.fieldOf "axis" Vec3.ofJson?)
      (← value.fieldOf "angle_min" Json.toFloat?) (← value.fieldOf "angle_max" Json.toFloat?))
  else if kind = "Translate" then do
    pure (.move (← value.fieldOf "distance_min" Json.toFloat?)
      (← value.fieldOf "distance_max" Json.toFloat?))
  else if kind = "Branch" then do pure (.branch (← BranchShape.ofJson? value))
  else if kind = "Leaf" then do
    pure (.leaf (← value.fieldD "prefab_identifier" (Json.toOption? Json.toText?) none)
      (← LeafShape.ofJson? value))
  else none

mutual

/-- Reads what a symbol is bound to. -/
def HandlerPlan.ofJson? : Json → Option HandlerPlan
  | .obj fields =>
    match (fields.lookup "kind").bind Json.toText? with
    | none => none
    | some kind =>
      if kind = "Seed" then do
        let traits ← PlantTraits.ofJson? (.obj fields)
        let handlers ← handlersIn? fields
        pure (.seed { traits, handlers })
      else HandlerPlan.leafOfJson? kind (.obj fields)
  | _ => none

/-- Reads the bindings of a plant from its fields; there are none if the field is left out. -/
def handlersIn? : List (String × Json) → Option (SymbolTable HandlerPlan)
  | [] => some .empty
  | (key, value) :: rest => if key = "handlers" then handlersOf? value else handlersIn? rest

/-- Reads bindings from an object. -/
def handlersOf? : Json → Option (SymbolTable HandlerPlan)
  | .obj fields => (handlerBindings? fields).map .ofList
  | _ => none

/-- Reads bindings from the fields of an object. -/
def handlerBindings? : List (String × Json) → Option (List (Char × HandlerPlan))
  | [] => some []
  | (key, value) :: rest => do
    let symbol ← Json.keySymbol? key
    let handler ← HandlerPlan.ofJson? value
    let others ← handlerBindings? rest
    pure ((symbol, handler) :: others)

end

/-- Reads a plant. -/
def PlantPlan.ofJson? : Json → Option PlantPlan
  | .obj fields => do
    let traits ← PlantTraits.ofJson? (.obj fields)
    let handlers ← handlersIn? fields
    pure { traits, handlers }
  | _ => none

end PlantGrowth
