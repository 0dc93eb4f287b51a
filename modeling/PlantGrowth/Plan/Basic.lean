import PlantGrowth.Arena.Basic
import PlantGrowth.Decimal.Layout
import PlantGrowth.Handler.Basic
import PlantGrowth.Rules.Text

/-!
# Plans of plants

A plan says what the grammar of a plant is, when its rules are applied and what each symbol is bound
to; a symbol may be bound to a plant again. From a plan that is free of faults follows the seed of
the plant. Faults are looked for in a fixed order, and the first one is reported.
-/

namespace PlantGrowth

/-- Rules as a plan gives them: written out as text, or symbol by symbol. -/
inductive RulesPlan where
  | text (text : String)
  | map (table : SymbolTable String)
  deriving DecidableEq, Repr

instance : Inhabited RulesPlan := ⟨.map .empty⟩

/-- What describes a plant, apart from the handlers. -/
structure PlantTraits where
  /-- The sentence that growth starts from. -/
  start : String
  iterations : Int := 0
  mode : DerivationMode := .inAdvance
  rules : RulesPlan := .map .empty
  fallback : Fallback := .keep
  inheritHeading : Bool := false
  heading : Vec3 := Vec3.unitY
  baked : Bool := false
  prefab : Option String := none
  variation : Variation := {}
  deriving BEq, Repr

mutual

/-- What a symbol is bound to. -/
inductive HandlerPlan where
  | fork (closing : Char)
  | pause (minSeconds maxSeconds : Float)
  | turnRotation (eulerMin eulerMax : Vec3)
  | turnHeading (axis : Vec3) (angleMin angleMax : Float)
  | move (distanceMin distanceMax : Float)
  | branch (shape : BranchShape)
  /-- Baked leaves of one identifier share their outline. -/
  | leaf (prefab : Option String) (shape : LeafShape)
  | seed (plant : PlantPlan)

/-- A plant. -/
structure PlantPlan where
  traits : PlantTraits
  handlers : SymbolTable HandlerPlan

end

/-! ## Faults -/

/-- What is wrong with a plan. -/
inductive PlanFault where
  /-- There is nothing to start from. -/
  | emptyStart
  /-- The number of iterations is negative. -/
  | negativeIterations (iterations : Int)
  /-- A random range is not finite, or its bounds are in the wrong order. -/
  | invalidRange (handler : String) (symbol : Char) (min max : Float)
  /-- The rules cannot be read. -/
  | rules (cause : RuleError)

/-- The text shown to the user. -/
def PlanFault.message : PlanFault → String
  | .emptyStart => "axiom is empty"
  | .negativeIterations iterations => s!"iterations must be non-negative, got {iterations}"
  | .invalidRange handler symbol min max =>
    handler ++ " for " ++ quotedSymbol symbol ++ " has an invalid range " ++
      Decimal.Layout.plain.float min ++ ".." ++ Decimal.Layout.plain.float max
  | .rules cause => cause.message

/-- Refuses a random range that is not finite, or whose bounds are in the wrong order. -/
def requireRange (handler : String) (symbol : Char) (min max : Float) : Except PlanFault Unit :=
  if min.isFinite && max.isFinite && min ≤ max then .ok ()
  else .error (.invalidRange handler symbol min max)

namespace PlantTraits

/-- The rules of a plant. -/
def readRules (traits : PlantTraits) : Except PlanFault RuleSet :=
  match traits.rules with
  | .text text =>
    match RuleSet.parse text with
    | .ok rules => .ok { rules with fallback := traits.fallback }
    | .error cause => .error (.rules cause)
  | .map table => .ok { table, fallback := traits.fallback }

/-- What the seed of a plant knows of it, apart from the handlers. -/
def seedTraits (traits : PlantTraits) : Except PlanFault SeedTraits :=
  if traits.start.isEmpty then .error .emptyStart
  else if traits.iterations < 0 then .error (.negativeIterations traits.iterations)
  else
    match traits.readRules with
    | .error fault => .error fault
    | .ok rules => .ok
      { start := traits.start, mode := traits.mode, iterations := traits.iterations
        inheritHeading := traits.inheritHeading, heading := traits.heading, rules
        variation := traits.variation }

/-- The root node of a plant. It is bound to no symbol. -/
def root (traits : PlantTraits) : NodeDraft :=
  { name := "seed", baked := traits.baked, prefab := traits.prefab }

end PlantTraits

variable {H : Type}

/-- An ethereal prototype. -/
def Prototype.etherealNamed (name : String) (handler : Handler H) : Prototype H :=
  { Prototype.named name handler with ethereal := true }

mutual

/-- The prototype of what a symbol is bound to. -/
def HandlerPlan.prototype (symbol : Char) : HandlerPlan → Except PlanFault (Prototype H)
  | .fork closing => .ok (.etherealNamed "split" (.fork closing))
  | .pause minSeconds maxSeconds =>
    match requireRange "pause" symbol minSeconds maxSeconds with
    | .ok () => .ok (.etherealNamed "pause" (.pause minSeconds maxSeconds))
    | .error fault => .error fault
  | .turnRotation eulerMin eulerMax =>
    .ok (.etherealNamed "rotate" (.turnRotation eulerMin eulerMax))
  | .turnHeading axis angleMin angleMax =>
    match requireRange "axis_angle_rotate" symbol angleMin angleMax with
    | .ok () =>
      .ok (.etherealNamed "axis_angle_rotate" (.turnHeading axis angleMin angleMax))
    | .error fault => .error fault
  | .move distanceMin distanceMax =>
    match requireRange "translate" symbol distanceMin distanceMax with
    | .ok () => .ok (.named "translate" (.move distanceMin distanceMax))
    | .error fault => .error fault
  | .branch shape => .ok (.named "branch" (.branch shape))
  | .leaf prefab shape => .ok { Prototype.named "leaf" (.leaf shape) with prefab }
  | .seed plant =>
    match plant.seed with
    | .ok seed =>
      .ok { Prototype.named "seed" (.seed seed) with
        baked := plant.traits.baked, prefab := plant.traits.prefab }
    | .error fault => .error fault

/-- The seed of a plant. -/
def PlantPlan.seed : PlantPlan → Except PlanFault (Seed H)
  | ⟨traits, ⟨entries⟩⟩ =>
    match traits.seedTraits with
    | .error fault => .error fault
    | .ok seedTraits =>
      match prototypes entries with
      | .error fault => .error fault
      | .ok bindings => .ok (.fresh seedTraits ⟨bindings⟩)

/-- The prototypes of bindings, in their order. -/
def prototypes : List (Char × HandlerPlan) → Except PlanFault (List (Char × Prototype H))
  | [] => .ok []
  | (symbol, handler) :: rest =>
    match handler.prototype symbol with
    | .error fault => .error fault
    | .ok prototype =>
      match prototypes rest with
      | .error fault => .error fault
      | .ok bindings => .ok ((symbol, prototype) :: bindings)

end

namespace PlantPlan

/-- A plant without rules and handlers. -/
def ofStart (start : String) : PlantPlan := { traits := { start }, handlers := .empty }

/-- Binds a symbol. -/
def bind (plan : PlantPlan) (symbol : Char) (handler : HandlerPlan) : PlantPlan :=
  { plan with handlers := plan.handlers.insert symbol handler }

/-- What the symbols of a plant are bound to. -/
def registry (plan : PlantPlan) : Except PlanFault (Registry H) :=
  match prototypes plan.handlers.entries with
  | .ok bindings => .ok ⟨bindings⟩
  | .error fault => .error fault

end PlantPlan

/-! ## Equality -/

mutual

/-- Do two bindings describe the same? -/
def HandlerPlan.same : HandlerPlan → HandlerPlan → Bool
  | .fork a, .fork b => a == b
  | .pause a b, .pause c d => a == c && b == d
  | .turnRotation a b, .turnRotation c d => a == c && b == d
  | .turnHeading a b c, .turnHeading d e f => a == d && b == e && c == f
  | .move a b, .move c d => a == c && b == d
  | .branch a, .branch b => a == b
  | .leaf a b, .leaf c d => a == c && b == d
  | .seed a, .seed b => PlantPlan.same a b
  | _, _ => false

/-- Are two plans the same? -/
def PlantPlan.same : PlantPlan → PlantPlan → Bool
  | ⟨traits, ⟨entries⟩⟩, other =>
    traits == other.traits && sameBindings entries other.handlers.entries

/-- Do two lists of bindings describe the same? -/
def sameBindings : List (Char × HandlerPlan) → List (Char × HandlerPlan) → Bool
  | [], [] => true
  | (symbol, handler) :: rest, (other, otherHandler) :: others =>
    symbol == other && HandlerPlan.same handler otherHandler && sameBindings rest others
  | _, _ => false

end

instance : BEq PlantPlan := ⟨PlantPlan.same⟩

end PlantGrowth
