import PlantGrowth.Geometry.Vector
import PlantGrowth.Rules.Basic
import PlantGrowth.Shape.Branch
import PlantGrowth.Shape.Leaf
import PlantGrowth.Text.Quoted

/-!
# Handlers and what is bound to symbols

A handler is what a symbol of a sentence does to a plant. The kinds of handlers are few and known,
except that a host program may add kinds of its own; they are the values of the parameter `H`, and a
library without them has `H := Empty`.

Handlers hold the data that their effect depends on, and no code. A seed holds the registry of the
plant that grows from it, whose handlers may be seeds again.
-/

namespace PlantGrowth

/-- When the rules are applied to a seed's sentence. -/
inductive DerivationMode where
  /-- At the start, as often as there are iterations, and never again. -/
  | inAdvance
  /-- Along the way: a chain that has read its sentence to the end goes on in the next generation of
  it. -/
  | alongTheWay
  deriving DecidableEq, Repr, Inhabited

/-- How an instance of baked structure is varied and how it appears. Angles are in degrees. -/
structure Variation where
  rotationMin : Vec3 := Vec3.zero
  rotationMax : Vec3 := Vec3.zero
  scaleMin : Float := 1
  scaleMax : Float := 1
  /-- Does the instance grow from nothing to its size? -/
  scaleOnSpawn : Bool := true
  /-- The world time this takes. -/
  scaleTime : Float := 1
  deriving BEq, Repr, Inhabited

/-- What a seed knows of its plant, apart from the handlers. -/
structure SeedTraits where
  /-- The sentence that growth starts from. -/
  start : String
  mode : DerivationMode := .inAdvance
  iterations : Int := 0
  /-- Is a heading that is there already kept? -/
  inheritHeading : Bool := false
  heading : Vec3 := Vec3.unitY
  rules : RuleSet
  variation : Variation := {}
  deriving BEq, Repr, Inhabited

mutual

/-- What a symbol does. -/
inductive Handler (H : Type) where
  /-- Forks the bracketed part that follows, up to the closing symbol. -/
  | fork (closing : Char)
  /-- Lets world time pass, a random number of seconds. -/
  | pause (minSeconds maxSeconds : Float)
  /-- Turns the rotation by random angles, in degrees. -/
  | turnRotation (eulerMin eulerMax : Vec3)
  /-- Turns the heading about an axis by a random angle, in degrees. -/
  | turnHeading (axis : Vec3) (angleMin angleMax : Float)
  /-- Moves along the heading by a random distance. -/
  | move (distanceMin distanceMax : Float)
  /-- Grows a branch. -/
  | branch (shape : BranchShape)
  /-- Unfolds a leaf. -/
  | leaf (shape : LeafShape)
  /-- Starts a plant. -/
  | seed (seed : Seed H)
  /-- Does what the host program defines. -/
  | host (handler : H)

/-- A handler with the traits of the nodes that it acts at. -/
structure Prototype (H : Type) where
  name : String
  ethereal : Bool
  /-- Does the chain bake from this node on? -/
  baked : Bool
  prefab : Option String
  handler : Handler H

/-- A handler that starts a plant. An instance starts its chain at most once. -/
structure Seed (H : Type) where
  traits : SeedTraits
  registry : SymbolTable (Prototype H)
  executed : Bool

end

/-- What is bound to the symbols of a plant. -/
abbrev Registry (H : Type) := SymbolTable (Prototype H)

variable {H : Type}

/-- The prototype of solid live nodes that are not shared. -/
def Prototype.named (name : String) (handler : Handler H) : Prototype H :=
  { name, ethereal := false, baked := false, prefab := none, handler }

/-- The seed before its first use. -/
def Seed.fresh (traits : SeedTraits) (registry : Registry H) : Seed H :=
  { traits, registry, executed := false }

/-- A prototype in messages. -/
def Prototype.describe (prototype : Prototype H) : String :=
  let name := quoted prototype.name
  let ethereal := toString prototype.ethereal
  let baked := toString prototype.baked
  let prefab :=
    match prototype.prefab with
    | some identifier => "Some(" ++ quoted identifier ++ ")"
    | none => "None"
  s!"HandlerPrototype \x7b name: {name}, ethereal: {ethereal}, baked: {baked}, " ++
    s!"prefab_identifier: {prefab}, .. \x7d"

end PlantGrowth
