import PlantGrowth.Json.Basic

/-!
# Settings of a simulation
-/

namespace PlantGrowth

/-- What the host may adjust. -/
structure Settings where
  /-- How many waiting steps of work one tick may run. -/
  maxStepsPerTick : Nat := 100
  /-- The world time that passes in one tick. -/
  tickSeconds : Float := 1.0 / 60.0
  /-- The last generation of a chain that names none itself. -/
  maxGenerations : Nat := 64
  /-- The seed of the random generator. -/
  rngSeed : Nat := 0
  deriving BEq, Repr, Inhabited

namespace Settings

/-- The settings as an object. -/
def toJson (settings : Settings) : Json :=
  .obj [("max_new_handlers_per_tick", .ofNat settings.maxStepsPerTick),
    ("tick_seconds", .ofFloat settings.tickSeconds),
    ("max_generations", .ofNat settings.maxGenerations),
    ("rng_seed", .ofNat settings.rngSeed)]

/-- Reads settings; each of them may be left out. -/
def ofJson? (value : Json) : Option Settings := do
  let _ ← value.toObj?
  let usual : Settings := {}
  let maxStepsPerTick ←
    value.fieldD "max_new_handlers_per_tick" (Json.toNatBelow? UInt64.size) usual.maxStepsPerTick
  let tickSeconds ← value.fieldD "tick_seconds" Json.toFloat? usual.tickSeconds
  let maxGenerations ← value.fieldD "max_generations" (Json.toNatBelow? UInt32.size) usual.maxGenerations
  let rngSeed ← value.fieldD "rng_seed" (Json.toNatBelow? UInt64.size) usual.rngSeed
  pure { maxStepsPerTick, tickSeconds, maxGenerations, rngSeed }

end Settings
end PlantGrowth
