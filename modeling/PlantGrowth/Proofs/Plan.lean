import PlantGrowth.Growth.Advance
import PlantGrowth.Plan.Basic

/-!
# What a plan's seed is made of

A plan without faults gives a seed. What is bound to a symbol in the seed's registry comes from what
the plan binds the symbol to, so a condition on the plan, down to the plans within it, is one on all
handlers that act while the plant grows.
-/

namespace PlantGrowth

/-! ## Bindings -/

theorem SymbolTable.mem_of_find? {β : Type} {table : SymbolTable β} {symbol : Char} {value : β}
    (h : table.find? symbol = some value) : (symbol, value) ∈ table.entries := by
  have hlookup : table.entries.lookup symbol = some value := h
  rw [List.lookup_eq_some_iff] at hlookup
  obtain ⟨before, behind, heq, -⟩ := hlookup
  rw [heq]
  exact List.mem_append_right before List.mem_cons_self

section Bindings

variable {H : Type} {entries : List (Char × HandlerPlan)} {bindings : List (Char × Prototype H)}
  {symbol : Char}

theorem prototypes_cons_eq_ok {first : Char} {handler : HandlerPlan}
    (h : prototypes ((first, handler) :: entries) = .ok bindings) :
    ∃ (prototype : Prototype H) (rest : List (Char × Prototype H)),
      handler.prototype first = .ok prototype ∧ prototypes entries = .ok rest ∧
        bindings = (first, prototype) :: rest := by
  simp only [prototypes] at h
  cases hhandler : (handler.prototype first : Except PlanFault (Prototype H)) with
  | error fault =>
    rw [hhandler] at h
    cases h
  | ok prototype =>
    rw [hhandler] at h
    cases hrest : (prototypes entries : Except PlanFault (List (Char × Prototype H))) with
    | error fault =>
      simp only [hrest] at h
      cases h
    | ok rest =>
      simp only [hrest] at h
      cases h
      exact ⟨prototype, rest, rfl, rfl, rfl⟩

/-- The bindings are those of the plan, symbol by symbol. -/
theorem lookup_prototypes (h : prototypes entries = .ok bindings) (symbol : Char) :
    (entries.lookup symbol = none ∧ bindings.lookup symbol = none) ∨
      ∃ handler prototype, entries.lookup symbol = some handler ∧
        bindings.lookup symbol = some prototype ∧ handler.prototype symbol = .ok prototype := by
  induction entries generalizing bindings with
  | nil =>
    simp only [prototypes, Except.ok.injEq] at h
    subst h
    exact Or.inl ⟨rfl, rfl⟩
  | cons entry entries ih =>
    obtain ⟨first, handler⟩ := entry
    obtain ⟨prototype, rest, hhandler, hrest, rfl⟩ := prototypes_cons_eq_ok h
    by_cases heq : symbol = first
    · subst heq
      exact Or.inr ⟨handler, prototype, by simp, by simp, hhandler⟩
    · have hne : (symbol == first) = false := by simpa using heq
      simp only [List.lookup_cons, hne]
      exact ih hrest

end Bindings

/-! ## Prototypes -/

namespace HandlerPlan

variable {H : Type} {plan : HandlerPlan} {symbol : Char} {prototype : Prototype H}

/-- The plan that a handler comes from. -/
inductive Makes (H : Type) : HandlerPlan → Handler H → Prop where
  | fork (closing : Char) : Makes H (.fork closing) (.fork closing)
  | pause (minSeconds maxSeconds : Float) :
      Makes H (.pause minSeconds maxSeconds) (.pause minSeconds maxSeconds)
  | turnRotation (eulerMin eulerMax : Vec3) :
      Makes H (.turnRotation eulerMin eulerMax) (.turnRotation eulerMin eulerMax)
  | turnHeading (axis : Vec3) (angleMin angleMax : Float) :
      Makes H (.turnHeading axis angleMin angleMax) (.turnHeading axis angleMin angleMax)
  | move (distanceMin distanceMax : Float) :
      Makes H (.move distanceMin distanceMax) (.move distanceMin distanceMax)
  | branch (shape : BranchShape) : Makes H (.branch shape) (.branch shape)
  | leaf (prefab : Option String) (shape : LeafShape) :
      Makes H (.leaf prefab shape) (.leaf shape)
  | seed {plant : PlantPlan} {seed : Seed H} (h : plant.seed = .ok seed) :
      Makes H (.seed plant) (.seed seed)

/-- A prototype's handler is the one of its plan. -/
theorem makes_of_prototype (h : plan.prototype symbol = .ok prototype) :
    Makes H plan prototype.handler := by
  cases plan with
  | fork closing =>
    cases h
    exact Makes.fork closing
  | pause minSeconds maxSeconds =>
    simp only [HandlerPlan.prototype] at h
    split at h
    · cases h
      exact Makes.pause minSeconds maxSeconds
    · cases h
  | turnRotation eulerMin eulerMax =>
    cases h
    exact Makes.turnRotation eulerMin eulerMax
  | turnHeading axis angleMin angleMax =>
    simp only [HandlerPlan.prototype] at h
    split at h
    · cases h
      exact Makes.turnHeading axis angleMin angleMax
    · cases h
  | move distanceMin distanceMax =>
    simp only [HandlerPlan.prototype] at h
    split at h
    · cases h
      exact Makes.move distanceMin distanceMax
    · cases h
  | branch shape =>
    cases h
    exact Makes.branch shape
  | leaf prefab shape =>
    cases h
    exact Makes.leaf prefab shape
  | seed plant =>
    simp only [HandlerPlan.prototype] at h
    split at h
    next seed hseed =>
      cases h
      exact Makes.seed hseed
    next => cases h

/-- The prototype of a plant is baked and shared as the plant is. -/
theorem eq_of_prototype_seed {plant : PlantPlan}
    (h : (HandlerPlan.seed plant).prototype symbol = .ok prototype) :
    ∃ inner, plant.seed = .ok inner ∧
      prototype = { Prototype.named "seed" (.seed inner) with
        baked := plant.traits.baked, prefab := plant.traits.prefab } := by
  simp only [HandlerPlan.prototype] at h
  split at h
  next inner hinner =>
    cases h
    exact ⟨inner, hinner, rfl⟩
  next => cases h

end HandlerPlan

/-! ## Seeds -/

namespace PlantPlan

variable {H : Type} {plan : PlantPlan} {seed : Seed H} {symbol : Char} {prototype : Prototype H}

/-- **A plan's seed has the plan's traits and the prototypes of its bindings.** -/
theorem seed_eq_ok (h : plan.seed = .ok seed) :
    ∃ traits bindings, plan.traits.seedTraits = .ok traits ∧
      prototypes plan.handlers.entries = .ok bindings ∧ seed = .fresh traits ⟨bindings⟩ := by
  obtain ⟨traits, ⟨entries⟩⟩ := plan
  simp only [PlantPlan.seed] at h
  split at h
  · cases h
  next seedTraits htraits =>
    split at h
    · cases h
    next bindings hbindings =>
      cases h
      exact ⟨seedTraits, bindings, htraits, hbindings, rfl⟩

/-- What is bound to a symbol in the registry comes from what the plan binds it to. -/
theorem exists_of_find? (h : plan.seed = .ok seed)
    (hfind : seed.registry.find? symbol = some prototype) :
    ∃ handler, plan.handlers.find? symbol = some handler ∧
      handler.prototype symbol = .ok prototype := by
  obtain ⟨traits, bindings, -, hbindings, rfl⟩ := seed_eq_ok h
  rcases lookup_prototypes hbindings symbol with ⟨-, hnone⟩ | ⟨handler, found, hplan, hfound, hmade⟩
  · exact absurd (hnone.symm.trans hfind) (by simp)
  · obtain rfl : found = prototype := Option.some.inj (hfound.symm.trans hfind)
    exact ⟨handler, hplan, hmade⟩

/-- What the plan binds a symbol to is in the registry. -/
theorem find?_of_exists (h : plan.seed = .ok seed) {handler : HandlerPlan}
    (hfind : plan.handlers.find? symbol = some handler) :
    ∃ prototype, seed.registry.find? symbol = some prototype ∧
      handler.prototype symbol = .ok prototype := by
  obtain ⟨traits, bindings, -, hbindings, rfl⟩ := seed_eq_ok h
  rcases lookup_prototypes hbindings symbol with ⟨hnone, -⟩ | ⟨found, prototype, hplan, hfound, hmade⟩
  · exact absurd (hnone.symm.trans hfind) (by simp)
  · obtain rfl : found = handler := Option.some.inj (hplan.symm.trans hfind)
    exact ⟨prototype, hfound, hmade⟩

/-- The handler of a symbol comes from what the plan binds the symbol to. -/
theorem makes_of_find? (h : plan.seed = .ok seed)
    (hfind : seed.registry.find? symbol = some prototype) :
    ∃ handler, plan.handlers.find? symbol = some handler ∧
      handler.Makes H prototype.handler := by
  obtain ⟨handler, hplan, hmade⟩ := exists_of_find? h hfind
  exact ⟨handler, hplan, HandlerPlan.makes_of_prototype hmade⟩

/-- The traits of a plan's seed. -/
theorem traits_of_seed (h : plan.seed = .ok seed) :
    ∃ rules, plan.traits.readRules = .ok rules ∧ 0 ≤ plan.traits.iterations ∧
      seed.traits =
        { start := plan.traits.start, mode := plan.traits.mode
          iterations := plan.traits.iterations, inheritHeading := plan.traits.inheritHeading
          heading := plan.traits.heading, rules, variation := plan.traits.variation } ∧
      seed.executed = false := by
  obtain ⟨traits, bindings, htraits, -, rfl⟩ := seed_eq_ok h
  simp only [PlantTraits.seedTraits] at htraits
  split at htraits
  · cases htraits
  · split at htraits
    · cases htraits
    next hnegative =>
      split at htraits
      · cases htraits
      next rules hrules =>
        cases htraits
        exact ⟨rules, hrules, by omega, rfl, rfl⟩

theorem mode_of_seed (h : plan.seed = .ok seed) : seed.traits.mode = plan.traits.mode := by
  obtain ⟨rules, -, -, htraits, -⟩ := traits_of_seed h
  rw [htraits]

end PlantPlan

/-! ## Plants within plants -/

/-- The seeds of the plans with a property. -/
def PlantPlan.Yields {H : Type} (P : PlantPlan → Prop) (seed : Seed H) : Prop :=
  ∃ plan : PlantPlan, P plan ∧ plan.seed = .ok seed

/-- A property that passes on to the plans within a plan passes on to the seeds within its seed. -/
theorem PlantPlan.Yields.within {H : Type} {P : PlantPlan → Prop}
    (hP : ∀ {plan symbol inner}, P plan → plan.handlers.find? symbol = some (.seed inner) → P inner)
    {seed inner : Seed H} {symbol : Char} {prototype : Prototype H} (h : PlantPlan.Yields P seed)
    (hfind : seed.registry.find? symbol = some prototype)
    (hseed : prototype.handler = .seed inner) : PlantPlan.Yields P inner := by
  obtain ⟨plan, hplan, hok⟩ := h
  obtain ⟨handler, hbound, hmakes⟩ := makes_of_find? hok hfind
  rw [hseed] at hmakes
  cases hmakes with
  | @seed plant _ hplant => exact ⟨plant, hP hplan hbound, hplant⟩

namespace Seed

variable {H : Type} {seed inner : Seed H} {symbol : Char} {prototype : Prototype H}

/-- A plant within a plant has the smaller registry. -/
theorem sizeOf_registry_lt (hfind : seed.registry.find? symbol = some prototype)
    (hseed : prototype.handler = .seed inner) :
    sizeOf inner.registry < sizeOf seed.registry := by
  obtain ⟨traits, ⟨entries⟩, executed⟩ := seed
  obtain ⟨name, ethereal, baked, prefab, handler⟩ := prototype
  obtain ⟨innerTraits, innerRegistry, innerExecuted⟩ := inner
  have hmem : (symbol, Prototype.mk name ethereal baked prefab handler) ∈ entries :=
    SymbolTable.mem_of_find? hfind
  have hlt := List.sizeOf_lt_of_mem hmem
  obtain rfl : handler = .seed ⟨innerTraits, innerRegistry, innerExecuted⟩ := hseed
  simp only [Prod.mk.sizeOf_spec, Prototype.mk.sizeOf_spec, Handler.seed.sizeOf_spec,
    Seed.mk.sizeOf_spec, SymbolTable.mk.sizeOf_spec] at hlt ⊢
  omega

end Seed
end PlantGrowth
