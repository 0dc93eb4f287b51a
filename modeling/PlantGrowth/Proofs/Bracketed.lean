import PlantGrowth.Proofs.Calls
import PlantGrowth.Proofs.Plan
import PlantGrowth.Proofs.Tips
import PlantGrowth.Proofs.Walk

/-!
# Bracketed plans

A plan is bracketed if the only thing that its plant does to its sentence, besides reading on, is to
cut it apart at one pair of brackets: one symbol is bound to a fork, and all others that are bound
turn, move, pause or unfold a leaf. The rules are applied in advance, so the sentence that is read
is known before anything grows, and all brackets in it are closed.

`PlantPlan.signs` is what the walk over that sentence has to know of such a plan. It agrees with the
registry of the plan's seed (`PlantPlan.Bracketed.agree`).
-/

namespace PlantGrowth

/-! ## Plans -/

/-- Do the nodes of a handler anchor what follows them? -/
def HandlerPlan.solid : HandlerPlan → Bool
  | .fork _ => false
  | .pause .. => false
  | .turnRotation .. => false
  | .turnHeading .. => false
  | .move .. => true
  | .branch _ => true
  | .leaf .. => true
  | .seed _ => true

/-- Does a handler hand its chain on, and nothing else? -/
def HandlerPlan.handsOn : HandlerPlan → Bool
  | .fork _ => false
  | .pause .. => true
  | .turnRotation .. => true
  | .turnHeading .. => true
  | .move .. => true
  | .branch _ => false
  | .leaf .. => true
  | .seed _ => false

namespace PlantPlan

/-- What the walk has to know of a plan. -/
def signs (plan : PlantPlan) (opening closing : Char) : Signs where
  opening
  closing
  binds symbol := (plan.handlers.find? symbol).isSome
  solid symbol := (plan.handlers.find? symbol).any HandlerPlan.solid

/-- The plan has one fork, whose brackets are all closed in the sentence that is derived in advance,
and otherwise only handlers that hand their chain on. -/
structure Bracketed (plan : PlantPlan) (opening closing : Char) (symbols : List Char) : Prop where
  mode : plan.traits.mode = .inAdvance
  unshared : plan.traits.prefab = none
  distinct : opening ≠ closing
  fork : plan.handlers.find? opening = some (.fork closing)
  unbound : plan.handlers.find? closing = none
  others : ∀ symbol handler, plan.handlers.find? symbol = some handler →
    symbol = opening ∨ handler.handsOn = true
  derived : ∃ rules, plan.traits.readRules = .ok rules ∧
    symbols = (rules.generation plan.traits.iterations.toNat
      (Sentence.ofString plan.traits.start)).symbols
  proper : sentinel ∉ symbols
  matched : Matched opening closing symbols

end PlantPlan

/-! ## Rules applied in advance -/

namespace PlantPlan

variable {plan : PlantPlan} {seed : Seed Empty} {symbols : List Char}

/-- The sentence that a plant reads whose rules are applied in advance. -/
theorem symbols_of_inAdvance (hok : plan.seed = .ok seed) (hmode : plan.traits.mode = .inAdvance)
    (hderived : ∃ rules, plan.traits.readRules = .ok rules ∧
      symbols = (rules.generation plan.traits.iterations.toNat
        (Sentence.ofString plan.traits.start)).symbols) : seed.grammar.1.symbols = symbols := by
  obtain ⟨rules, hrules, hsymbols⟩ := hderived
  obtain ⟨rules', hrules', -, htraits, -⟩ := traits_of_seed hok
  rw [hrules] at hrules'
  cases hrules'
  rw [hsymbols, Seed.grammar, mode_of_seed hok, hmode, htraits]

/-- Its chain has no next generation. -/
theorem ceiling_of_inAdvance (hok : plan.seed = .ok seed) (hmode : plan.traits.mode = .inAdvance) :
    seed.ceiling = 0 := by
  rw [Seed.ceiling, mode_of_seed hok, hmode]

end PlantPlan

/-! ## Prototypes -/

/-- What makes the nodes of a symbol. -/
structure HandlerPlan.Yields {H : Type} (plan : HandlerPlan) (prototype : Prototype H) : Prop where
  ethereal : prototype.ethereal = !plan.solid
  baked : prototype.baked = false
  fork : ∀ closing, plan = .fork closing → prototype.handler = .fork closing
  handsOn : plan.handsOn = true → prototype.handler.handsOn? = some (!plan.solid)

/-- **A prototype is as solid as its plan**, and is live unless it is a plant's. -/
theorem HandlerPlan.yields_of_prototype {H : Type} {plan : HandlerPlan} {symbol : Char}
    {prototype : Prototype H} (h : plan.prototype symbol = .ok prototype)
    (hplant : ∀ inner, plan ≠ .seed inner) : plan.Yields prototype := by
  have hnone : ∀ {made : HandlerPlan}, made.handsOn = true → ∀ closing, made = .fork closing →
      prototype.handler = .fork closing := by
    rintro made hmade closing rfl
    cases hmade
  cases plan with
  | fork closing =>
    cases h
    refine ⟨rfl, rfl, fun other hother => ?_, fun hhands => ?_⟩
    · cases hother
      rfl
    · cases hhands
  | pause minSeconds maxSeconds =>
    simp only [HandlerPlan.prototype] at h
    split at h
    · cases h
      exact ⟨rfl, rfl, hnone rfl, fun _ => rfl⟩
    · cases h
  | turnRotation eulerMin eulerMax =>
    cases h
    exact ⟨rfl, rfl, hnone rfl, fun _ => rfl⟩
  | turnHeading axis angleMin angleMax =>
    simp only [HandlerPlan.prototype] at h
    split at h
    · cases h
      exact ⟨rfl, rfl, hnone rfl, fun _ => rfl⟩
    · cases h
  | move distanceMin distanceMax =>
    simp only [HandlerPlan.prototype] at h
    split at h
    · cases h
      exact ⟨rfl, rfl, hnone rfl, fun _ => rfl⟩
    · cases h
  | branch shape =>
    cases h
    refine ⟨rfl, rfl, fun closing hfork => ?_, fun hhands => ?_⟩
    · cases hfork
    · cases hhands
  | leaf prefab shape =>
    cases h
    exact ⟨rfl, rfl, hnone rfl, fun _ => rfl⟩
  | seed plant => exact absurd rfl (hplant plant)

/-! ## Seeds -/

/-- The registry of a seed is as the signs say. -/
structure Signs.Agree (signs : Signs) (seed : Seed Empty) : Prop where
  regular : signs.Regular
  unbound : ∀ symbol, seed.registry.find? symbol = none → signs.binds symbol = false
  binds : ∀ symbol prototype, seed.registry.find? symbol = some prototype →
    signs.binds symbol = true
  ethereal : ∀ symbol prototype, seed.registry.find? symbol = some prototype →
    prototype.ethereal = !signs.solid symbol
  live : ∀ symbol prototype, seed.registry.find? symbol = some prototype → prototype.baked = false
  fork : ∀ prototype, seed.registry.find? signs.opening = some prototype →
    prototype.handler = .fork signs.closing
  handsOn : ∀ symbol prototype, seed.registry.find? symbol = some prototype →
    symbol ≠ signs.opening → prototype.handler.handsOn? = some (!signs.solid symbol)

namespace PlantPlan.Bracketed

variable {plan : PlantPlan} {opening closing symbol : Char} {symbols : List Char}
  {handler : HandlerPlan} {seed : Seed Empty}

/-- There are no plants and no branches in a bracketed plant. -/
theorem cases (h : plan.Bracketed opening closing symbols)
    (hfind : plan.handlers.find? symbol = some handler) :
    (symbol = opening ∧ handler = .fork closing) ∨ handler.handsOn = true := by
  rcases h.others symbol handler hfind with rfl | hhands
  · exact Or.inl ⟨rfl, Option.some.inj (hfind.symm.trans h.fork)⟩
  · exact Or.inr hhands

theorem ne_seed (h : plan.Bracketed opening closing symbols)
    (hfind : plan.handlers.find? symbol = some handler) (inner : PlantPlan) :
    handler ≠ .seed inner := by
  rintro rfl
  rcases h.cases hfind with ⟨-, heq⟩ | hhands
  · cases heq
  · cases hhands

theorem regular (h : plan.Bracketed opening closing symbols) :
    (plan.signs opening closing).Regular := by
  refine ⟨h.distinct, ?_, ?_, ?_, ?_⟩
  · show (plan.handlers.find? opening).isSome = true
    rw [h.fork]
    rfl
  · show (plan.handlers.find? closing).isSome = false
    rw [h.unbound]
    rfl
  · show (plan.handlers.find? opening).any HandlerPlan.solid = false
    rw [h.fork]
    rfl
  · intro symbol hsolid
    have hany : (plan.handlers.find? symbol).any HandlerPlan.solid = true := hsolid
    show (plan.handlers.find? symbol).isSome = true
    cases hfind : plan.handlers.find? symbol with
    | none =>
      rw [hfind] at hany
      cases hany
    | some handler => rfl

theorem signs_of_find? (hfind : plan.handlers.find? symbol = some handler) :
    (plan.signs opening closing).binds symbol = true ∧
      (plan.signs opening closing).solid symbol = handler.solid := by
  constructor
  · show (plan.handlers.find? symbol).isSome = true
    rw [hfind]
    rfl
  · show (plan.handlers.find? symbol).any HandlerPlan.solid = handler.solid
    rw [hfind]
    rfl

/-- **The seed of a bracketed plan is as the plan's signs say.** -/
theorem agree (h : plan.Bracketed opening closing symbols) (hok : plan.seed = .ok seed) :
    (plan.signs opening closing).Agree seed := by
  have hyields : ∀ symbol prototype, seed.registry.find? symbol = some prototype →
      ∃ handler, plan.handlers.find? symbol = some handler ∧ handler.Yields prototype := by
    intro symbol prototype hfind
    obtain ⟨handler, hplan, hmade⟩ := exists_of_find? hok hfind
    exact ⟨handler, hplan, HandlerPlan.yields_of_prototype hmade (h.ne_seed hplan)⟩
  refine ⟨h.regular, ?_, ?_, ?_, ?_, ?_, ?_⟩
  · intro symbol hnone
    show (plan.handlers.find? symbol).isSome = false
    cases hfind : plan.handlers.find? symbol with
    | none => rfl
    | some handler =>
      obtain ⟨prototype, hfound, -⟩ := find?_of_exists hok hfind
      rw [hnone] at hfound
      cases hfound
  · intro symbol prototype hfind
    obtain ⟨handler, hplan, -⟩ := hyields symbol prototype hfind
    exact (signs_of_find? hplan).1
  · intro symbol prototype hfind
    obtain ⟨handler, hplan, hmade⟩ := hyields symbol prototype hfind
    rw [(signs_of_find? hplan).2]
    exact hmade.ethereal
  · intro symbol prototype hfind
    obtain ⟨handler, -, hmade⟩ := hyields symbol prototype hfind
    exact hmade.baked
  · intro prototype hfind
    obtain ⟨handler, hplan, hmade⟩ := hyields opening prototype hfind
    exact hmade.fork closing (Option.some.inj (hplan.symm.trans h.fork))
  · intro symbol prototype hfind hopening
    obtain ⟨handler, hplan, hmade⟩ := hyields symbol prototype hfind
    rw [(signs_of_find? hplan).2]
    rcases h.cases hplan with ⟨heq, -⟩ | hhands
    · exact absurd heq hopening
    · exact hmade.handsOn hhands

/-- The sentence that the plant reads. -/
theorem symbols_grammar (h : plan.Bracketed opening closing symbols) (hok : plan.seed = .ok seed) :
    seed.grammar.1.symbols = symbols := symbols_of_inAdvance hok h.mode h.derived

/-- A chain of the plant has no next generation. -/
theorem ceiling_eq (h : plan.Bracketed opening closing symbols) (hok : plan.seed = .ok seed) :
    seed.ceiling = 0 := ceiling_of_inAdvance hok h.mode

/-- A bracketed plant has no branches, so none with tips. -/
theorem tipsEnd (h : plan.Bracketed opening closing symbols) : plan.TipsEnd := by
  refine TipsEnd.of_unbranched (fun symbol shape hfind => ?_)
    fun symbol inner hfind => h.ne_seed hfind inner rfl
  rcases h.cases hfind with ⟨-, heq⟩ | hhands
  · cases heq
  · cases hhands

end PlantPlan.Bracketed
end PlantGrowth
