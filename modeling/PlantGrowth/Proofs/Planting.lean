import PlantGrowth.Proofs.Course
import PlantGrowth.Proofs.Draws
import PlantGrowth.Proofs.Plan
import PlantGrowth.Proofs.Reading

/-!
# Planting

Planting begins at the root node, whose handler is the seed of the plan. Unless the root is to be
shared under an identifier, all it does is to start the plant's chain.
-/

namespace PlantGrowth

namespace Garden

variable {plan : PlantPlan} {seed : Seed Empty} {settings : Settings}

theorem marks_seedbed (plan : PlantPlan) (settings : Settings) :
    (seedbed plan settings).nodes.marks = [plan.traits.root.mark] :=
  Arena.marks_addNode {} plan.traits.root

/-- The root node. -/
theorem exists_root (plan : PlantPlan) (settings : Settings) :
    ∃ state, (seedbed plan settings).nodes.get? 0 = some state ∧
      state.mark = plan.traits.root.mark := by
  refine Arena.exists_of_getElem?_marks ?_
  rw [marks_seedbed]
  rfl

/-- **The root starts the plant's chain**, unless it is shared. -/
theorem perform_rootTask (h : plan.seed = .ok seed) (hprefab : plan.traits.prefab = none)
    (settings : Settings) :
    ∃ position, (seedbed plan settings).perform (rootTask plan seed) =
      (seedbed plan settings, [.carryOn 0 (seed.chain position .empty)]) := by
  obtain ⟨state, hstate, hmark⟩ := exists_root plan settings
  obtain ⟨-, -, -, -, hfresh⟩ := PlantPlan.traits_of_seed h
  have hdead : state.dead = false := congrArg Mark.dead hmark
  have hshared : state.prefab = none := (congrArg Mark.prefab hmark).trans hprefab
  exact World.perform_call_seed hfresh hstate hdead hshared .empty plan.traits.baked

/-- **The first call in a baked plant** is that of the first symbol of its sentence, if that is bound. The
bundle has the entries of the seed and no others. -/
theorem exists_first_call (h : plan.seed = .ok seed) (hbaked : plan.traits.baked = true)
    (hprefab : plan.traits.prefab = none) (settings : Settings) {symbol : Char} {rest : List Char}
    {prototype : Prototype Empty} (hunread : seed.grammar.1.unread = symbol :: rest)
    (hsymbol : symbol ≠ sentinel) (hfind : seed.registry.find? symbol = some prototype) :
    ∃ w node bundle state s, (seedbed plan settings).Comes [rootTask plan seed] w
        [.call prototype.handler node bundle true] ∧
      w.nodes.get? node = some state ∧ bundle.Follows seed ∧
      bundle.find? Key.sentence = some (.sentence s) ∧
      ∀ key, Seed.Foreign key → bundle.find? key = none := by
  have hread : seed.grammar.1.hasUnread = true := by
    rw [Sentence.hasUnread_iff (Int.le_of_eq seed.cursor_grammar.symm), hunread]
    exact List.cons_ne_nil symbol rest
  obtain ⟨s, hreading⟩ : ∃ s, seed.grammar.1.readTo seed.registry seed.grammar.1.unread =
      .found symbol prototype s := by
    rw [hunread]
    exact ⟨_, Sentence.readTo_of_found Registry.skips_nil hsymbol hfind⟩
  obtain ⟨position, hroot⟩ := perform_rootTask h hprefab settings
  obtain ⟨root, hget, hmark⟩ := exists_root plan settings
  have hrootBaked : root.baked = true := (congrArg Mark.baked hmark).trans hbaked
  have hrootDead : root.dead = false := congrArg Mark.dead hmark
  have hfollows : (seed.chain position .empty).Follows seed := Seed.follows_chain Bundle.tidy_empty
  obtain ⟨hlater, hsentence⟩ := hfollows.bundle.dispatch s
  have hcarry : (seedbed plan settings).perform (.carryOn 0 (seed.chain position .empty)) =
      (seedbed plan settings, [.advance 0 (seed.chain position .empty) true]) := by
    have heq := World.carryOn_eq hget (seed.chain position .empty)
    rw [hrootBaked, if_pos rfl] at heq
    exact heq
  have hadvance : (seedbed plan settings).perform (.advance 0 (seed.chain position .empty) true) =
      (seedbed plan settings, [.search 0 (seed.chain position .empty) true]) :=
    World.advance_eq hget hrootDead _ true
  have hsearch : (seedbed plan settings).perform (.search 0 (seed.chain position .empty) true) =
      ((seedbed plan settings).make
          (prototype.draft symbol ((seedbed plan settings).nodes.nearestAnchor 0) true),
        [.call prototype.handler (seedbed plan settings).nodes.size
          ((seed.chain position .empty).bundle.write Key.sentence (.sentence s)) true]) := by
    show (seedbed plan settings).search 0 (seed.chain position .empty) true = _
    rw [World.search_of_found hread hreading, World.dispatch_eq hfollows.bundle.tidy,
      Bool.true_or]
  obtain ⟨state, hstate, -⟩ := (seedbed plan settings).get?_make
    (prototype.draft symbol ((seedbed plan settings).nodes.nearestAnchor 0) true)
  refine ⟨_, _, _, state, s, ?_, hstate, hlater.follows, hsentence, fun key hkey => ?_⟩
  · exact (((World.comes_of_random hroot rfl rfl).trans (World.comes_of_random hcarry rfl rfl)).trans
      (World.comes_of_random hadvance rfl rfl)).trans
        (World.comes_of_random hsearch rfl (Chain.overflows_of_unread hread))
  · rw [Bundle.find?_write hfollows.bundle.tidy _ _ rfl, if_neg ?_,
      Seed.find?_chain Bundle.tidy_empty position hkey]
    · exact Dictionary.find?_empty key
    · rintro rfl
      exact absurd hkey (by decide)

end Garden
end PlantGrowth
