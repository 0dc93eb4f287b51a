import PlantGrowth.Proofs.Draws
import PlantGrowth.Proofs.Enclosing
import PlantGrowth.Proofs.Unturned

/-!
# Plants that never halt

A run halts in a call that draws between bounds too far apart, or in a search whose counter of
generations has no next number. What can come up in a garden is read off its plan: every call is one of
a handler that is bound in the plant around its node, or of the root's; every search belongs to a plant
whose last generation its counter does not pass. So nothing halts in the garden of a plan whose ranges
are narrow enough and whose generations can be counted (`Garden.neverHalts_of_tame`).
-/

namespace PlantGrowth

/-- All symbols are narrow if all handlers that are bound draw between bounds that are close enough. -/
theorem Seed.narrow_of_entries {seed : Seed Empty} {baked : Bool}
    (h : ∀ entry ∈ seed.registry.entries, ∀ bounds ∈ entry.2.handler.bounds baked,
      bounds.far = false) (symbol : Char) : seed.Narrow baked symbol :=
  fun _ hfind => h _ (SymbolTable.mem_of_find? hfind)

/-- Nothing halts while the plant grows: the generations can be counted, and numbers can be drawn
between all bounds, in the plants within it too. -/
inductive Seed.Tame : Seed Empty → Prop where
  | intro {seed : Seed Empty} (counted : seed.ceiling < Int64.maxValue.toInt)
      (placed : ∀ bounds ∈ seed.traits.variation.bounds, bounds.far = false)
      (narrow : ∀ baked symbol, seed.Narrow baked symbol)
      (within : ∀ symbol prototype inner, seed.registry.find? symbol = some prototype →
        prototype.handler = .seed inner → inner.Tame) : seed.Tame

namespace Seed.Tame

variable {seed : Seed Empty}

theorem counted (h : seed.Tame) : seed.ceiling < Int64.maxValue.toInt := by
  cases h with
  | intro hcounted _ _ _ => exact hcounted

theorem placed (h : seed.Tame) : ∀ bounds ∈ seed.traits.variation.bounds, bounds.far = false := by
  cases h with
  | intro _ hplaced _ _ => exact hplaced

theorem narrow (h : seed.Tame) (baked : Bool) (symbol : Char) : seed.Narrow baked symbol := by
  cases h with
  | intro _ _ hnarrow _ => exact hnarrow baked symbol

theorem within {symbol : Char} {prototype : Prototype Empty} {inner : Seed Empty} (h : seed.Tame)
    (hfind : seed.registry.find? symbol = some prototype) (hinner : prototype.handler = .seed inner) :
    inner.Tame := by
  cases h with
  | intro _ _ _ hwithin => exact hwithin symbol prototype inner hfind hinner

end Seed.Tame

/-- Calls of the handler draw between bounds that are close enough, and a plant that it grows is tame. -/
def Handler.Tame (handler : Handler Empty) : Prop :=
  (∀ baked, ∀ bounds ∈ handler.bounds baked, bounds.far = false) ∧
    ∀ planted, handler = .seed planted → planted.Tame

namespace Seed.Tame

variable {seed : Seed Empty}

/-- A seed is tame as a handler if its plant is. -/
theorem handler (h : seed.Tame) : (Handler.seed seed).Tame := by
  refine ⟨fun baked => ?_, fun planted heq => ?_⟩
  · cases baked with
    | true => exact h.placed
    | false => exact nofun
  · cases heq
    exact h

/-- What is bound in the plant decides. -/
theorem of_handlers (hcounted : seed.ceiling < Int64.maxValue.toInt)
    (hplaced : ∀ bounds ∈ seed.traits.variation.bounds, bounds.far = false)
    (hbound : ∀ handler ∈ seed.registry.entries.map (fun entry => entry.2.handler), handler.Tame) :
    seed.Tame := by
  have hfound : ∀ {symbol : Char} {prototype : Prototype Empty},
      seed.registry.find? symbol = some prototype → prototype.handler.Tame := fun hfind =>
    hbound _ (List.mem_map.mpr ⟨_, SymbolTable.mem_of_find? hfind, rfl⟩)
  exact .intro hcounted hplaced (fun baked _ _ hfind => (hfound hfind).1 baked)
    fun _ _ inner hfind => (hfound hfind).2 inner

end Seed.Tame

/-! ## Counters -/

/-- The counter of a chain of a plant does not pass the plant's last generation. -/
theorem Chain.Tended.overflows_eq_false {a : Arena} {root : Seed Empty} {id : NodeId}
    {chain : Chain Empty} (h : chain.Tended a root id)
    (hcounted : ∀ seed, a.Encloses root seed id → seed.ceiling < Int64.maxValue.toInt) :
    chain.overflows = false := by
  obtain ⟨seed, hencloses, -, hbundle⟩ := h
  exact Chain.overflows_of_lt (Int.lt_of_le_of_lt hbundle.le_ceiling (hcounted seed hencloses))

namespace Garden

variable {plan : PlantPlan} {settings : Settings} {seed : Seed Empty} {w : World Empty}
  {task : Task Empty} {rest : List (Task Empty)}

theorem tended_of_underway {tasks : List (Task Empty)} (hok : plan.seed = .ok seed)
    (h : Underway plan settings w tasks) : ∃ waiting, Tended seed w tasks waiting := by
  refine (tended_invariant ⟨plan, trivial, hok⟩).of_underway (fun other hother => ?_) h
  obtain rfl : seed = other := Except.ok.inj (hok.symm.trans hother)
  exact tended_seedbed hok settings

theorem unturned_of_underway {tasks : List (Task Empty)} (h : Underway plan settings w tasks) :
    ∃ waiting, Unturned w tasks waiting :=
  unturned_invariant.of_underway (fun seed _ => unturned_seedbed seed) h

/-- **Every search can be counted** if the generations can that the plants of a garden have. -/
theorem overflows_of_underway {P : Seed Empty → Prop}
    (hwithin : ∀ {seed inner symbol prototype}, P seed →
      seed.registry.find? symbol = some prototype → prototype.handler = .seed inner → P inner)
    (hcounted : ∀ seed, P seed → seed.ceiling < Int64.maxValue.toInt) (hok : plan.seed = .ok seed)
    (hseed : P seed) (h : Underway plan settings w (task :: rest)) : task.overflows = false := by
  obtain ⟨waiting, htended⟩ := tended_of_underway hok h
  cases task with
  | search predecessor chain baked =>
    rcases htended.tasks _ List.mem_cons_self with hchain | ⟨baked, heq⟩
    · exact hchain.overflows_eq_false fun other hencloses =>
        hcounted other (hencloses.within hwithin hseed)
    · cases heq
  | _ => rfl

/-- **Nothing halts at a call that draws between the bounds of its handler**, if those are close
enough. -/
theorem draws_of_underway {handler : Handler Empty} {node : NodeId} {bundle : Bundle Empty}
    {baked : Bool} (h : Underway plan settings w (.call handler node bundle baked :: rest))
    (hnarrow : ∀ bounds ∈ handler.bounds baked, bounds.far = false) :
    ∀ bounds ∈ (Task.call handler node bundle baked).draws w, bounds.far = false := by
  obtain ⟨waiting, hunturned⟩ := unturned_of_underway h
  have hbundle : bundle.Unturned := hunturned.tasks _ List.mem_cons_self
  exact fun bounds hmem => hnarrow bounds (Handler.mem_bounds_of_mem_draws hbundle.rotation?_eq hmem)

/-- No task of planting or ticking halts. -/
def NeverHalts (plan : PlantPlan) (settings : Settings) : Prop :=
  ∀ w task rest, Underway plan settings w (task :: rest) → w.halts task = false

/-- **Nothing halts in the garden of a tame plan.** -/
theorem neverHalts_of_tame (hok : plan.seed = .ok seed) (htame : seed.Tame) :
    NeverHalts plan settings := by
  intro w task rest h
  refine World.halts_eq_false_iff.mpr ⟨?_, ?_⟩
  · exact overflows_of_underway Seed.Tame.within (fun _ => Seed.Tame.counted) hok htame h
  · cases task with
    | call handler node bundle baked =>
      refine draws_of_underway h ?_
      obtain ⟨waiting, htended⟩ := tended_of_underway hok h
      rcases htended.tasks _ List.mem_cons_self with hcall | ⟨mode, heq⟩
      · obtain ⟨around, p, state, prototype, -, -, hencloses, -, hfind, rfl⟩ := hcall
        exact (hencloses.within Seed.Tame.within htame).narrow baked state.symbol prototype hfind
      · cases heq
        intro bounds hmem
        cases baked with
        | true => exact htame.placed bounds hmem
        | false => cases hmem
    | _ => exact fun bounds hmem => by cases hmem

end Garden
end PlantGrowth
