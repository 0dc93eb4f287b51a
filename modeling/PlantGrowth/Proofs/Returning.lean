import PlantGrowth.Proofs.Finishing
import PlantGrowth.Proofs.Planting
import PlantGrowth.Proofs.Tame

/-!
# When planting and ticking return

Whether a plan is planted at all, and whether a garden is ever through with a tick, is decided by three
things. A symbol for the tip of a branch may be bound to any handler, to the branch itself too, and
nothing in a plan is refused for it; then planting a baked plant never returns, and of a live plant some
tick does not. A range may be so wide that no number can be drawn from it, and a plant may have more
generations than can be counted; at these two faults the program stops. There is nothing else that keeps
planting and ticking from returning (`Garden.returns_iff`).
-/

namespace PlantGrowth

namespace Garden

variable {plan : PlantPlan} {settings : Settings} {w : World Empty} {tasks : List (Task Empty)}

/-- **Every stage of planting and ticking settles.** -/
theorem settlesIn_of_underway (h : Underway plan settings w tasks) :
    World.SettlesIn World.EndlessTip w tasks := by
  have hsound : (Law.upright fun _ => True).Sound := Law.sound_upright fun _ _ _ => trivial
  obtain ⟨waiting, hgoverns⟩ := hsound.governs_underway (fun _ _ => trivial) h
  exact World.settlesIn_of_stage hgoverns.tasks

/-- A stage of planting or ticking ends exactly if it never gets stuck, in a branch whose tips have tips
without end or in a task that halts. -/
theorem ends_iff_of_underway (h : Underway plan settings w tasks) :
    (∃ after, w.Ends tasks after) ↔ ¬ World.Meets (World.Stuck World.EndlessTip) w tasks :=
  (settlesIn_of_underway h).ends_iff fun _ _ _ _ hendless => World.not_ends_of_endlessTip hendless

theorem planting_returns_iff {seed : Seed Empty} (h : plan.seed = .ok seed) :
    (∃ limit garden, build limit plan settings = .ok (some garden)) ↔
      ∃ after, (seedbed plan settings).Ends [rootTask plan seed] after := by
  constructor
  · rintro ⟨limit, garden, hbuild⟩
    obtain ⟨after, hends, -⟩ := (build_eq_ok_iff h).mp ⟨limit, hbuild⟩
    exact ⟨after, hends⟩
  · rintro ⟨after, hends⟩
    obtain ⟨limit, hbuild⟩ := (build_eq_ok_iff h).mpr ⟨after, hends, rfl⟩
    exact ⟨limit, _, hbuild⟩

/-- **Where the tips of a plan end, no branch has tips without end.** -/
theorem not_meets_of_tipsEnd (htips : plan.TipsEnd) (h : Underway plan settings w tasks) :
    ¬ World.Meets World.EndlessTip w tasks := by
  rintro ⟨later, task, rest, hcomes, hendless⟩
  have hsound : (Law.upright (PlantPlan.Yields PlantPlan.TipsEnd)).Sound :=
    Law.sound_upright fun hgrows hfind hseed =>
      hgrows.within (fun hplan hbound => hplan.within hbound) hfind hseed
  obtain ⟨waiting, hgoverns⟩ := hsound.governs_underway
    (fun seed hseed => ⟨plan, htips, hseed⟩) (h.of_comes hcomes)
  obtain ⟨hhead, -⟩ := hgoverns.tasks
  cases hendless with
  | @intro shape node bundle baked state _ hnot =>
    rcases hhead with hobeys | ⟨handler, _, _, _, heq, hcall⟩
    · exact hobeys
    · cases heq
      generalize hhandler : Handler.branch shape = handler at hcall
      cases hcall with
      | root _ _ => cases hhandler
      | bound hgrows hfollows _ hfind _ _ _ =>
        obtain ⟨inner, hinner, hok⟩ := hgrows
        exact hnot (PlantPlan.tipsEnd_of_acc hok hfollows (hinner.own _) hfind hhandler.symm)

/-- **Where moreover nothing halts, what is begun gets done.** -/
theorem exists_ends (htips : plan.TipsEnd) (hgoes : NeverHalts plan settings)
    (h : Underway plan settings w tasks) : ∃ after, w.Ends tasks after := by
  refine (ends_iff_of_underway h).mpr ?_
  rintro ⟨later, task, rest, hcomes, hstuck⟩
  cases hstuck with
  | halts hhalts => exact Bool.eq_false_iff.mp (hgoes later task rest (h.of_comes hcomes)) hhalts
  | kind hendless => exact not_meets_of_tipsEnd htips h ⟨later, task, rest, hcomes, hendless⟩

/-- Such a plan can be planted. -/
theorem exists_build {seed : Seed Empty} (htips : plan.TipsEnd) (hgoes : NeverHalts plan settings)
    (h : plan.seed = .ok seed) : ∃ limit garden, build limit plan settings = .ok (some garden) :=
  (planting_returns_iff h).mpr (exists_ends htips hgoes (Underway.planting h))

/-- A tick of such a plan's garden returns. -/
theorem exists_tick {garden : Garden} (htips : plan.TipsEnd) (hgoes : NeverHalts plan settings)
    (h : Reached plan settings garden) :
    ∃ limit result, Simulation.tick limit garden = some result := by
  rw [tick_returns_iff]
  intro w tasks hresumes
  exact exists_ends htips hgoes (Underway.resuming h hresumes)

/-- And so does any number of ticks. -/
theorem exists_ticks_of_reached {garden : Garden} (htips : plan.TipsEnd)
    (hgoes : NeverHalts plan settings) (h : Reached plan settings garden) (count : Nat) :
    ∃ limit result, ticks limit count garden = some result :=
  exists_ticks (fun _ hreached => exists_tick htips hgoes hreached)
    (fun _ _ _ _ hreached htick => hreached.ticked htick) count h

/-- **Nothing halts in a plant without plants within it** if it can count its generations and its calls
draw between bounds that are close enough. The call of the root draws nothing, unless the root is shared.
-/
theorem neverHalts_of_calls {seed : Seed Empty} (h : plan.seed = .ok seed)
    (hprefab : plan.traits.prefab = none) (hcounted : seed.ceiling < Int64.maxValue.toInt)
    (hsingle : ∀ symbol prototype, seed.registry.find? symbol = some prototype →
      ∀ planted, prototype.handler ≠ .seed planted)
    (hcalls : ∀ w handler node bundle baked rest,
      Underway plan settings w (.call handler node bundle baked :: rest) →
        w = seedbed plan settings ∧ .call handler node bundle baked = rootTask plan seed ∨
          ∀ bounds ∈ handler.bounds baked, bounds.far = false) : NeverHalts plan settings := by
  intro w task rest hunderway
  refine World.halts_eq_false_iff.mpr ⟨?_, ?_⟩
  · refine overflows_of_underway (P := (seed = ·)) ?_ ?_ h rfl hunderway
    · rintro _ inner symbol prototype rfl hfind hinner
      exact absurd hinner (hsingle symbol prototype hfind inner)
    · rintro _ rfl
      exact hcounted
  · cases task with
    | call handler node bundle baked =>
      rcases hcalls w handler node bundle baked rest hunderway with ⟨rfl, hroot⟩ | hnarrow
      · obtain ⟨position, hperform⟩ := perform_rootTask h hprefab settings
        refine (World.halts_eq_false_iff.mp ((World.halts_of_random ?_).trans rfl)).2
        rw [hroot, hperform]
      · exact draws_of_underway hunderway hnarrow
    | _ => exact fun bounds hmem => by cases hmem

/-- **Planting and ticking return exactly if they never get stuck**: they come to no branch whose tips
have tips without end, to no draw between bounds that are too far apart, and to no generation that cannot
be counted. So they always return in a plan whose symbols for tips lead to no such branch, whose ranges
are narrow enough and whose generations can be counted. -/
theorem returns_iff {seed : Seed Empty} (h : plan.seed = .ok seed) (settings : Settings) :
    ((∃ limit garden, build limit plan settings = .ok (some garden)) ↔
        ¬ World.Meets (World.Stuck World.EndlessTip) (seedbed plan settings) [rootTask plan seed]) ∧
      (∀ garden, Reached plan settings garden →
        ((∃ limit result, Simulation.tick limit garden = some result) ↔
          ∀ w tasks, garden.Resumes w tasks →
            ¬ World.Meets (World.Stuck World.EndlessTip) w tasks)) ∧
      (plan.TipsEnd → seed.Tame → (∃ limit garden, build limit plan settings = .ok (some garden)) ∧
        ∀ garden, Reached plan settings garden →
          ∃ limit result, Simulation.tick limit garden = some result) := by
  refine ⟨?_, fun garden hreached => ?_, fun htips htame => ?_⟩
  · exact (planting_returns_iff h).trans (ends_iff_of_underway (Underway.planting h))
  · rw [tick_returns_iff]
    constructor
    · intro hends w tasks hresumes
      exact (ends_iff_of_underway (Underway.resuming hreached hresumes)).mp (hends w tasks hresumes)
    · intro hnever w tasks hresumes
      exact (ends_iff_of_underway (Underway.resuming hreached hresumes)).mpr
        (hnever w tasks hresumes)
  · have hgoes : NeverHalts plan settings := neverHalts_of_tame h htame
    exact ⟨exists_build htips hgoes h, fun garden hreached => exists_tick htips hgoes hreached⟩

/-- A baked plant of one branch, at whose tip is a leaf. -/
def leafTipped : PlantPlan where
  traits := { start := "F", baked := true }
  handlers := ⟨[('F', .branch { tipSymbol := some 'L' }), ('L', .leaf none {})]⟩

theorem tipsEnd_leafTipped : leafTipped.TipsEnd := by
  have hleaf : leafTipped.tipOf? 'L' = none := rfl
  have hlast : Acc (fun next symbol => leafTipped.tipOf? symbol = some next) 'L' := by
    refine Acc.intro 'L' fun next hnext => ?_
    rw [hleaf] at hnext
    cases hnext
  have hbound : ∀ symbol handler, leafTipped.handlers.find? symbol = some handler →
      handler = .branch { tipSymbol := some 'L' } ∨ handler = .leaf none {} := by
    intro symbol handler hfind
    rcases List.mem_cons.mp (SymbolTable.mem_of_find? hfind) with heq | hmem
    · exact Or.inl (congrArg Prod.snd heq)
    · exact Or.inr (congrArg Prod.snd (List.mem_singleton.mp hmem))
  refine PlantPlan.TipsEnd.intro (fun symbol => ?_) fun symbol inner hfind => ?_
  · refine Acc.intro symbol fun next hnext => ?_
    rw [PlantPlan.tipOf?] at hnext
    cases hfind : leafTipped.handlers.find? symbol with
    | none =>
      rw [hfind] at hnext
      cases hnext
    | some handler =>
      rw [hfind] at hnext
      rcases hbound symbol handler hfind with rfl | rfl
      · rw [← Option.some.inj hnext]
        exact hlast
      · cases hnext
  · rcases hbound symbol _ hfind with heq | heq
    · cases heq
    · cases heq

theorem leafTipped_returns : ∃ seed : Seed Empty, leafTipped.seed = .ok seed ∧ seed.Tame ∧
    (∃ limit garden, build limit leafTipped {} = .ok (some garden)) ∧
      ∀ garden, Reached leafTipped {} garden →
        ∃ limit result, Simulation.tick limit garden = some result := by
  obtain ⟨seed, hseed, hceiling, hvariation, hhandlers⟩ : ∃ seed : Seed Empty,
      leafTipped.seed = .ok seed ∧ seed.ceiling = 0 ∧ seed.traits.variation = {} ∧
        seed.registry.entries.map (fun entry => entry.2.handler) =
          [.branch { tipSymbol := some 'L' }, .leaf {}] := ⟨_, rfl, rfl, rfl, rfl⟩
  have htame : seed.Tame := by
    refine .of_handlers (by rw [hceiling]; decide) (by rw [hvariation]; decide +kernel) ?_
    rw [hhandlers, List.forall_mem_cons, List.forall_mem_singleton]
    exact ⟨⟨nofun, nofun⟩, nofun, nofun⟩
  exact ⟨seed, hseed, htame, (returns_iff hseed {}).2.2 tipsEnd_leafTipped htame⟩

/-! ### Planting that does not return -/

/-- A plan is never planted whose planting gets stuck. -/
theorem build_of_stuck {seed : Seed Empty} (h : plan.seed = .ok seed)
    (hmeets : World.Meets (World.Stuck World.EndlessTip) (seedbed plan settings) [rootTask plan seed])
    (limit : Nat) : build limit plan settings = .ok none := by
  rw [build_eq h]
  cases hrun : World.run limit [rootTask plan seed] (seedbed plan settings) with
  | none => rfl
  | some after =>
    exact absurd hmeets ((ends_iff_of_underway (Underway.planting h)).mp ⟨after, limit, hrun⟩)

/-- **A baked plan is never planted whose first symbol draws between bounds that are too far apart.** -/
theorem build_of_far {seed : Seed Empty} (h : plan.seed = .ok seed) (hbaked : plan.traits.baked = true)
    (hprefab : plan.traits.prefab = none) {symbol : Char} {rest : List Char}
    {prototype : Prototype Empty} (hunread : seed.grammar.1.unread = symbol :: rest)
    (hsymbol : symbol ≠ sentinel) (hfind : seed.registry.find? symbol = some prototype)
    (hhandler : ∀ planted, prototype.handler ≠ .seed planted)
    (hfar : ∃ bounds ∈ prototype.handler.bounds true, bounds.far = true) (limit : Nat)
    (settings : Settings) : build limit plan settings = .ok none := by
  obtain ⟨w, node, bundle, state, s, hcomes, -, hfollows, hs, -⟩ :=
    exists_first_call h hbaked hprefab settings hunread hsymbol hfind
  refine build_of_stuck h ⟨w, _, [], hcomes, .halts ?_⟩ limit
  rw [← Bool.not_eq_false, World.halts_eq_false_iff]
  rintro ⟨-, hdraws⟩
  obtain ⟨bounds, hmem, hwide⟩ := hfar
  have hclose := hdraws bounds (Handler.mem_draws_of_mem_bounds hfollows hs hhandler hmem)
  exact Bool.false_ne_true (hclose.symm.trans hwide)

/-- The number nearest to `10 ^ 308`. Twice as much is no finite number. -/
def huge : Float := Float.ofBits 0x7fe1ccf385ebc8a0

/-- A baked plant of one branch that names its own symbol for its tip. -/
def selfTipped : PlantPlan where
  traits := { start := "F", baked := true }
  handlers := ⟨[('F', .branch { tipSymbol := some 'F' })]⟩

/-- **The plan has no faults, and planting it never returns.** -/
theorem build_selfTipped : (∃ seed : Seed Empty, selfTipped.seed = .ok seed) ∧
    ∀ limit settings, build limit selfTipped settings = .ok none := by
  obtain ⟨seed, hseed, hfind, hunread⟩ : ∃ seed : Seed Empty, selfTipped.seed = .ok seed ∧
      seed.registry.find? 'F' = some (.named "branch" (.branch { tipSymbol := some 'F' })) ∧
      seed.grammar.1.unread = ['F'] := ⟨_, rfl, rfl, by decide⟩
  refine ⟨⟨seed, hseed⟩, fun limit settings => ?_⟩
  obtain ⟨w, node, bundle, state, s, hcomes, hnode, hfollows, hsentence, hforeign⟩ :=
    exists_first_call hseed rfl rfl settings hunread (by decide) hfind
  obtain ⟨heading, hheading⟩ := hfollows.heading
  have hlength := hforeign Key.branchLength (by decide)
  have hradius := hforeign Key.branchRadius (by decide)
  have hself : bundle.tipBranch? { tipSymbol := some 'F' } = some { tipSymbol := some 'F' } := by
    have hstunts : bundle.stunts { tipSymbol := some 'F' } = false := by
      simp only [Bundle.stunts, Bundle.float?, hlength, hradius]
      decide
    simp only [Bundle.tipBranch?, hfollows.core_eq hsentence, Bundle.vec3?_of_find? hheading,
      hstunts, Option.bind_some, hfind]
    rfl
  exact build_of_stuck hseed
    ⟨w, _, [], hcomes, .kind (World.EndlessTip.intro hnode (Bundle.not_tipsEnd_of_self hself))⟩ limit

end Garden
end PlantGrowth
