import PlantGrowth.Proofs.Returning

/-!
# Plants without chance

A plan is *steady* if no range in it leaves anything to chance: the bounds of every range are equal, in
the plant and in all plants within it. A draw between equal bounds takes nothing from the random
generator, so a steady plant grows as it does whatever seed the generator has. Nothing that is kept or
reported tells the one seed from the other, but for the generator itself, and that is never used
(`Garden.seed_never_shows`).

The proof is that of one step. A world with another seed and another generator goes through the same
step as the world itself, and comes to the same world with the other seed and generator.
-/

namespace PlantGrowth

/-! ## Steady plans -/

/-- Instances are all turned and sized alike. -/
def Variation.Steady (variation : Variation) : Prop :=
  (variation.rotationMin == variation.rotationMax) = true ∧
    (variation.scaleMin == variation.scaleMax) = true

/-- The bounds of the range are equal, if there is one. -/
def HandlerPlan.Steady : HandlerPlan → Prop
  | .pause minSeconds maxSeconds => (minSeconds == maxSeconds) = true
  | .turnRotation eulerMin eulerMax => (eulerMin == eulerMax) = true
  | .turnHeading _ angleMin angleMax => (angleMin == angleMax) = true
  | .move distanceMin distanceMax => (distanceMin == distanceMax) = true
  | _ => True

/-- The bounds of all ranges are equal, in the plant and in the plants within it. -/
inductive PlantPlan.Steady : PlantPlan → Prop where
  | intro {plan : PlantPlan} (variation : plan.traits.variation.Steady)
      (own : ∀ symbol handler, plan.handlers.find? symbol = some handler → handler.Steady)
      (within : ∀ symbol inner, plan.handlers.find? symbol = some (.seed inner) → Steady inner) :
      Steady plan

/-- The same of a handler. -/
def Handler.Steady : Handler Empty → Prop
  | .pause minSeconds maxSeconds => (minSeconds == maxSeconds) = true
  | .turnRotation eulerMin eulerMax => (eulerMin == eulerMax) = true
  | .turnHeading _ angleMin angleMax => (angleMin == angleMax) = true
  | .move distanceMin distanceMax => (distanceMin == distanceMax) = true
  | .seed planted => planted.traits.variation.Steady
  | _ => True

namespace PlantPlan

variable {plan : PlantPlan} {seed : Seed Empty} {symbol : Char} {prototype : Prototype Empty}

theorem Steady.within {inner : PlantPlan} (h : plan.Steady)
    (hfind : plan.handlers.find? symbol = some (.seed inner)) : inner.Steady := by
  cases h with
  | intro _ _ hwithin => exact hwithin symbol inner hfind

theorem Steady.variation (h : plan.Steady) (hok : plan.seed = .ok seed) :
    seed.traits.variation.Steady := by
  obtain ⟨rules, -, -, htraits, -⟩ := traits_of_seed hok
  rw [htraits]
  cases h with
  | intro hvariation _ _ => exact hvariation

/-- **The handlers of a steady plan are steady.** -/
theorem Steady.handler (h : plan.Steady) (hok : plan.seed = .ok seed)
    (hfind : seed.registry.find? symbol = some prototype) : prototype.handler.Steady := by
  obtain ⟨handler, hbound, hmakes⟩ := makes_of_find? hok hfind
  have hown : handler.Steady := by
    cases h with
    | intro _ hown _ => exact hown symbol handler hbound
  generalize prototype.handler = made at hmakes ⊢
  cases hmakes with
  | fork closing => trivial
  | pause minSeconds maxSeconds => exact hown
  | turnRotation eulerMin eulerMax => exact hown
  | turnHeading axis angleMin angleMax => exact hown
  | move distanceMin distanceMax => exact hown
  | branch shape => trivial
  | leaf prefab shape => trivial
  | seed hplant => exact (h.within hbound).variation hplant

end PlantPlan

/-! ## Draws that leave nothing to chance -/

namespace World

variable {w : World Empty}

/-- **Nothing is drawn between equal bounds.** -/
theorem drawBetween_of_eq {first second : Float} (h : (first == second) = true) :
    w.drawBetween first second = (first, w) := by
  rw [drawBetween, Random.range, h]
  rfl

theorem drawRotation_of_eq {first second : Vec3} (h : (first == second) = true) :
    w.drawRotation first second =
      (Rotation.ofEuler (radians first.x) (radians first.y) (radians first.z), w) := by
  obtain ⟨x, y, z⟩ := first
  obtain ⟨x', y', z'⟩ := second
  have hall : (x == x' && (y == y' && z == z')) = true := h
  simp only [Bool.and_eq_true] at hall
  simp only [drawRotation, drawBetween_of_eq hall.1, drawBetween_of_eq hall.2.1,
    drawBetween_of_eq hall.2.2]

/-- All placements at a position and with a heading are the same. -/
theorem placement_of_steady {variation : Variation} (h : variation.Steady) (w : World Empty)
    (position heading : Vec3) :
    w.placement variation position heading =
      ({ position
         rotation := (Rotation.towards heading).mul
           (Rotation.ofEuler (radians variation.rotationMin.x) (radians variation.rotationMin.y)
             (radians variation.rotationMin.z))
         scale := variation.scaleMin }, w) := by
  simp only [placement, drawRotation_of_eq h.1, drawBetween_of_eq h.2]

end World

/-! ## Other seeds -/

/-- The world with another seed and another generator. -/
def World.reseed (w : World Empty) (seed : Nat) (random : Random) : World Empty :=
  { w with random, settings := { w.settings with rngSeed := seed } }

/-- The effect on such a world. -/
def Effect.reseed (effect : Effect Empty) (seed : Nat) (random : Random) : Effect Empty :=
  { effect with world := effect.world.reseed seed random }

/-- What resuming does in such a world. -/
def Resumption.reseed (resumption : Resumption Empty) (seed : Nat) (random : Random) :
    Resumption Empty := { resumption with world := resumption.world.reseed seed random }

section

variable {seed : Nat} {random : Random} {w : World Empty} {node : NodeId} {bundle : Bundle Empty}
  {baked : Bool}

namespace World

@[simp] theorem nodes_reseed : (w.reseed seed random).nodes = w.nodes := rfl

@[simp] theorem prefabs_reseed : (w.reseed seed random).prefabs = w.prefabs := rfl

@[simp] theorem sharedBlades_reseed : (w.reseed seed random).sharedBlades = w.sharedBlades := rfl

@[simp] theorem time_reseed : (w.reseed seed random).time = w.time := rfl

@[simp] theorem deltaTime_reseed : (w.reseed seed random).deltaTime = w.deltaTime := rfl

@[simp] theorem maxGenerations_reseed :
    (w.reseed seed random).settings.maxGenerations = w.settings.maxGenerations := rfl

theorem reseed_mapNodes (change : Arena → Arena) :
    (w.reseed seed random).mapNodes change = (w.mapNodes change).reseed seed random := rfl

/-! ### Tasks -/

theorem reseed_carryOn (chain : Chain Empty) :
    (w.reseed seed random).carryOn node chain =
      ((w.carryOn node chain).1.reseed seed random, (w.carryOn node chain).2) := by
  simp only [carryOn, nodes_reseed]
  cases w.nodes.get? node with
  | none => rfl
  | some state =>
    cases hbaked : state.baked with
    | true => simp only [hbaked, if_true]
    | false => simp only [hbaked, Bool.false_eq_true, if_false]; rfl

theorem reseed_advance (chain : Chain Empty) :
    (w.reseed seed random).advance node chain baked =
      ((w.advance node chain baked).1.reseed seed random, (w.advance node chain baked).2) := by
  simp only [advance, nodes_reseed]
  by_cases h : w.nodes.isDead node = true
  · simp only [h, if_true]
  · simp only [h, if_false, Bool.false_eq_true]

theorem reseed_dispatch (symbol : Char) (prototype : Prototype Empty) (s : Sentence) :
    (w.reseed seed random).dispatch node symbol prototype s bundle baked =
      ((w.dispatch node symbol prototype s bundle baked).1.reseed seed random,
        (w.dispatch node symbol prototype s bundle baked).2) := by
  simp only [dispatch, nodes_reseed]
  rcases bundle.assign Key.sentence (.sentence s) with ⟨written | written, later⟩ <;> rfl

theorem reseed_search (chain : Chain Empty) :
    (w.reseed seed random).search node chain baked =
      ((w.search node chain baked).1.reseed seed random, (w.search node chain baked).2) := by
  simp only [search, maxGenerations_reseed]
  cases (if chain.core.sentence.hasUnread = true then some chain
    else chain.renew? w.settings.maxGenerations) with
  | none => rfl
  | some current =>
    dsimp only
    cases current.core.sentence.unread with
    | nil => rfl
    | cons symbol rest =>
      dsimp only
      cases current.core.sentence.readTo current.core.registry (symbol :: rest) with
      | found symbol prototype s => exact reseed_dispatch symbol prototype s
      | ended => rfl
      | exhausted s => rfl

theorem reseed_emerge (variation : Variation) (id : NodeId) :
    (w.reseed seed random).emerge variation id = (w.emerge variation id).reseed seed random := by
  by_cases h : (!variation.scaleOnSpawn || w.prefabs.isGrowing) = true
  · simp only [emerge, prefabs_reseed, h, if_true]
  · simp only [emerge, nodes_reseed, prefabs_reseed, h, if_false, Bool.false_eq_true]
    cases w.nodes.get? id <;> rfl

theorem reseed_publish (prefab : Prefab) :
    (w.reseed seed random).publish prefab = (w.publish prefab).reseed seed random := by
  simp only [publish, nodes_reseed, prefabs_reseed]
  generalize (w.nodes.moveToOrigin prefab.node).copySubtree prefab.node prefab.anchor
    prefab.placement = copied
  generalize w.prefabs.register prefab.identifier prefab.node = stored
  obtain ⟨copy, nodes⟩ := copied
  obtain ⟨registered, prefabs⟩ := stored
  cases copy with
  | none =>
    dsimp only
    cases registered <;> rfl
  | some root =>
    dsimp only
    rw [← reseed_emerge]
    cases registered <;> rfl

/-- The world in which a copy of a prototype is placed. -/
theorem reseed_placeInstance (identifier : String) (prototype : NodeId) (parent : Option NodeId)
    (placement : Transform) (variation : Variation) :
    (w.reseed seed random).placeInstance identifier prototype parent placement variation =
      (w.placeInstance identifier prototype parent placement variation).reseed seed random := by
  simp only [placeInstance, nodes_reseed]
  generalize w.nodes.copyPrototype prototype parent placement = copied
  obtain ⟨copy, nodes⟩ := copied
  cases copy with
  | none => rfl
  | some root =>
    dsimp only
    rw [← reseed_emerge]
    rfl

/-! ### Calls -/

theorem reseed_fork (closing : Char) :
    (w.reseed seed random).fork closing node bundle =
      (w.fork closing node bundle).reseed seed random := by
  simp only [fork, coreOrWarn]
  cases bundle.core with
  | error missing => rfl
  | ok core =>
    dsimp only
    simp only [nodes_reseed]
    generalize core.sentence.takeBranch _ closing = cut
    rcases cut with ⟨cause | interior, residue⟩ <;> rfl

theorem reseed_pause {minSeconds maxSeconds : Float} (h : (minSeconds == maxSeconds) = true) :
    (w.reseed seed random).pause minSeconds maxSeconds node bundle baked =
      (w.pause minSeconds maxSeconds node bundle baked).reseed seed random := by
  simp only [pause, coreOrWarn, drawBetween_of_eq h]
  cases bundle.core with
  | error missing => rfl
  | ok core => cases baked <;> rfl

theorem reseed_turnRotation {eulerMin eulerMax : Vec3} (h : (eulerMin == eulerMax) = true) :
    (w.reseed seed random).turnRotation eulerMin eulerMax node bundle =
      (w.turnRotation eulerMin eulerMax node bundle).reseed seed random := by
  simp only [turnRotation, drawRotation_of_eq h]
  cases bundle.rotation? Key.rotation <;> cases bundle.core <;> rfl

theorem reseed_turnHeading (axis : Vec3) {angleMin angleMax : Float}
    (h : (angleMin == angleMax) = true) :
    (w.reseed seed random).turnHeading axis angleMin angleMax node bundle =
      (w.turnHeading axis angleMin angleMax node bundle).reseed seed random := by
  simp only [turnHeading, drawBetween_of_eq h]
  cases bundle.vec3? Key.heading <;> cases bundle.core <;> rfl

theorem reseed_move {distanceMin distanceMax : Float} (h : (distanceMin == distanceMax) = true) :
    (w.reseed seed random).move distanceMin distanceMax node bundle =
      (w.move distanceMin distanceMax node bundle).reseed seed random := by
  simp only [move, drawBetween_of_eq h]
  cases bundle.vec3? Key.heading <;> cases bundle.core <;> rfl

theorem reseed_bakedOutline (unfolding : Unfolding Empty) :
    (w.reseed seed random).bakedOutline unfolding =
      ((w.bakedOutline unfolding).1, (w.bakedOutline unfolding).2.reseed seed random) := by
  simp only [bakedOutline, nodes_reseed, sharedBlades_reseed]
  cases (w.nodes.get? unfolding.node).bind (·.prefab) with
  | none => rfl
  | some identifier =>
    dsimp only
    cases w.sharedBlades.find? identifier with
    | some shared => rfl
    | none =>
      dsimp only
      cases unfolding.outline? 1 <;> rfl

theorem reseed_attachTip (registry : Registry Empty) (symbol : Char) :
    (w.reseed seed random).attachTip node registry symbol bundle baked =
      ((w.attachTip node registry symbol bundle baked).1,
        (w.attachTip node registry symbol bundle baked).2.1.reseed seed random,
        (w.attachTip node registry symbol bundle baked).2.2) := by
  simp only [attachTip, nodes_reseed]
  cases registry.find? symbol <;> rfl

theorem reseed_branch (shape : BranchShape) :
    (w.reseed seed random).branch shape node bundle baked =
      (w.branch shape node bundle baked).reseed seed random := by
  simp only [branch, coreOrWarn]
  cases bundle.core with
  | error missing => rfl
  | ok core =>
    dsimp only
    cases bundle.vec3? Key.heading with
    | none => rfl
    | some heading =>
      dsimp only
      by_cases hsmall : (decide ((bundle.float? Key.branchLength).getD shape.startLength <
          shape.lengthCutoff) || decide ((bundle.float? Key.branchRadius).getD shape.startRadius <
          shape.radiusCutoff)) = true
      · simp only [hsmall, if_true]
        rfl
      · simp only [hsmall, if_false, Bool.false_eq_true, nodes_reseed]
        cases w.nodes.get? node with
        | none => rfl
        | some state =>
          dsimp only
          rw [reseed_mapNodes]
          generalize w.mapNodes (·.place node (·.face heading)) = placed
          cases shape.tipSymbol with
          | none => cases baked <;> rfl
          | some symbol =>
            dsimp only
            rw [reseed_attachTip]
            cases baked <;> rfl

theorem reseed_leaf (shape : LeafShape) :
    (w.reseed seed random).leaf shape node bundle baked =
      (w.leaf shape node bundle baked).reseed seed random := by
  simp only [leaf, coreOrWarn]
  cases bundle.core with
  | error missing => rfl
  | ok core =>
    dsimp only
    cases bundle.vec3? Key.heading with
    | none => rfl
    | some heading =>
      dsimp only
      have hnotes : (if shape.hasSegments = true then w.reseed seed random
            else (w.reseed seed random).warn
              (.noSegments node shape.medialSegments shape.lateralSegments)) =
          (if shape.hasSegments = true then w
            else w.warn (.noSegments node shape.medialSegments shape.lateralSegments)).reseed
              seed random := by
        split <;> rfl
      rw [hnotes]
      generalize (if shape.hasSegments = true then w
        else w.warn (.noSegments node shape.medialSegments shape.lateralSegments)) = noted
      by_cases hnode : noted.nodes.contains node = true
      · simp only [nodes_reseed, hnode, if_true, reseed_mapNodes, reseed_bakedOutline]
        cases baked with
        | true => rfl
        | false => cases shape.animate <;> rfl
      · simp only [nodes_reseed, hnode, if_false, Bool.false_eq_true]
        rfl

/-! ### Branches that grow -/

theorem reseed_carryTip (growth : Elongation Empty) :
    growth.carryTip (w.reseed seed random) = (growth.carryTip w).reseed seed random := by
  simp only [Elongation.carryTip, nodes_reseed]
  cases growth.tip with
  | none => rfl
  | some tip => cases w.nodes.get? growth.node <;> rfl

theorem reseed_measure (growth : Elongation Empty) (distance : Float) :
    growth.measure (w.reseed seed random) distance =
      (growth.measure w distance).reseed seed random := rfl

theorem reseed_tellRadius (growth : Elongation Empty) :
    growth.tellRadius (w.reseed seed random) = (growth.tellRadius w).reseed seed random := by
  simp only [Elongation.tellRadius]
  cases growth.callback with
  | none => rfl
  | some callback =>
    cases callback with
    | topRadius told factor => rfl
    | host foreign => exact foreign.elim

theorem distance_reseed (growth : Elongation Empty) :
    growth.distance (w.reseed seed random) = growth.distance w := rfl

theorem reseed_finish (growth : Elongation Empty) :
    growth.finish (w.reseed seed random) = (growth.finish w).reseed seed random := by
  simp only [Elongation.finish, Resumption.reseed, reseed_carryTip, distance_reseed, reseed_measure,
    reseed_tellRadius]

theorem reseed_ripen (growth : Elongation Empty) :
    growth.ripen (w.reseed seed random) =
      ((growth.ripen w).1.reseed seed random, (growth.ripen w).2) := by
  simp only [Elongation.ripen, reseed_mapNodes, reseed_finish]
  rfl

/-! ### Seeds -/

theorem reseed_seedLive (planted : Seed Empty) :
    (w.reseed seed random).seedLive planted node bundle =
      ((w.seedLive planted node bundle).1,
        (w.seedLive planted node bundle).2.reseed seed random) := by
  simp only [seedLive, nodes_reseed]
  by_cases hdead : w.nodes.isDead node = true
  · simp only [hdead, if_true]
    rfl
  · simp only [hdead, if_false, Bool.false_eq_true]
    rfl

theorem startChain_reseed (planted : Seed Empty) :
    planted.startChain (w.reseed seed random) node bundle = planted.startChain w node bundle := rfl

theorem reseed_seedBaked {planted : Seed Empty} (h : planted.traits.variation.Steady) :
    (w.reseed seed random).seedBaked planted node bundle =
      ((w.seedBaked planted node bundle).1,
        (w.seedBaked planted node bundle).2.reseed seed random) := by
  simp only [seedBaked, nodes_reseed, placement_of_steady h, startChain_reseed]
  cases w.nodes.get? node with
  | none => rfl
  | some state =>
    dsimp only
    cases state.dead with
    | true => rfl
    | false =>
      cases state.prefab with
      | none => rfl
      | some identifier =>
        simp only [Bool.false_eq_true, if_false, prefabs_reseed]
        generalize w.prefabs.lookup identifier = looked
        obtain ⟨found, prefabs⟩ := looked
        cases found with
        | hit prototype =>
          dsimp only
          refine Prod.ext rfl (congrArg (fun world => ({ world } : Effect Empty)) ?_)
          exact reseed_placeInstance (w := { w with prefabs }) identifier prototype _ _ _
        | inProgress => rfl
        | miss => rfl

/-! ### All steps -/

/-- **A steady handler acts in the same way.** -/
theorem reseed_call {handler : Handler Empty} (h : handler.Steady) :
    handler.call (w.reseed seed random) node bundle baked =
      ((handler.call w node bundle baked).1,
        (handler.call w node bundle baked).2.reseed seed random) := by
  cases handler with
  | fork closing => exact Prod.ext rfl (reseed_fork closing)
  | pause minSeconds maxSeconds => exact Prod.ext rfl (reseed_pause h)
  | turnRotation eulerMin eulerMax => exact Prod.ext rfl (reseed_turnRotation h)
  | turnHeading axis angleMin angleMax => exact Prod.ext rfl (reseed_turnHeading axis h)
  | move distanceMin distanceMax => exact Prod.ext rfl (reseed_move h)
  | branch shape => exact Prod.ext rfl (reseed_branch shape)
  | leaf shape => exact Prod.ext rfl (reseed_leaf shape)
  | seed planted =>
    cases baked with
    | true => simp only [Handler.call, if_true, reseed_seedBaked h]
    | false => simp only [Handler.call, if_false, Bool.false_eq_true, reseed_seedLive]
  | host foreign => exact foreign.elim

/-- **A task is done in the same way**, if it is no call of a handler that draws. -/
theorem reseed_perform {task : Task Empty}
    (h : ∀ handler node bundle baked, task = .call handler node bundle baked → handler.Steady) :
    (w.reseed seed random).perform task =
      ((w.perform task).1.reseed seed random, (w.perform task).2) := by
  cases task with
  | advance predecessor chain baked => exact reseed_advance chain
  | search predecessor chain baked => exact reseed_search chain
  | call handler node bundle baked =>
    simp only [perform, reseed_call (h handler node bundle baked rfl)]
    rfl
  | carryOn node chain => exact reseed_carryOn chain
  | destroy node => rfl
  | park work => rfl
  | carryTip growth => exact Prod.ext (reseed_carryTip growth) rfl
  | ripen growth => exact reseed_ripen growth
  | publish prefab => exact Prod.ext (reseed_publish prefab) rfl

theorem reseed_resume_delay (delay : Delay Empty) :
    delay.resume (w.reseed seed random) = (delay.resume w).reseed seed random := by
  by_cases hwaits : w.time < delay.deadline
  · simp only [Delay.resume, time_reseed, hwaits, if_true, Resumption.reseed]
  · simp only [Delay.resume, time_reseed, hwaits, if_false, Resumption.reseed]

theorem reseed_resume_branch (growth : Elongation Empty) :
    growth.resume (w.reseed seed random) = (growth.resume w).reseed seed random := by
  simp only [Elongation.resume, nodes_reseed, distance_reseed, deltaTime_reseed, reseed_mapNodes,
    reseed_carryTip, reseed_measure, reseed_tellRadius, reseed_finish]
  cases w.nodes.get? growth.node with
  | none => rfl
  | some state =>
    dsimp only
    cases state.destroyed with
    | true => rfl
    | false =>
      by_cases hgrown : growth.distance w ≥ growth.length
      · simp only [hgrown, if_true, Bool.false_eq_true, if_false]
      · simp only [hgrown, Bool.false_eq_true, if_false, Resumption.reseed]

theorem reseed_resume_leaf (unfolding : Unfolding Empty) :
    unfolding.resume (w.reseed seed random) = (unfolding.resume w).reseed seed random := by
  simp only [Unfolding.resume, nodes_reseed, deltaTime_reseed]
  cases w.nodes.get? unfolding.node with
  | none => rfl
  | some state =>
    dsimp only
    cases state.destroyed with
    | true => rfl
    | false =>
      by_cases hgrows : unfolding.elapsed < unfolding.growTime
      · simp only [hgrows, if_true, Bool.false_eq_true, if_false]
        rfl
      · simp only [hgrows, Bool.false_eq_true, if_false]
        rfl

theorem reseed_resume_emergence (scaling : Emergence) :
    scaling.resume (w.reseed seed random) = (scaling.resume w).reseed seed random := by
  by_cases hnode : w.nodes.contains scaling.node = true
  · simp only [Emergence.resume, nodes_reseed, deltaTime_reseed, hnode, if_true, reseed_mapNodes]
    rfl
  · simp only [Emergence.resume, nodes_reseed, deltaTime_reseed, hnode, if_false,
      Bool.false_eq_true, Resumption.reseed]

/-- **A continuation is resumed in the same way.** -/
theorem reseed_resume (work : Continuation Empty) :
    work.resume (w.reseed seed random) = (work.resume w).reseed seed random := by
  cases work with
  | dispatch next => rfl
  | wait delay => exact reseed_resume_delay delay
  | branch growth => exact reseed_resume_branch growth
  | leaf unfolding => exact reseed_resume_leaf unfolding
  | emergence scaling => exact reseed_resume_emergence scaling
  | host work => exact work.elim

end World

end

/-! ## Whole runs -/

/-- Sentences are waited for and read in the plants of steady plans. -/
def Law.steady : Law := Law.upright (PlantPlan.Yields PlantPlan.Steady)

namespace Law

variable {w : World Empty} {task : Task Empty}

theorem sound_steady : Law.steady.Sound :=
  sound_upright fun hgrows => hgrows.within PlantPlan.Steady.within

/-- **Only steady handlers are called** in the plants of steady plans. -/
theorem steady_of_heads (h : Law.steady.Heads w task) (handler : Handler Empty) (node : NodeId)
    (bundle : Bundle Empty) (baked : Bool) (hcall : task = .call handler node bundle baked) :
    handler.Steady := by
  subst hcall
  obtain hobeys | ⟨_, _, _, _, heq, hcalls⟩ := h
  · exact hobeys.elim
  · cases heq
    cases hcalls with
    | bound grows _ _ find _ _ _ =>
      obtain ⟨plan, hsteady, hok⟩ := grows
      exact hsteady.handler hok find
    | root grows _ =>
      obtain ⟨plan, hsteady, hok⟩ := grows
      exact hsteady.variation hok

end Law

section

variable {w : World Empty} {tasks : List (Task Empty)} {works waiting : List (Continuation Empty)}

/-- Steady plants draw nothing: a world is itself with its own seed and generator. -/
theorem World.random_perform_of_steady {task : Task Empty} (h : Law.steady.Heads w task) :
    (w.perform task).1.random = w.random := by
  have hsame : (w.perform task).1 = (w.perform task).1.reseed w.settings.rngSeed w.random :=
    congrArg Prod.fst (reseed_perform (Law.steady_of_heads h))
  rw [hsame]
  rfl

/-- They halt in the same tasks. -/
theorem World.halts_reseed {task : Task Empty} (h : Law.steady.Heads w task) (seed : Nat)
    (random : Random) : (w.reseed seed random).halts task = w.halts task := by
  rw [halts_of_random (random_perform_of_steady h), halts_of_random]
  rw [reseed_perform (Law.steady_of_heads h)]
  rfl

/-- **Nested work comes to the same world**, as long as the plants are steady. -/
theorem World.reseed_run (limit seed : Nat) (random : Random)
    (h : Law.steady.Governs w tasks waiting) :
    World.run limit tasks (w.reseed seed random) =
      (World.run limit tasks w).map (·.reseed seed random) := by
  induction limit generalizing w tasks with
  | zero =>
    cases tasks with
    | nil => rfl
    | cons task rest => rfl
  | succ limit ih =>
    cases tasks with
    | nil => rfl
    | cons task rest =>
      have hboth := halts_reseed h.tasks.1 seed random
      cases hhalts : w.halts task with
      | true => rw [run_of_halts (hboth.trans hhalts), run_of_halts hhalts, Option.map_none]
      | false =>
        rw [run_cons (hboth.trans hhalts), run_cons hhalts,
          reseed_perform (Law.steady_of_heads h.tasks.1)]
        exact ih (Law.sound_steady.invariant.perform h)

namespace Scheduler

/-- What comes of serving continuations in a world with another seed and another generator. -/
theorem reseed_serve (limit seed : Nat) (random : Random) {work : Continuation Empty}
    (h : Law.steady.Governs w [] (work :: waiting)) :
    serve limit work (w.reseed seed random) =
      (serve limit work w).map fun served =>
        (served.1, served.2.1, served.2.2.reseed seed random) := by
  have hrun := World.reseed_run limit seed random (Law.sound_steady.invariant.resume h)
  simp only [serve, World.resume_eq, World.reseed_resume, Resumption.reseed, hrun]
  cases World.run limit (work.resume w).tasks (work.resume w).world with
  | none => rfl
  | some done => cases (work.resume w).step <;> rfl

theorem reseed_serveAll (limit seed : Nat) (random : Random) (report : TickSummary)
    (h : Law.steady.Governs w [] (works ++ waiting)) :
    serveAll limit works report (w.reseed seed random) =
      (serveAll limit works report w).map fun served =>
        (served.1, served.2.1, served.2.2.reseed seed random) := by
  induction works generalizing report w waiting with
  | nil => rfl
  | cons work works ih =>
    rw [List.cons_append] at h
    rw [serveAll_cons, serveAll_cons, reseed_serve limit seed random h]
    cases hserve : serve limit work w with
    | none => rfl
    | some served =>
      obtain ⟨step, back, later⟩ := served
      have hlater := Law.sound_steady.invariant.of_serve hserve h
      rw [List.append_assoc] at hlater
      simp only [Option.map_some, Option.bind_some, ih (report.count step) hlater]
      cases serveAll limit works (report.count step) later <;> rfl

end Scheduler

namespace Garden

variable {garden : Garden} {plan : PlantPlan} {settings : Settings}

/-- The garden with another seed, whose generator is at the start of what that seed gives. -/
def reseed (garden : Garden) (seed : Nat) : Garden :=
  { garden with world := garden.world.reseed seed (Random.ofSeed seed) }

/-- **A tick does the same** in a garden of steady plants. -/
theorem tick_reseed (limit seed : Nat)
    (h : Law.steady.Governs garden.world [] garden.scheduler.queue) :
    Simulation.tick limit (garden.reseed seed) =
      (Simulation.tick limit garden).map fun result => (result.1, reseed result.2 seed) := by
  have hdawn := Law.sound_steady.invariant.dawn h
  rw [tick_eq, tick_eq]
  show (Scheduler.serveAll limit garden.due {} (garden.dawn.reseed seed (Random.ofSeed seed))).map _
    = _
  rw [Scheduler.reseed_serveAll limit seed _ {} hdawn]
  cases Scheduler.serveAll limit garden.due {} garden.dawn <;> rfl

theorem ticks_reseed (limit count seed : Nat)
    (h : Law.steady.Governs garden.world [] garden.scheduler.queue) :
    ticks limit count (garden.reseed seed) =
      (ticks limit count garden).map fun result => (result.1, reseed result.2 seed) := by
  induction count generalizing garden with
  | zero => rfl
  | succ count ih =>
    rw [ticks_succ, ticks_succ, tick_reseed limit seed h]
    cases htick : Simulation.tick limit garden with
    | none => rfl
    | some first =>
      obtain ⟨report, later⟩ := first
      simp only [Option.map_some, Option.bind_some,
        ih (Law.sound_steady.invariant.of_tick htick h)]
      cases ticks limit count later <;> rfl

theorem governs_seedbed_of_steady {root : Seed Empty} (hsteady : plan.Steady)
    (hok : plan.seed = .ok root) (settings : Settings) :
    Law.steady.Governs (seedbed plan settings) [rootTask plan root] [] :=
  Law.governs_seedbed ⟨plan, hsteady, hok⟩

theorem governs_of_reached (hsteady : plan.Steady) (h : Reached plan settings garden) :
    Law.steady.Governs garden.world [] garden.scheduler.queue :=
  Law.sound_steady.invariant.of_reached
    (fun _ hok => governs_seedbed_of_steady hsteady hok settings) h

theorem build_reseed (hsteady : plan.Steady) (limit : Nat) (settings : Settings) (seed : Nat) :
    build limit plan { settings with rngSeed := seed } =
      (build limit plan settings).map (Option.map (·.reseed seed)) := by
  cases hok : (plan.seed : Except PlanFault (Seed Empty)) with
  | error fault => simp only [build, Simulation.sow, hok, Except.map]
  | ok root =>
    rw [build_eq hok, build_eq hok]
    show Except.ok ((World.run limit _ ((seedbed plan settings).reseed seed
      (Random.ofSeed seed))).map _) = _
    rw [World.reseed_run _ _ _ (governs_seedbed_of_steady hsteady hok settings)]
    cases World.run limit [rootTask plan root] (seedbed plan settings) <;> rfl

theorem Reached.reseed (hsteady : plan.Steady) (seed : Nat) (h : Reached plan settings garden) :
    Reached plan { settings with rngSeed := seed } (garden.reseed seed) := by
  induction h with
  | @planted limit garden hbuild =>
    have hother := build_reseed hsteady limit settings seed
    rw [hbuild] at hother
    exact .planted hother
  | @ticked limit before later report hbefore htick ih =>
    have hother := tick_reseed limit seed (governs_of_reached hsteady hbefore)
    rw [htick] at hother
    exact .ticked ih hother

/-- **The seed never shows** in a plant without chance. With another seed planting comes to the same
garden, or to the same error, and ticking it any number of times comes to the same reports and the
same garden again. All that is different is the seed itself, and the generator that it started, which
is still at its start. -/
theorem seed_never_shows (hsteady : plan.Steady) (settings : Settings) (seed limit : Nat) :
    build limit plan { settings with rngSeed := seed } =
      (build limit plan settings).map (Option.map (reseed · seed)) ∧
    ∀ garden, Reached plan settings garden → ∀ more count,
      Reached plan { settings with rngSeed := seed } (garden.reseed seed) ∧
      ticks more count (garden.reseed seed) =
        (ticks more count garden).map fun result => (result.1, reseed result.2 seed) := by
  refine ⟨build_reseed hsteady limit settings seed, fun garden hreached more count => ⟨?_, ?_⟩⟩
  · exact hreached.reseed hsteady seed
  · exact ticks_reseed more count seed (governs_of_reached hsteady hreached)

/-- A baked plant of one move. -/
def twig : PlantPlan where
  traits := { start := "M", baked := true, prefab := some "twig" }
  handlers := ⟨[('M', .move 1 1)]⟩

/-- A plant that waits for two seconds and then grows a twig. -/
def punctual : PlantPlan where
  traits := { start := "PT" }
  handlers := ⟨[('P', .pause 2 2), ('T', .seed twig)]⟩

theorem bound_punctual {symbol : Char} {handler : HandlerPlan}
    (h : punctual.handlers.find? symbol = some handler) :
    handler = .pause 2 2 ∨ handler = .seed twig := by
  have hmem := SymbolTable.mem_of_find? h
  simp only [punctual, List.mem_cons, List.not_mem_nil, or_false, Prod.mk.injEq] at hmem
  exact hmem.imp And.right And.right

theorem bound_twig {symbol : Char} {handler : HandlerPlan}
    (h : twig.handlers.find? symbol = some handler) : handler = .move 1 1 := by
  have hmem := SymbolTable.mem_of_find? h
  simp only [twig, List.mem_cons, List.not_mem_nil, or_false, Prod.mk.injEq] at hmem
  exact hmem.2

theorem steady_twig : twig.Steady := by
  refine .intro ⟨by decide, by decide⟩ (fun symbol handler hfind => ?_)
    fun symbol inner hfind => ?_
  · rw [bound_twig hfind]
    show ((1 : Float) == 1) = true
    decide
  · cases bound_twig hfind

theorem steady_punctual : punctual.Steady := by
  refine .intro ⟨by decide, by decide⟩ (fun symbol handler hfind => ?_)
    fun symbol inner hfind => ?_
  · obtain rfl | rfl := bound_punctual hfind
    · show ((2 : Float) == 2) = true
      decide
    · trivial
  · obtain heq | heq := bound_punctual hfind
    · cases heq
    · cases heq
      exact steady_twig

theorem tipsEnd_punctual : punctual.TipsEnd := by
  refine .of_untipped (fun symbol => ?_) fun symbol inner hfind => ?_
  · rw [PlantPlan.tipOf?]
    split
    next shape hfind =>
      obtain heq | heq := bound_punctual hfind
      · cases heq
      · cases heq
    next => rfl
  · obtain heq | heq := bound_punctual hfind
    · cases heq
    · cases heq
      refine .of_unbranched (fun symbol shape hfind => ?_) fun symbol inner hfind => ?_
      · cases bound_twig hfind
      · cases bound_twig hfind

theorem neverHalts_punctual (settings : Settings) : NeverHalts punctual settings := by
  obtain ⟨seed, inner, hseed, hceiling, hvariation, hhandlers, hlast, hplacing, hwithin⟩ :
      ∃ seed inner : Seed Empty, punctual.seed = .ok seed ∧ seed.ceiling = 0 ∧
        seed.traits.variation = {} ∧
        seed.registry.entries.map (fun entry => entry.2.handler) = [.pause 2 2, .seed inner] ∧
        inner.ceiling = 0 ∧ inner.traits.variation = {} ∧
        inner.registry.entries.map (fun entry => entry.2.handler) = [.move 1 1] :=
    ⟨_, _, rfl, rfl, rfl, rfl, rfl, rfl, rfl⟩
  have htwig : inner.Tame := by
    refine .of_handlers (by rw [hlast]; decide) (by rw [hplacing]; decide +kernel) ?_
    rw [hwithin, List.forall_mem_singleton]
    exact ⟨by decide +kernel, nofun⟩
  refine neverHalts_of_tame hseed
    (.of_handlers (by rw [hceiling]; decide) (by rw [hvariation]; decide +kernel) ?_)
  rw [hhandlers, List.forall_mem_cons, List.forall_mem_singleton]
  exact ⟨⟨by decide +kernel, nofun⟩, htwig.handler⟩

theorem punctual_ignores_seed : ∃ garden,
    build 20 punctual { tickSeconds := 2 } = .ok (some garden) ∧
    build 20 punctual { tickSeconds := 2, rngSeed := 7 } = .ok (some (garden.reseed 7)) ∧
    ∀ count, ∃ limit reports later, ticks limit count garden = some (reports, later) ∧
      ticks limit count (garden.reseed 7) = some (reports, later.reseed 7) := by
  obtain ⟨garden, hbuild⟩ : ∃ garden, build 20 punctual { tickSeconds := 2 } = .ok (some garden) :=
    ⟨_, rfl⟩
  obtain ⟨hseed, hall⟩ := seed_never_shows steady_punctual { tickSeconds := 2 } 7 20
  rw [hbuild] at hseed
  refine ⟨garden, hbuild, hseed, fun count => ?_⟩
  have hreached : Reached punctual { tickSeconds := 2 } garden := .planted hbuild
  obtain ⟨limit, ⟨reports, later⟩, hticks⟩ :=
    exists_ticks_of_reached tipsEnd_punctual (neverHalts_punctual _) hreached count
  obtain ⟨-, hlater⟩ := hall garden hreached limit count
  rw [hticks] at hlater
  exact ⟨limit, reports, later, hticks, hlater⟩

end Garden
end
end PlantGrowth
