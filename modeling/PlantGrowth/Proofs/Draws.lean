import PlantGrowth.Proofs.Calls
import PlantGrowth.Proofs.Leaves
import PlantGrowth.Proofs.Run

/-!
# Draws and halts

A random number can be drawn between two finite bounds unless they are so far apart that their
distance is no finite number (`Bounds.far`). Then the draw is refused, and the program stops in the
midst of the task that wanted the number.

Of all that happens while plants grow only calls of handlers draw. So a call is described by the
bounds it draws between, one after the other (`Handler.draws`): as many draws are refused in it as of
these bounds are too far apart (`Handler.refused_call`). The other cause to stop is a search that has
no next number for its counter of generations. A run halts at these two kinds of tasks and at no
other (`World.halts_eq`).
-/

namespace PlantGrowth

/-! ## Counters -/

section

variable {H : Type} {chain : Chain H}

/-- A chain with something left to read needs no next generation. -/
theorem Chain.overflows_of_unread (h : chain.core.sentence.hasUnread = true) :
    chain.overflows = false := by
  rw [overflows, h]
  rfl

/-- A counter below the largest integer of 64 bits has a next number. -/
theorem Chain.overflows_of_lt (h : chain.bundle.generation < Int64.maxValue.toInt) :
    chain.overflows = false := by
  have hnext : decide (Int64.maxValue.toInt ≤ (chain.bundle.int? Key.generation).getD 0) = false :=
    decide_eq_false (Int.not_le.mpr h)
  rw [overflows, hnext, Bool.and_false]

end

/-! ## Bounds -/

/-- The two bounds of a draw. -/
abbrev Bounds := Float × Float

/-- Are the bounds too far apart for a number to be drawn between them? -/
def Bounds.far (bounds : Bounds) : Bool :=
  !(bounds.1 == bounds.2) && bounds.1.isFinite && bounds.2.isFinite &&
    !(if bounds.1 < bounds.2 then Random.scale bounds.1 bounds.2
      else Random.scale bounds.2 bounds.1).isFinite

/-- How many of the draws are refused. -/
def Bounds.refusals (draws : List Bounds) : Nat := draws.countP Bounds.far

/-- The bounds of the components of two vectors. -/
def Vec3.bounds (first second : Vec3) : List Bounds :=
  [(first.x, second.x), (first.y, second.y), (first.z, second.z)]

/-- The bounds between which the placement of an instance is varied. -/
def Variation.bounds (variation : Variation) : List Bounds :=
  Vec3.bounds variation.rotationMin variation.rotationMax ++
    [(variation.scaleMin, variation.scaleMax)]

theorem Bounds.refusals_eq_zero {draws : List Bounds} :
    refusals draws = 0 ↔ ∀ bounds ∈ draws, bounds.far = false := by
  simp only [refusals, List.countP_eq_zero, Bool.not_eq_true]

theorem Bounds.refusals_append (draws more : List Bounds) :
    refusals (draws ++ more) = refusals draws + refusals more := List.countP_append

theorem Bounds.refusals_pair (first second : Bounds) :
    refusals [first, second] = refusals [first] + refusals [second] :=
  refusals_append [first] [second]

/-- A draw is refused between bounds that are too far apart. -/
theorem Random.refused_range (r : Random) (first second : Float) :
    (r.range first second).2.refused = r.refused + Bounds.refusals [(first, second)] := by
  have hdraw : ∀ low high : Float, (r.draw low high).2.refused =
      if (scale low high).isFinite then r.refused else r.refused + 1 := by
    intro low high
    rw [draw]
    split <;> rfl
  simp only [range, Bounds.refusals, List.countP_singleton, Bounds.far]
  cases first == second with
  | true => rfl
  | false =>
    cases first.isFinite with
    | false => rfl
    | true =>
      cases second.isFinite with
      | false => rfl
      | true =>
        simp only [Bool.not_true, Bool.or_self, Bool.false_eq_true, if_false, Bool.not_false,
          Bool.true_and]
        by_cases hlt : first < second
        · simp only [hlt, if_true, hdraw]
          cases (scale first second).isFinite <;> rfl
        · simp only [hlt, if_false, hdraw]
          cases (scale second first).isFinite <;> rfl

namespace World

variable {H : Type} (w : World H)

theorem refused_drawBetween (first second : Float) :
    (w.drawBetween first second).2.random.refused =
      w.random.refused + Bounds.refusals [(first, second)] :=
  w.random.refused_range first second

theorem refused_drawRotation (first second : Vec3) :
    (w.drawRotation first second).2.random.refused =
      w.random.refused + Bounds.refusals (first.bounds second) := by
  have hsplit : Bounds.refusals (first.bounds second) = Bounds.refusals [(first.x, second.x)] +
      Bounds.refusals [(first.y, second.y), (first.z, second.z)] :=
    Bounds.refusals_append [(first.x, second.x)] _
  rw [hsplit, Bounds.refusals_pair]
  simp only [drawRotation, refused_drawBetween]
  omega

theorem refused_placement (variation : Variation) (position heading : Vec3) :
    (w.placement variation position heading).2.random.refused =
      w.random.refused + Bounds.refusals variation.bounds := by
  rw [placement]
  simp only [refused_drawBetween, refused_drawRotation, Variation.bounds, Bounds.refusals_append]
  omega

/-! ## What does not draw -/

section Undrawn

variable {w} {node : NodeId} {bundle : Bundle H} {chain : Chain H} {baked : Bool}

theorem random_dispatch (symbol : Char) (prototype : Prototype H) (s : Sentence) :
    (w.dispatch node symbol prototype s bundle baked).1.random = w.random := by
  rw [dispatch]
  split <;> rfl

theorem random_search : (w.search node chain baked).1.random = w.random := by
  have hfinds := w.finds_search node chain baked
  generalize w.search node chain baked = next at hfinds ⊢
  cases hfinds with
  | found _ _ => exact random_dispatch _ _ _
  | _ => rfl

theorem random_carryOn : (w.carryOn node chain).1.random = w.random := by
  rcases w.carryOn_cases node chain with ⟨heq, -⟩ | ⟨heq, -⟩
  · rw [heq]
  · rw [heq]
    rfl

theorem random_emerge (variation : Variation) : (w.emerge variation node).random = w.random := by
  rw [emerge]
  split
  · rfl
  · split <;> rfl

theorem random_placeInstance (identifier : String) (parent : Option NodeId) (placement : Transform)
    (variation : Variation) :
    (w.placeInstance identifier node parent placement variation).random = w.random := by
  rw [placeInstance]
  split
  · rfl
  · exact random_emerge variation

theorem random_publish (prefab : Prefab) : (w.publish prefab).random = w.random := by
  rw [publish]
  generalize (w.nodes.moveToOrigin prefab.node).copySubtree prefab.node prefab.anchor
    prefab.placement = copied
  generalize w.prefabs.register prefab.identifier prefab.node = entry
  obtain ⟨copy, nodes⟩ := copied
  obtain ⟨registered, prefabs⟩ := entry
  cases copy with
  | none => cases registered <;> rfl
  | some root =>
    have hmapped (later : World H) (f : Arena → Arena) : (later.mapNodes f).random = later.random := rfl
    dsimp only
    rw [random_emerge, hmapped]
    cases registered <;> rfl

theorem random_fork (closing : Char) : (w.fork closing node bundle).world.random = w.random := by
  rw [fork, coreOrWarn]
  cases bundle.core with
  | error missing => rfl
  | ok core =>
    dsimp only
    split <;> rfl

theorem random_attachTip (owner : NodeId) (registry : Registry H) (symbol : Char) :
    (w.attachTip owner registry symbol bundle baked).2.1.random = w.random := by
  rw [attachTip]
  split <;> rfl

theorem random_branch (shape : BranchShape) :
    (w.branch shape node bundle baked).world.random = w.random := by
  rw [branch, coreOrWarn]
  cases bundle.core with
  | error missing => rfl
  | ok core =>
    dsimp only
    split
    · rfl
    · split
      · rfl
      · split
        · rfl
        · cases shape.tipSymbol with
          | none => cases baked <;> rfl
          | some symbol => cases baked <;> exact random_attachTip _ _ _

theorem random_bakedOutline (unfolding : Unfolding H) :
    (w.bakedOutline unfolding).2.random = w.random := by
  rw [bakedOutline]
  split
  · rfl
  · split
    · rfl
    · split <;> rfl

theorem random_leaf (shape : LeafShape) :
    (w.leaf shape node bundle baked).world.random = w.random := by
  have hunfolds := w.unfolds_leaf shape node bundle baked
  generalize w.leaf shape node bundle baked = effect at hunfolds ⊢
  cases hunfolds with
  | @bakes heading warnings unfolding blade later hbuds hblade =>
    have hlater := random_bakedOutline (w := w.facing node heading warnings) unfolding
    rw [hblade] at hlater
    exact hlater
  | _ => rfl

end Undrawn
end World

/-! ## Calls -/

/-- The bounds between which a call of a handler draws, one after the other. Baked pauses are not
waited for, rotations and moves that find nothing to turn or to follow draw nothing, and seeds draw
for the placement of an instance. -/
def Handler.draws {H : Type} (handler : Handler H) (w : World H) (node : NodeId) (bundle : Bundle H)
    (baked : Bool) : List Bounds :=
  match handler with
  | .pause minSeconds maxSeconds =>
    if !baked && bundle.core.isOk then [(minSeconds, maxSeconds)] else []
  | .turnRotation eulerMin eulerMax =>
    if (bundle.rotation? Key.rotation).isSome then eulerMin.bounds eulerMax else []
  | .turnHeading _ angleMin angleMax =>
    if (bundle.vec3? Key.heading).isSome then [(angleMin, angleMax)] else []
  | .move distanceMin distanceMax =>
    if (bundle.vec3? Key.heading).isSome then [(distanceMin, distanceMax)] else []
  | .seed planted =>
    match w.nodes.get? node with
    | some state =>
      if baked && !state.dead && state.prefab.isSome then planted.traits.variation.bounds else []
    | none => []
  | _ => []

/-- The bounds between which calls of a handler draw where no bundle carries a rotation. -/
def Handler.bounds {H : Type} (handler : Handler H) (baked : Bool) : List Bounds :=
  match handler with
  | .pause minSeconds maxSeconds => if baked then [] else [(minSeconds, maxSeconds)]
  | .turnHeading _ angleMin angleMax => [(angleMin, angleMax)]
  | .move distanceMin distanceMax => [(distanceMin, distanceMax)]
  | .seed planted => if baked then planted.traits.variation.bounds else []
  | _ => []

/-- The handler that is bound to the symbol, if any, draws between bounds that are close enough. -/
def Seed.Narrow {H : Type} (seed : Seed H) (baked : Bool) (symbol : Char) : Prop :=
  ∀ prototype, seed.registry.find? symbol = some prototype →
    ∀ bounds ∈ prototype.handler.bounds baked, bounds.far = false

namespace Handler

variable {H : Type} {handler : Handler H} {w : World H} {node : NodeId} {bundle : Bundle H}
  {baked : Bool} {bounds : Bounds}

/-- A call draws between the bounds of its handler, and no others. -/
theorem mem_bounds_of_mem_draws (h : bundle.rotation? Key.rotation = none)
    (hmem : bounds ∈ handler.draws w node bundle baked) : bounds ∈ handler.bounds baked := by
  cases handler with
  | pause minSeconds maxSeconds =>
    rw [draws] at hmem
    cases baked with
    | true => cases hmem
    | false =>
      split at hmem
      · exact hmem
      · cases hmem
  | turnRotation eulerMin eulerMax =>
    rw [draws, h] at hmem
    cases hmem
  | turnHeading axis angleMin angleMax =>
    rw [draws] at hmem
    split at hmem
    · exact hmem
    · cases hmem
  | move distanceMin distanceMax =>
    rw [draws] at hmem
    split at hmem
    · exact hmem
    · cases hmem
  | seed planted =>
    rw [draws] at hmem
    cases baked with
    | true =>
      split at hmem
      · split at hmem
        · exact hmem
        · cases hmem
      · cases hmem
    | false =>
      split at hmem
      · cases hmem
      · cases hmem
  | _ => cases hmem

/-- A call with the bundle of a plant draws between all bounds of its handler, unless that is a seed. -/
theorem mem_draws_of_mem_bounds {seed : Seed H} {s : Sentence} (hfollows : bundle.Follows seed)
    (hs : bundle.find? Key.sentence = some (.sentence s)) (hseed : ∀ planted, handler ≠ .seed planted)
    (hmem : bounds ∈ handler.bounds baked) : bounds ∈ handler.draws w node bundle baked := by
  obtain ⟨heading, hheading⟩ := hfollows.heading
  have hvec := Bundle.vec3?_of_find? hheading
  cases handler with
  | pause minSeconds maxSeconds =>
    rw [draws, hfollows.core_eq hs]
    cases baked with
    | true => cases hmem
    | false => exact hmem
  | turnHeading axis angleMin angleMax =>
    rw [draws, hvec]
    exact hmem
  | move distanceMin distanceMax =>
    rw [draws, hvec]
    exact hmem
  | seed planted => exact absurd rfl (hseed planted)
  | _ => cases hmem

/-- What is drawn for a handler that bakes is drawn live too, unless it is a seed. -/
theorem mem_bounds_live (hseed : ∀ planted, handler ≠ .seed planted)
    (hmem : bounds ∈ handler.bounds true) : bounds ∈ handler.bounds false := by
  cases handler with
  | seed planted => exact absurd rfl (hseed planted)
  | pause minSeconds maxSeconds => cases hmem
  | _ => exact hmem

end Handler

namespace World

variable {H : Type} {w : World H} {node : NodeId} {bundle : Bundle H} {baked : Bool}

theorem random_carryOnOrWarn (handler : String) (core : Except MissingEntry (Core H)) :
    (w.carryOnOrWarn handler node core bundle).world.random = w.random := by
  cases core <;> rfl

theorem refused_pause (minSeconds maxSeconds : Float) :
    (w.pause minSeconds maxSeconds node bundle baked).world.random.refused = w.random.refused +
      Bounds.refusals ((Handler.pause minSeconds maxSeconds).draws w node bundle baked) := by
  rw [pause, coreOrWarn, Handler.draws]
  cases bundle.core with
  | error missing => cases baked <;> rfl
  | ok core =>
    cases baked with
    | true => rfl
    | false => exact w.refused_drawBetween minSeconds maxSeconds

theorem refused_turnRotation (eulerMin eulerMax : Vec3) :
    (w.turnRotation eulerMin eulerMax node bundle).world.random.refused = w.random.refused +
      Bounds.refusals ((Handler.turnRotation eulerMin eulerMax).draws w node bundle baked) := by
  rw [turnRotation, Handler.draws]
  dsimp only [andDestroy]
  cases bundle.rotation? Key.rotation with
  | none => exact congrArg Random.refused (random_carryOnOrWarn _ _)
  | some rotation =>
    exact (congrArg Random.refused (random_carryOnOrWarn _ _)).trans
      (w.refused_drawRotation eulerMin eulerMax)

theorem refused_turnHeading (axis : Vec3) (angleMin angleMax : Float) :
    (w.turnHeading axis angleMin angleMax node bundle).world.random.refused = w.random.refused +
      Bounds.refusals ((Handler.turnHeading axis angleMin angleMax).draws w node bundle baked) := by
  rw [turnHeading, Handler.draws]
  dsimp only [andDestroy]
  cases bundle.vec3? Key.heading with
  | none => exact congrArg Random.refused (random_carryOnOrWarn _ _)
  | some heading =>
    exact (congrArg Random.refused (random_carryOnOrWarn _ _)).trans
      (w.refused_drawBetween angleMin angleMax)

theorem refused_move (distanceMin distanceMax : Float) :
    (w.move distanceMin distanceMax node bundle).world.random.refused = w.random.refused +
      Bounds.refusals ((Handler.move distanceMin distanceMax).draws w node bundle baked) := by
  rw [move, Handler.draws]
  dsimp only
  cases bundle.vec3? Key.heading with
  | none => exact congrArg Random.refused (random_carryOnOrWarn _ _)
  | some heading =>
    exact (congrArg Random.refused (random_carryOnOrWarn _ _)).trans
      (w.refused_drawBetween distanceMin distanceMax)

theorem random_seedLive (planted : Seed H) :
    (w.seedLive planted node bundle).2.world.random = w.random := by
  rw [seedLive]
  split <;> rfl

theorem refused_seedBaked (planted : Seed H) :
    (w.seedBaked planted node bundle).2.world.random.refused = w.random.refused +
      Bounds.refusals ((Handler.seed planted).draws w node bundle true) := by
  rw [seedBaked, Handler.draws]
  cases w.nodes.get? node with
  | none => rfl
  | some state =>
    dsimp only
    cases state.dead with
    | true => rfl
    | false =>
      cases state.prefab with
      | none => rfl
      | some identifier =>
        simp only [Bool.false_eq_true, if_false]
        split
        · simp only [random_placeInstance, refused_placement]
          rfl
        · simp only [refused_placement]
          rfl
        · simp only [refused_placement]
          rfl

end World

/-- **As many draws are refused in a call as it makes between bounds that are too far apart.** -/
theorem Handler.refused_call {H : Type} [Host H] {handler : Handler H}
    (hhost : ∀ foreign, handler ≠ .host foreign) (w : World H) (node : NodeId) (bundle : Bundle H)
    (baked : Bool) :
    (handler.call w node bundle baked).2.world.random.refused =
      w.random.refused + Bounds.refusals (handler.draws w node bundle baked) := by
  cases handler with
  | fork closing => exact congrArg Random.refused (World.random_fork closing)
  | pause minSeconds maxSeconds => exact World.refused_pause minSeconds maxSeconds
  | turnRotation eulerMin eulerMax => exact World.refused_turnRotation eulerMin eulerMax
  | turnHeading axis angleMin angleMax => exact World.refused_turnHeading axis angleMin angleMax
  | move distanceMin distanceMax => exact World.refused_move distanceMin distanceMax
  | branch shape => exact congrArg Random.refused (World.random_branch shape)
  | leaf shape => exact congrArg Random.refused (World.random_leaf shape)
  | seed planted =>
    cases baked with
    | false =>
      have hnone : (Handler.seed planted).draws w node bundle false = [] := by
        rw [draws]
        split <;> rfl
      rw [hnone]
      exact congrArg Random.refused (World.random_seedLive planted)
    | true => exact World.refused_seedBaked planted
  | host foreign => exact absurd rfl (hhost foreign)

/-- All draws of a call are made exactly if none is between bounds that are too far apart. -/
theorem Handler.drewAll_call {H : Type} [Host H] {handler : Handler H}
    (hhost : ∀ foreign, handler ≠ .host foreign) (w : World H) (node : NodeId) (bundle : Bundle H)
    (baked : Bool) :
    w.drewAll (handler.call w node bundle baked).2.world =
      !(handler.draws w node bundle baked).any Bounds.far := by
  rw [World.drewAll, Handler.refused_call hhost, Bool.eq_iff_iff, beq_iff_eq, Nat.add_eq_left,
    Bounds.refusals_eq_zero, Bool.not_eq_true', List.any_eq_false]
  simp only [Bool.not_eq_true]

/-! ## Tasks -/

/-- The bounds between which a task draws. -/
def Task.draws (task : Task Empty) (w : World Empty) : List Bounds :=
  match task with
  | .call handler node bundle baked => handler.draws w node bundle baked
  | _ => []

namespace Elongation

variable (growth : Elongation Empty) (w : World Empty)

theorem random_carryTip : (growth.carryTip w).random = w.random := by
  rw [carryTip]
  split <;> rfl

theorem random_record (distance : Float) :
    (growth.tellRadius (growth.measure w distance)).random = w.random := by
  rw [tellRadius]
  split
  next callback _ =>
    cases callback with
    | topRadius node factor => rfl
    | host callback => exact callback.elim
  · rfl

theorem random_finish : (growth.finish w).world.random = w.random :=
  (random_record { growth with bottomRadius := growth.radius } _ _).trans (growth.random_carryTip w)

end Elongation

/-- Resuming a continuation draws nothing. -/
theorem Continuation.random_resume (work : Continuation Empty) (w : World Empty) :
    (work.resume w).world.random = w.random := by
  have hresumes := work.resumes w
  generalize work.resume w = resumption at hresumes ⊢
  cases hresumes with
  | grown growth => exact growth.random_finish w
  | grows growth radius distance offset =>
    exact (Elongation.random_record _ _ _).trans (growth.random_carryTip _)
  | host work => exact work.elim
  | _ => rfl

namespace World

/-- **As many draws are refused in a task as it makes between bounds that are too far apart.** -/
theorem refused_perform (w : World Empty) (task : Task Empty) :
    (w.perform task).1.random.refused = w.random.refused + Bounds.refusals (task.draws w) := by
  cases task with
  | advance predecessor chain baked =>
    exact congrArg (·.random.refused) (w.fst_advance predecessor chain baked)
  | search predecessor chain baked => exact congrArg Random.refused random_search
  | call handler node bundle baked =>
    exact Handler.refused_call (fun foreign => foreign.elim) w node bundle baked
  | carryOn node chain => exact congrArg Random.refused random_carryOn
  | destroy node => rfl
  | park work => rfl
  | carryTip growth => exact congrArg Random.refused (growth.random_carryTip w)
  | ripen growth => exact congrArg Random.refused (growth.random_finish _)
  | publish prefab => exact congrArg Random.refused (random_publish prefab)

/-! ## Halts -/

section

variable {H : Type} {w : World H} {task : Task H}

theorem drewAll_of_random {later : World H} (h : later.random = w.random) :
    w.drewAll later = true := by
  rw [drewAll, h]
  exact beq_self_eq_true _

variable [Host H]

/-- A task that does not draw halts if there is no next number for the counter. -/
theorem halts_of_random (h : (w.perform task).1.random = w.random) :
    w.halts task = task.overflows := by
  rw [halts, drewAll_of_random h, Bool.not_true, Bool.or_false]

/-- A task that does not draw is done, if there is a next number for the counter. -/
theorem comes_of_random {later : World H} {tasks rest : List (Task H)}
    (h : w.perform task = (later, tasks)) (hrandom : later.random = w.random)
    (hover : task.overflows = false) : Comes w (task :: rest) later (tasks ++ rest) := by
  refine Comes.step h ((halts_of_random ?_).trans hover)
  rw [h]
  exact hrandom

theorem halts_search (w : World H) (node : NodeId) (chain : Chain H) (baked : Bool) :
    w.halts (.search node chain baked) = chain.overflows := halts_of_random random_search

theorem halts_advance (w : World H) (node : NodeId) (chain : Chain H) (baked : Bool) :
    w.halts (.advance node chain baked) = false :=
  halts_of_random (congrArg World.random (w.fst_advance node chain baked))

end

/-- Nothing is drawn before the nested work of a continuation begins. -/
theorem resume_eq (limit : Nat) (w : World Empty) (work : Continuation Empty) :
    w.resume limit work = (run limit (work.resume w).tasks (work.resume w).world).map fun later =>
      ((work.resume w).step, (work.resume w).continuation, later) := by
  rw [resume, drewAll_of_random (work.random_resume w)]
  cases run limit (work.resume w).tasks (work.resume w).world <;> rfl

/-- **A run halts in a call that draws between bounds too far apart, and in a search whose counter has
no next number.** -/
theorem halts_eq_false_iff {w : World Empty} {task : Task Empty} :
    w.halts task = false ↔
      task.overflows = false ∧ ∀ bounds ∈ task.draws w, bounds.far = false := by
  rw [halts, Bool.or_eq_false_iff, Bool.not_eq_false', drewAll, beq_iff_eq, refused_perform,
    Nat.add_eq_left, Bounds.refusals_eq_zero]

/-- No draw that was refused is forgotten. -/
theorem refused_le_perform (w : World Empty) (task : Task Empty) :
    w.random.refused ≤ (w.perform task).1.random.refused := by
  rw [refused_perform]
  exact Nat.le_add_right _ _

end World
end PlantGrowth
