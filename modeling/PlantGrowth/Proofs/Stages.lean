import PlantGrowth.Proofs.Baking
import PlantGrowth.Proofs.Steps

/-!
# Growth is orderly

Calls of seeds, the publishing of prototypes and continuations that are resumed are the steps that are
left. With them growth is orderly at every stage, from its planting on, whatever the plan and the
settings are (`Garden.orderly_invariant`).
-/

namespace PlantGrowth
namespace World.Orderly

variable {w later : World Empty} {task : Task Empty} {tasks rest : List (Task Empty)}
  {works new : List (Continuation Empty)} {node : NodeId} {baked : Bool}

/-! ## Seeds -/

section Seeds

variable {planted : Seed Empty} {bundle : Bundle Empty} {state : Node}

/-- An instance can be placed after the node that the seed's was made after, or else below the seed's
own. -/
theorem fits_instance (h : w.Orderly (.call (.seed planted) node bundle baked :: rest) works)
    (hstate : w.nodes.get? node = some state) : ∀ p, state.previous.or (some node) = some p →
      ∃ above, w.nodes.get? p = some above ∧ above.ethereal = false ∧ above.hidden = false := by
  obtain ⟨served, hserves, -⟩ := h.call _ _ _ _ _ rfl
  obtain rfl : served = state := Option.some.inj (hserves.get?.symm.trans hstate)
  obtain ⟨served', hserved, hshown, habove⟩ := h.head_open node List.mem_cons_self
  obtain rfl : served = served' := Option.some.inj (hstate.symm.trans hserved)
  intro p hp
  cases hprevious : served.previous with
  | none =>
    rw [hprevious, Option.none_or] at hp
    obtain rfl := Option.some.inj hp
    exact ⟨served, hstate, hserves.ethereal, hshown⟩
  | some q =>
    rw [hprevious, Option.some_or] at hp
    obtain rfl := Option.some.inj hp
    obtain ⟨-, above, hget, hsolid⟩ := h.scene.previous hstate hprevious
    exact ⟨above, hget, hsolid, habove q above hprevious hget⟩

/-- A seed that starts its chain. -/
theorem moves_startChain (h : w.Orderly (.call (.seed planted) node bundle baked :: rest) works) :
    w.Moves (node :: bundle.mentioned) [] (baked = true) (w, (planted.startChain w node bundle).2) := by
  have hform : ∀ other ∈ (planted.startChain w node bundle).2,
      ∃ position, other = .carryOn node (planted.chain position bundle) :=
    fun other => planted.mem_startChain w node bundle
  refine h.moves_of_redraws (Redraws.refl _ w) (fun other hother => ?_)
    (List.flatMap_eq_nil_iff.mpr fun other hother => ?_)
  · obtain ⟨position, rfl⟩ := hform other hother
    refine Task.suits_carryOn (List.cons_subset_cons node ?_) h.bakes_of_call
    show (planted.chain position bundle).mentioned ⊆ bundle.mentioned
    rw [Seed.mentioned_chain]
    exact List.Subset.refl _
  · obtain ⟨position, rfl⟩ := hform other hother
    rfl

/-- **A new instance is an ordinary step.** -/
theorem moves_of_emerges {mid : World Empty} (hemerges : Emerges w.nodes w.nodes.size mid later)
    (hfind : ∀ identifier, mid.prefabs.find? identifier = w.prefabs.find? identifier)
    (hgrowing : mid.prefabs.isGrowing = w.prefabs.isGrowing) (hparked : mid.parked = w.parked)
    (mentioned : List NodeId) (baking : Prop) : w.Moves mentioned [] baking (later, []) := by
  obtain ⟨new, hnew, hemergences⟩ := hemerges.parked
  have hgains := hemerges.gains
  have hnone : new.flatMap Continuation.held = [] := by
    refine List.flatMap_eq_nil_iff.mpr fun work hwork => ?_
    obtain ⟨-, scaling, rfl, -⟩ := hemergences work hwork
    rfl
  refine ⟨new, by rw [hnew, hparked], ?_⟩
  exact {
    toAdvances := ⟨hgains.scene, hgains.extended, hgains.shows⟩
    prefabs := fun identifier => by rw [hemerges.prefabs, hfind]
    task_names := fun task htask => (by cases htask)
    work_names := by
      intro work hwork id hid
      obtain ⟨-, scaling, rfl, hnode⟩ := hemergences work hwork
      rw [List.mem_singleton.mp hid, hnode]
      exact Or.inr ⟨Nat.le_refl _, hgains.opened⟩
    bakes := fun _ task htask => (by cases htask)
    parks := by
      -- Nothing grows in while a prototype is being grown.
      refine fun _ hbusy => List.eq_nil_iff_forall_not_mem.mpr fun work hwork => ?_
      have hidle := (hemergences work hwork).1
      rw [hgrowing, hbusy] at hidle
      cases hidle
    unclaimed := fun task htask => (by cases htask)
    call := fun _ _ _ _ _ heq => (by cases heq)
    account := by
      intro id
      rw [hgains.extended.lingers_eq hgains.spares fun hlarge hlater => (hgains.new hlarge hlater).1,
        Task.holdings, hnone]
      rfl
    task_named := fun task htask => (by cases htask)
    work_named := by
      intro work hwork
      obtain ⟨-, scaling, rfl, -⟩ := hemergences work hwork
      trivial }

/-- Only the random generator or the number of hits has changed. -/
theorem moves_same (h : w.Orderly (.call (.seed planted) node bundle baked :: rest) works)
    (hsame : w.Same later) : w.Moves (node :: bundle.mentioned) [] (baked = true) (later, []) := by
  refine ⟨[], by rw [hsame.parked, List.append_nil], Ordinary.of_advances ?_ hsame.find?
    (fun task htask => (by cases htask)) (fun work hwork => (by cases hwork)) (fun _ => rfl) fun id => ?_⟩
  · rw [hsame.nodes]
    exact (Arena.Stays.refl _).advances h.scene
  · rw [hsame.nodes]
    rfl

/-- **A seed that finds a prototype takes an instance of it.** -/
theorem emerges_hit {mid : World Empty} {identifier : String} {root : NodeId}
    (h : w.Orderly (.call (.seed planted) node bundle baked :: rest) works)
    (hstate : w.nodes.get? node = some state) (hsame : w.Same mid)
    (hfind : w.prefabs.find? identifier = some (.ready root)) (placement : Transform) :
    ∃ copied : Arena, w.nodes.Copied copied root (state.previous.or (some node)) ∧ copied.Scene ∧
      Emerges w.nodes w.nodes.size { mid with nodes := copied }
        (mid.placeInstance identifier root (state.previous.or (some node)) placement
          planted.traits.variation) := by
  have hprototype := h.ready identifier root hfind
  have hfits := h.fits_instance hstate
  have scene := h.scene
  rw [← hsame.nodes] at hprototype hfits scene ⊢
  exact emerges_placeInstance scene hprototype hfits identifier placement planted.traits.variation

theorem moves_hit {mid : World Empty} {identifier : String} {root : NodeId}
    (h : w.Orderly (.call (.seed planted) node bundle baked :: rest) works)
    (hstate : w.nodes.get? node = some state) (hsame : w.Same mid)
    (hfind : w.prefabs.find? identifier = some (.ready root)) (placement : Transform) :
    w.Moves (node :: bundle.mentioned) [] (baked = true)
      (mid.placeInstance identifier root (state.previous.or (some node)) placement
        planted.traits.variation, []) := by
  obtain ⟨copied, -, -, hemerges⟩ := h.emerges_hit hstate hsame hfind placement
  exact moves_of_emerges hemerges hsame.find? hsame.isGrowing hsame.parked _ _

/-- **A seed that misses claims its identifier**, starts its chain and is published afterwards. -/
theorem reaches_miss {prefab : Prefab}
    (h : w.Orderly (.call (.seed planted) node bundle baked :: rest) works)
    (hcall : ∀ other ∈ rest, other.isCall = false) (hstate : w.nodes.get? node = some state)
    (hlive : state.dead = false) (hnode : prefab.node = node) (hanchor : prefab.anchor = state.previous)
    (hfind : w.prefabs.find? prefab.identifier = none) (hnodes : later.nodes = w.nodes)
    (hparked : later.parked = w.parked)
    (hprefabs : ∀ identifier, later.prefabs.find? identifier =
      if identifier = prefab.identifier then some .claimed else w.prefabs.find? identifier)
    (hbaked : baked = true) :
    w.Reaches (later, (planted.startChain later node bundle).2 ++ [.publish prefab]) rest works := by
  obtain ⟨served, hserves, hfirst⟩ := h.call _ _ _ _ _ rfl
  obtain rfl : served = state := Option.some.inj (hserves.get?.symm.trans hstate)
  subst hnode
  obtain ⟨hrest, hworks⟩ : (∀ task ∈ rest, OlderThan prefab.node task.mentioned) ∧
      ∀ work ∈ works, OlderThan prefab.node work.mentioned := by
    refine hfirst.resolve_left fun hdead => ?_
    rw [hlive] at hdead
    cases hdead
  -- The chain is started first, and then the identifier is claimed behind its tasks.
  have hchain : (planted.startChain later prefab.node bundle).2 =
      (planted.startChain w prefab.node bundle).2 := by
    unfold Seed.startChain
    rw [hnodes]
  obtain ⟨-, new, hnew, hstarted⟩ := h.of_moves rfl hcall h.moves_startChain
  obtain rfl := List.self_eq_append_right.mp hnew
  have hclaimed := hstarted.claim hnodes hprefabs hfind (h.head_open _ List.mem_cons_self)
    ⟨served, hstate, hserves.ethereal, hanchor⟩ (fun task htask => ?_)
    (fun task htask => ⟨hrest task htask, hcall task htask⟩) hworks
  · refine ⟨⟨hnodes ▸ Arena.Extends.refl _, fun other hmet => ?_, fun other root hready => ?_⟩, [],
      by rw [hparked, List.append_nil], ?_⟩
    · rw [hprefabs]
      split
      · simp
      · exact hmet
    · rw [hprefabs, if_neg ?_]
      · exact hready
      · rintro rfl
        rw [hfind] at hready
        cases hready
    · show later.Orderly ((planted.startChain later prefab.node bundle).2 ++ [.publish prefab] ++ rest) works
      rwa [hchain, List.append_assoc]
  · obtain ⟨position, rfl⟩ := planted.mem_startChain w prefab.node bundle htask
    exact ⟨h.bakes_of_call hbaked, rfl, rfl⟩

/-- **The call of a seed** is an ordinary step, or it claims the seed's identifier. -/
theorem seed_step (h : w.Orderly (.call (.seed planted) node bundle baked :: rest) works)
    (hcall : ∀ other ∈ rest, other.isCall = false) :
    w.Reaches (w.perform (.call (.seed planted) node bundle baked)) rest works := by
  cases baked with
  | false =>
    have heq : w.perform (.call (.seed planted) node bundle false) =
        ((w.seedLive planted node bundle).2.world, (w.seedLive planted node bundle).2.allTasks) := rfl
    rw [heq]
    unfold seedLive
    split
    · exact h.of_moves rfl hcall (h.moves_nothing rfl (Redraws.of_eq rfl rfl rfl))
    · exact h.of_moves rfl hcall h.moves_startChain
  | true =>
    obtain ⟨state, hserves, -⟩ := h.call _ _ _ _ _ rfl
    have hbakes := planted.bakes_seedBaked hserves.get? bundle
    have heq : w.perform (.call (.seed planted) node bundle true) =
        ((w.seedBaked planted node bundle).2.world, (w.seedBaked planted node bundle).2.allTasks) := rfl
    rw [heq]
    generalize (w.seedBaked planted node bundle).2 = effect at hbakes
    cases hbakes with
    | dead _ => exact h.of_moves rfl hcall (h.moves_nothing rfl (Redraws.refl _ w))
    | unshared _ _ => exact h.of_moves rfl hcall h.moves_startChain
    | within _ _ _ hsame => exact h.of_moves rfl hcall (h.moves_same hsame)
    | hit _ _ hfind hsame => exact h.of_moves rfl hcall (h.moves_hit hserves.get? hsame hfind _)
    | miss hlive _ hfind hnode hanchor hnodes hparked hprefabs =>
      exact h.reaches_miss hcall hserves.get? hlive hnode hanchor hfind hnodes hparked hprefabs rfl

end Seeds

/-! ## Publishing -/

/-- **Structure that is published becomes a prototype**, with an instance left in its place. -/
theorem publication {prefab : Prefab} (h : w.Orderly (.publish prefab :: rest) works) :
    w.Publishes prefab := by
  obtain ⟨state, hripe, hanchor⟩ := h.ripe
  have hclaimed : w.prefabs.find? prefab.identifier = some .claimed :=
    (h.claimed _).mpr (List.mem_filterMap.mpr ⟨_, List.mem_cons_self, rfl⟩)
  obtain ⟨hgains, hprototype, halike⟩ := hripe.gains_published prefab.placement
    ("Prototype_" ++ prefab.identifier) ("InitialInstance_" ++ prefab.identifier)
  have hfirst := hripe.get?_published prefab.placement ("Prototype_" ++ prefab.identifier)
    ("InitialInstance_" ++ prefab.identifier)
  rw [← hanchor, ← nodes_registered] at hgains hprototype halike hfirst
  refine ⟨hgains, hprototype, halike, hfirst, ?_⟩
  rw [publish_eq hripe hanchor hclaimed]
  exact emerges_emerge hgains prefab.variation

theorem publish_step {prefab : Prefab} (h : w.Orderly (.publish prefab :: rest) works)
    (hcall : ∀ other ∈ rest, other.isCall = false) :
    w.Reaches (w.publish prefab, []) rest works := by
  obtain ⟨-, hprototype, -, -, hemerges⟩ := h.publication
  have hclaimed : w.prefabs.find? prefab.identifier = some .claimed :=
    (h.claimed _).mpr (List.mem_filterMap.mpr ⟨_, List.mem_cons_self, rfl⟩)
  have hlt : prefab.node < w.nodes.size := (h.head_open prefab.node List.mem_cons_self).lt_size
  have hprefabs : ∀ identifier, (w.publish prefab).prefabs.find? identifier =
      if identifier = prefab.identifier then some (.ready prefab.node)
      else w.prefabs.find? identifier := fun identifier => by
    rw [hemerges.prefabs, find?_registered]
  obtain ⟨new, hparked, hemergences⟩ := hemerges.parked
  rw [parked_registered] at hparked
  refine ⟨⟨hemerges.gains.extended, fun identifier hmet => ?_, fun identifier root hready => ?_⟩,
    new, hparked, h.publish hcall hemerges.gains ?_ hprefabs fun work hwork => ?_⟩
  · rw [hprefabs]
    split
    · simp
    · exact hmet
  · rw [hprefabs, if_neg ?_]
    · exact hready
    · rintro rfl
      rw [hclaimed] at hready
      cases hready
  · obtain ⟨sealed, hroot, hsealed⟩ := hprototype
    exact ⟨sealed, (hemerges.get?_of_lt hlt).trans hroot, hsealed⟩
  · rw [hemerges.prefabs]
    exact hemergences work hwork

/-! ## Every task -/

/-- **Doing the next task is orderly.** -/
theorem perform (h : w.Orderly (task :: rest) works) (hheads : Law.planned.Heads w task)
    (hrest : ∀ other ∈ rest, other.Obeys Law.planned) :
    w.Reaches (w.perform task) rest works := by
  have hcall : ∀ other ∈ rest, other.isCall = false := by
    intro other hother
    cases other with
    | call handler node bundle baked => exact (hrest _ hother).elim
    | _ => rfl
  rcases hheads with hobeys | ⟨handler, node, bundle, baked, rfl, hcalls⟩
  · cases task with
    | advance node chain baked => exact h.of_moves rfl hcall h.moves_advance
    | search node chain baked => exact h.of_moves rfl hcall (h.moves_search hobeys)
    | call handler node bundle baked => exact hobeys.elim
    | carryOn node chain => exact h.of_moves rfl hcall h.moves_carryOn
    | destroy node => exact h.of_moves rfl hcall h.moves_destroy
    | park work => exact h.of_moves rfl hcall h.moves_park
    | carryTip growth => exact h.of_moves rfl hcall h.moves_carryTip
    | ripen growth => exact h.of_moves rfl hcall h.moves_ripen
    | publish prefab => exact h.publish_step hcall
  · cases hcalls with
    | root _ _ => exact h.seed_step hcall
    | @bound seed symbol prototype s state hgrows hfollows hs hfind _ _ _ =>
      generalize prototype.handler = handler at h
      rcases handler.handsOn_or with
        ⟨gone, hgone⟩ | ⟨closing, rfl⟩ | ⟨shape, rfl⟩ | ⟨planted, rfl⟩
      · exact h.of_moves rfl hcall (h.moves_handsOn hfollows hs hgone)
      · exact h.of_moves rfl hcall (h.moves_fork hfollows hs)
      · exact h.of_moves rfl hcall (h.moves_branch hfollows hs hgrows)
      · exact h.seed_step hcall

end World.Orderly

/-! ## Every continuation -/

namespace Continuation

/-- **What a continuation holds it goes on holding**, or its tasks do. -/
theorem holdings_resume (work : Continuation Empty) (w : World Empty) :
    Task.holdings (work.resume w).tasks
      (if (work.resume w).step = .pending then [(work.resume w).continuation] else []) = work.held := by
  have hresumes := work.resumes w
  generalize work.resume w = resumption at hresumes ⊢
  cases hresumes with
  | due next => cases next.work <;> rfl
  | late delay => cases delay.work <;> rfl
  | grown growth =>
    simp only [Elongation.finish]
    cases growth.work <;> rfl
  | unfolded unfolding blade =>
    simp only [Unfolding.finish]
    cases unfolding.work <;> rfl
  | emerges scaling done elapsed scale => cases done <;> rfl
  | host work => exact work.elim
  | _ => rfl

/-- A chain that waits does so at the same pause. -/
theorem Named.resume {a : Arena} {work : Continuation Empty} (h : work.Named a) (w : World Empty) :
    (work.resume w).continuation.Named a := by
  have hresumes := work.resumes w
  generalize work.resume w = resumption at hresumes ⊢
  cases hresumes with
  | early delay => exact h
  | late delay => exact h
  | host work => exact work.elim
  | _ => trivial

end Continuation

namespace World.Orderly

variable {w later : World Empty} {tasks : List (Task Empty)} {works : List (Continuation Empty)}

/-- **Resuming a continuation is orderly.** -/
theorem resume {work : Continuation Empty} (h : w.Orderly [] (work :: works)) :
    (work.resume w).world.Orderly (work.resume w).tasks
      ((if (work.resume w).step = .pending then [(work.resume w).continuation] else []) ++ works) := by
  have hopen := h.work_open work List.mem_cons_self
  have hredraws := work.redraws_resume w
  obtain ⟨hwithin, hleft⟩ := work.within_resume w
  have hsuits : ∀ task ∈ (work.resume w).tasks, task.Suits w.nodes work.mentioned False := by
    intro task htask
    have hmentioned := hwithin task htask
    rcases work.exists_of_mem_resume w htask with
      ⟨node, rfl⟩ | ⟨node, chain, later, -, -, -, ⟨baked, rfl⟩ | rfl⟩
    · exact ⟨hmentioned, False.elim, rfl, rfl, trivial⟩
    · exact ⟨hmentioned, False.elim, rfl, rfl, trivial⟩
    · exact ⟨hmentioned, False.elim, rfl, rfl, trivial⟩
  have hpending : ∀ other ∈ (if (work.resume w).step = .pending then [(work.resume w).continuation]
      else []), other = (work.resume w).continuation := by
    intro other hother
    split at hother
    · exact List.mem_singleton.mp hother
    · cases hother
  have hstep : w.Ordinary (work.resume w).world work.mentioned work.held False (work.resume w).tasks
      (if (work.resume w).step = .pending then [(work.resume w).continuation] else []) := by
    refine Ordinary.of_advances (hredraws.advances h.scene hopen) (fun identifier => ?_) hsuits
      (fun other hother => ?_) False.elim fun id => ?_
    · rw [hredraws.prefabs]
    · rw [hpending other hother]
      exact ⟨hleft, (h.work_named work List.mem_cons_self).resume w⟩
    · rw [work.holdings_resume, hredraws.lingers_eq]
  have hsplit : w.Orderly ([] ++ []) ([work] ++ works) := h
  have hlater := hsplit.ordinary hstep hopen (fun id => ?_) (fun task htask => (by cases htask))
    (fun prefab hprefab => (by cases hprefab)) (fun task htask => (by cases htask))
  · rwa [List.append_nil] at hlater
  · simp [Task.holdings]

/-- Only the nodes and the prefabs matter. -/
theorem congr (h : w.Orderly tasks works) (hnodes : later.nodes = w.nodes)
    (hprefabs : later.prefabs = w.prefabs) : later.Orderly tasks works where
  scene := hnodes ▸ h.scene
  task_open := hnodes ▸ h.task_open
  work_open := hnodes ▸ h.work_open
  precedes := hnodes ▸ h.precedes
  publishes := hnodes ▸ h.publishes
  claimed_nodup := h.claimed_nodup
  claimed := hprefabs ▸ h.claimed
  ready := hnodes ▸ hprefabs ▸ h.ready
  call := hnodes ▸ h.call
  account := hnodes ▸ h.account
  task_named := hnodes ▸ h.task_named
  work_named := hnodes ▸ h.work_named

end World.Orderly

/-! ## The whole course -/

/-- The handlers come from plans, and growth is orderly, all continuations that wait or are parked
being counted. -/
structure Garden.Ordered (w : World Empty) (tasks : List (Task Empty))
    (waiting : List (Continuation Empty)) : Prop where
  governs : Law.planned.Governs w tasks waiting
  orderly : w.Orderly tasks (waiting ++ w.parked.toList)

namespace Garden

/-- **Every step of growth is orderly.** -/
theorem orderly_invariant : Invariant Ordered where
  perform := by
    intro w task rest waiting h
    obtain ⟨-, new, hparked, horderly⟩ := h.orderly.perform h.governs.tasks.1 h.governs.tasks.2
    refine ⟨Law.sound_planned.invariant.perform h.governs, ?_⟩
    rw [hparked, ← List.append_assoc]
    exact horderly.perm List.perm_append_comm
  resume := by
    intro w work waiting h
    refine ⟨Law.sound_planned.invariant.resume h.governs, ?_⟩
    rw [(work.redraws_resume w).parked]
    have horderly := h.orderly.resume
    split at horderly
    next hpending =>
      rw [if_pos hpending]
      exact horderly
    next hdone =>
      rw [if_neg hdone]
      exact horderly
  reorder := by
    intro w tasks waiting other hperm h
    exact ⟨Law.sound_planned.invariant.reorder hperm h.governs,
      h.orderly.perm (hperm.append_right _)⟩
  unpark := by
    intro w waiting h
    refine ⟨Law.sound_planned.invariant.unpark h.governs, ?_⟩
    show w.unpark.2.Orderly [] (waiting ++ w.parked.toList ++ [])
    rw [List.append_nil]
    exact h.orderly.congr rfl rfl
  elapse := by
    intro w waiting seconds h
    exact ⟨Law.sound_planned.invariant.elapse seconds h.governs, h.orderly.congr rfl rfl⟩

section

variable {plan : PlantPlan} {settings : Settings} {seed : Seed Empty}

/-- The root is the only node that there is at first. -/
theorem get?_seedbed (plan : PlantPlan) (settings : Settings) (id : NodeId) :
    (seedbed plan settings).nodes.get? id =
      if id = 0 then some (({} : Arena).made plan.traits.root) else none := by
  have hfirst : ∀ p, plan.traits.root.previous = some p → p < ({} : Arena).size :=
    fun p hp => (by cases hp)
  show (({} : Arena).addNode plan.traits.root).2.get? id = _
  rw [Arena.get?_addNode hfirst]
  rfl

theorem scene_seedbed (plan : PlantPlan) (settings : Settings) :
    (seedbed plan settings).nodes.Scene := by
  have hempty : ∀ (id : NodeId) (node : Node), ({} : Arena).get? id ≠ some node := by
    intro id node h
    cases h
  have scene : ({} : Arena).Scene :=
    ⟨fun h => absurd h (hempty _ _), fun h => absurd h (hempty _ _), fun h => absurd h (hempty _ _),
      fun h => absurd h (hempty _ _), fun h => absurd h (hempty _ _), fun h => absurd h (hempty _ _),
      fun h => absurd h (hempty _ _)⟩
  have hfits : ({} : Arena).Fits plan.traits.root := fun p hp => (by cases hp)
  exact scene.addNode hfits

/-- Growth is orderly when a plan is planted. -/
theorem orderly_seedbed (plan : PlantPlan) (seed : Seed Empty) (settings : Settings) :
    (seedbed plan settings).Orderly [rootTask plan seed] [] := by
  have hroot : (seedbed plan settings).nodes.get? 0 = some (({} : Arena).made plan.traits.root) :=
    get?_seedbed plan settings 0
  have hsingle : ∀ {other}, other ∈ [rootTask plan seed] → other = rootTask plan seed :=
    fun hother => List.mem_singleton.mp hother
  have hvacant : ∀ identifier, (seedbed plan settings).prefabs.find? identifier = none :=
    fun identifier => Dictionary.find?_empty identifier
  exact {
    scene := scene_seedbed plan settings
    task_open := by
      intro other hother id hid
      rw [hsingle hother] at hid
      rw [List.mem_singleton.mp hid]
      exact ⟨_, hroot, rfl, fun p previous hp => (by cases hp)⟩
    work_open := fun work hwork => (by cases hwork)
    precedes := List.pairwise_singleton _ _
    publishes := fun prefab hprefab => absurd (hsingle hprefab) (fun heq => (by cases heq))
    claimed_nodup := List.nodup_nil
    claimed := by
      intro identifier
      rw [hvacant]
      exact ⟨fun heq => (by cases heq), fun hmem => (by cases hmem)⟩
    ready := by
      intro identifier root hfind
      rw [hvacant] at hfind
      cases hfind
    call := by
      intro handler node bundle baked rest heq
      simp only [rootTask, List.cons.injEq, Task.call.injEq] at heq
      obtain ⟨⟨rfl, rfl, rfl, rfl⟩, rfl⟩ := heq
      exact ⟨_, ⟨hroot, rfl, rfl, fun _ _ heq => (by cases heq)⟩,
        Or.inr ⟨fun task htask => (by cases htask), fun work hwork => (by cases hwork)⟩⟩
    account := by
      intro id
      have hsolid : (seedbed plan settings).nodes.lingers id = false := by
        rw [Arena.lingers, get?_seedbed]
        split
        next node hnode =>
          split at hnode
          · rw [← Option.some.inj hnode]
            rfl
          · cases hnode
        next => rfl
      rw [hsolid]
      rfl
    task_named := by
      intro other hother
      rw [hsingle hother]
      trivial
    work_named := fun work hwork => (by cases hwork) }

theorem ordered_seedbed (h : plan.seed = .ok seed) (settings : Settings) :
    Ordered (seedbed plan settings) [rootTask plan seed] [] :=
  ⟨Law.governs_seedbed ⟨plan, trivial, h⟩, orderly_seedbed plan seed settings⟩

end

end Garden
end PlantGrowth
