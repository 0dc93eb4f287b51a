import PlantGrowth.Proofs.Moments
import PlantGrowth.Proofs.Returning

/-!
# Instances agree

A baked seed that finds a prototype takes an instance of it into the scene and does nothing else. One
that misses leaves an instance of the prototype that it made. All instances are alike: they are of the
form of their prototype, which stays as it is (`Garden.instances_agree`).
-/

namespace PlantGrowth

/-- The tree under a node is alike to the one under `root`, and all of it is dead and shown. -/
structure Arena.IsInstance (a : Arena) (root first : NodeId) : Prop where
  alike : Arena.Alike a root a first
  node : ∀ id ∈ a.subtree first, ∃ node, a.get? id = some node ∧ node.dead = true ∧ node.hidden = false

/-- What emerges is dead and shown. -/
theorem World.Emerges.isInstance {H : Type} {a : Arena} {bound root : NodeId} {w later : World H}
    (h : World.Emerges a bound w later) (halike : Arena.Alike later.nodes root later.nodes a.size) :
    later.nodes.IsInstance root a.size := by
  refine ⟨halike, fun id hid => ?_⟩
  have hlarge := h.gains.scene.le_of_mem_subtree hid
  obtain ⟨node, hnode, -⟩ := Arena.present_iff.mp (h.gains.scene.forest.present_of_mem_subtree hid)
  obtain ⟨-, hshown, hdead⟩ := h.gains.new hlarge hnode
  exact ⟨node, hnode, hdead, hshown⟩

namespace Garden
namespace Moment

variable {m later : Moment} {task : Task Empty} {rest : List (Task Empty)} {node root : NodeId}
  {identifier : String}

/-- The next task does nothing but to take an instance of a prototype, which stays as it is. -/
structure Places (m : Moment) (rest : List (Task Empty)) (root : NodeId) (after : World Empty) :
    Prop where
  tasks : m.next.tasks = rest
  world : m.next.world = after
  dispatched : after.dispatched = m.world.dispatched
  size : after.nodes.size = m.world.nodes.size + (m.world.nodes.subtree root).length
  made : after.nodes.IsInstance root m.world.nodes.size
  subtree : after.nodes.subtree root = m.world.nodes.subtree root
  node : ∀ id ∈ m.world.nodes.subtree root, after.nodes.get? id = m.world.nodes.get? id

/-- **A seed that finds an entry is done at once**, if the numbers for a placement can be drawn. -/
theorem Bakes.ends_iff {after : World Empty} {entry : PrefabState}
    (h : m.Bakes task rest node identifier) (hmet : m.world.prefabs.find? identifier = some entry) :
    m.world.Ends [task] after ↔
      (∀ bounds ∈ task.draws m.world, bounds.far = false) ∧ m.next.world = after := by
  have htasks := h.tasks_of_met hmet
  obtain ⟨hqueue, ⟨planted, bundle, rfl⟩, -⟩ := h
  obtain ⟨w, tasks, waiting⟩ := m
  obtain rfl : tasks = _ := hqueue
  have hnone : (w.perform (.call (.seed planted) node bundle true)).2 = [] :=
    List.append_left_eq_self.mp htasks
  have hperform : w.perform (.call (.seed planted) node bundle true) =
      ((w.perform (.call (.seed planted) node bundle true)).1, []) := Prod.ext rfl hnone
  constructor
  · intro hends
    have hgoes := hends.halts_eq_false
    have hdone := hends.of_comes (World.Comes.step hperform hgoes)
    exact ⟨(World.halts_eq_false_iff.mp hgoes).2, (World.ends_nil _).unique hdone⟩
  · rintro ⟨hnarrow, rfl⟩
    have hgoes := World.halts_eq_false_iff.mpr ⟨rfl, hnarrow⟩
    exact (World.Comes.step hperform hgoes).ends_of_ends (World.ends_nil _)

/-- **A seed that finds a prototype** takes an instance of it. -/
theorem Bakes.places {after : World Empty} (h : m.Bakes task rest node identifier)
    (hm : Ordered m.world m.tasks m.waiting)
    (hready : m.world.prefabs.find? identifier = some (.ready root))
    (hends : m.world.Ends [task] after) : m.Places rest root after := by
  have hdone := h.tasks_of_met hready
  obtain ⟨-, hnext⟩ := (h.ends_iff hready).mp hends
  obtain ⟨htasks, ⟨planted, bundle, rfl⟩, state, hstate, hlive, hprefab⟩ := h
  obtain ⟨w, tasks, waiting⟩ := m
  obtain rfl : tasks = _ := htasks
  have hprototype := hm.orderly.ready identifier root hready
  have scene := hm.orderly.scene
  obtain ⟨mid, placement, hsame, heffect⟩ :=
    (planted.bakes_seedBaked hstate bundle).of_ready hlive hprefab hready
  obtain ⟨copied, hcopied, hcopiedScene, hemerges⟩ :=
    hm.orderly.emerges_hit hstate hsame hready placement
  have hafter : (w.seedBaked planted node bundle).2.world = after := hnext
  rw [heffect] at hafter
  have hfits := hm.orderly.fits_instance hstate
  have hcarries := hcopied.carries scene hprototype.isPresent fun p hp => by
    obtain ⟨above, habove, -⟩ := hfits p hp
    exact Arena.lt_size_of_get? habove
  obtain rfl : mid.placeInstance identifier root (state.previous.or (some node)) placement
    planted.traits.variation = after := hafter
  obtain ⟨htree, hnodes⟩ :=
    hprototype.sameTree scene hemerges.gains.scene hemerges.gains.extended
  have halike := hcarries.later htree
    (hemerges.sameTree hcopiedScene (hcopied.present scene hprototype.isPresent))
  exact {
    tasks := hdone
    world := hnext
    dispatched := hemerges.dispatched.trans hsame.dispatched
    size := hemerges.size.trans hcopied.size
    made := hemerges.isInstance ⟨_, halike⟩
    subtree := htree.subtree
    node := hnodes }

/-- What a seed that misses leaves: its node is the prototype, and there is an instance of it where the
node was. -/
structure Leaves (m : Moment) (node : NodeId) (identifier : String) (after : World Empty)
    (first : NodeId) : Prop where
  ready : after.prefabs.find? identifier = some (.ready node)
  new : m.world.nodes.size ≤ first
  made : after.nodes.IsInstance node first
  hung : ∃ copy, after.nodes.get? first = some copy ∧
    copy.name = "InitialInstance_" ++ identifier ∧
    copy.parent = (m.world.nodes.get? node).bind (·.previous)

/-- **A seed that misses** leaves an instance of the prototype that it has made. -/
theorem Bakes.leaves {after : World Empty} (h : m.Bakes task rest node identifier)
    (hm : Ordered m.world m.tasks m.waiting) (hmiss : m.world.prefabs.find? identifier = none)
    (hends : m.world.Ends [task] after) :
    m.Leads ⟨after, rest, m.waiting⟩ ∧ ∃ first, m.Leaves node identifier after first := by
  obtain ⟨htasks, ⟨planted, bundle, rfl⟩, state, hstate, hlive, hprefab⟩ := h
  obtain ⟨w, tasks, waiting⟩ := m
  obtain rfl : tasks = _ := htasks
  obtain ⟨later, prefab, rfl, rfl, hanchor, -, heffect⟩ :=
    (planted.bakes_seedBaked hstate bundle).of_none hlive hprefab hmiss
  have hperform : w.perform (.call (.seed planted) prefab.node bundle true) =
      (later, (planted.startChain later prefab.node bundle).2 ++ [.publish prefab]) := by
    show ((w.seedBaked planted prefab.node bundle).2.world,
      (w.seedBaked planted prefab.node bundle).2.allTasks) = _
    rw [heffect]
    rfl
  -- The chain is done before the structure is published.
  have hgoes := hends.halts_eq_false
  have hgrown := hends.of_comes (World.Comes.step hperform hgoes)
  rw [List.append_nil] at hgrown
  obtain ⟨mid, hmid, hpublish⟩ := hgrown.exists_between
  obtain rfl : after = mid.publish prefab := by
    have hdone : mid.perform (.publish prefab) = (mid.publish prefab, []) := rfl
    have hclosed : mid.Comes [.publish prefab] (mid.publish prefab) [] :=
      World.Comes.step hdone hpublish.halts_eq_false
    exact (hpublish.of_comes hclosed).unique (World.ends_nil _)
  have hcomes : w.Comes (.call (.seed planted) prefab.node bundle true :: rest) mid
      (.publish prefab :: rest) := by
    have hcall : w.Comes (.call (.seed planted) prefab.node bundle true :: rest) later
        ((planted.startChain later prefab.node bundle).2 ++ [.publish prefab] ++ rest) :=
      World.Comes.step hperform hgoes
    rw [List.append_assoc] at hcall
    exact hcall.trans ((World.ends_iff_comes.mp hmid).append (.publish prefab :: rest))
  have hleads := (Moment.invariant_leads ⟨w, _, waiting⟩).of_comes hcomes .refl
  obtain ⟨hordered, hkeeps⟩ := hleads.keeps hm
  obtain ⟨hgains, hprototype, ⟨f, hf⟩, ⟨copy, hcopy, hname, hparent⟩, hemerges⟩ :=
    hordered.orderly.publication
  have htree := hemerges.sameTree hgains.scene hprototype.isPresent
  have hcopyTree := hemerges.sameTree hgains.scene hgains.present
  obtain ⟨transform, hlater⟩ := hemerges.exists_get? hcopy
  refine ⟨hleads.next, mid.nodes.size, ?_, hkeeps.extended.size_le,
    hemerges.isInstance ⟨f, hf.later htree hcopyTree⟩, _, hlater, hname, ?_⟩
  · rw [hemerges.prefabs, World.find?_registered, if_pos rfl]
  · show copy.parent = (w.nodes.get? prefab.node).bind (·.previous)
    rw [hparent, hanchor, hstate, Option.bind_some]

end Moment

variable {plan : PlantPlan} {seed : Seed Empty} {settings : Settings} {m : Moment}

/-- **Every instance is alike to its prototype**, whatever the plan and the settings are. A seed that
finds a prototype is done at once, unless the bounds that its placement is drawn between are too far
apart. It only takes an instance of the prototype, which does not change. A seed that misses, if growth
comes to an end, has made the prototype, and the instance that it leaves is alike to every later one. -/
theorem instances_agree (hseed : plan.seed = .ok seed) (settings : Settings)
    (hm : (Moment.start plan seed settings).Leads m) {task : Task Empty} {rest : List (Task Empty)}
    {node : NodeId} {identifier : String} (hbakes : m.Bakes task rest node identifier) :
    (∀ root, m.world.prefabs.find? identifier = some (.ready root) →
        ((∃ after, m.world.Ends [task] after) ↔ ∀ bounds ∈ task.draws m.world, bounds.far = false) ∧
          ∀ after, m.world.Ends [task] after → m.Places rest root after) ∧
      (m.world.prefabs.find? identifier = none → ∀ after, m.world.Ends [task] after →
        m.Leads ⟨after, rest, m.waiting⟩ ∧ ∃ first, m.Leaves node identifier after first ∧
          ∀ (later : Moment) (task' : Task Empty) (rest' : List (Task Empty)) (node' : NodeId),
            Moment.Leads ⟨after, rest, m.waiting⟩ later → later.Bakes task' rest' node' identifier →
              ∀ final, later.world.Ends [task'] final → later.Places rest' node final ∧
                Arena.Alike after.nodes first final.nodes later.world.nodes.size) := by
  have hordered := hm.ordered hseed
  refine ⟨fun root hready => ⟨?_, fun after => hbakes.places hordered hready⟩,
    fun hmiss after hends => ?_⟩
  · constructor
    · rintro ⟨after, hends⟩
      exact ((hbakes.ends_iff hready).mp hends).1
    · intro hnarrow
      exact ⟨m.next.world, (hbakes.ends_iff hready).mpr ⟨hnarrow, rfl⟩⟩
  obtain ⟨hleads, first, hleaves⟩ := hbakes.leaves hordered hmiss hends
  refine ⟨hleads, first, hleaves, fun later task' rest' node' hlater hagain final hfinal => ?_⟩
  obtain ⟨hafter, -⟩ := hleads.keeps hordered
  obtain ⟨hthen, hkeeps⟩ := hlater.keeps hafter
  have hplaces := hagain.places hthen (hkeeps.ready identifier node hleaves.ready) hfinal
  obtain ⟨hnext, hkeepsNext⟩ := hlater.next.keeps hafter
  rw [hplaces.world] at hnext hkeepsNext
  -- Both instances are alike to the prototype, which has not changed.
  obtain ⟨htree, -⟩ := (hafter.orderly.ready identifier node hleaves.ready).sameTree
    hafter.orderly.scene hnext.orderly.scene hkeepsNext.extended
  obtain ⟨f, hf⟩ := hleaves.made.alike
  have hold : Arena.Alike final.nodes node after.nodes first :=
    ⟨f, hf.later htree (Arena.SameTree.refl _ _)⟩
  exact ⟨hplaces, hold.agree hplaces.made.alike hnext.orderly.scene.forest⟩

/-- The first shoot leaves a prototype and an instance of it, the second one takes another instance, and
the two instances are alike. -/
theorem hedge_agrees : ∃ (seed : Seed Empty) (first second : Moment) (after final : World Empty)
    (rest : List (Task Empty)) (copy : NodeId), hedge.seed = .ok seed ∧
    (Moment.start hedge seed {}).Leads first ∧ first.Leaves 2 "shoot" after copy ∧
    first.Leads second ∧ second.Places rest 2 final ∧
    Arena.Alike after.nodes copy final.nodes second.world.nodes.size := by
  obtain ⟨seed, first, after, second, hseed, hfirst, hafter, hsecond, hmiss, hnone, hrun, hhit,
      hready, hnarrow⟩ :
      ∃ (seed : Seed Empty) (first : Moment) (after : World Empty) (second : Moment),
        hedge.seed = .ok seed ∧ first = (Moment.start hedge seed {}).after 8 ∧
        after = (World.run 9 (first.tasks.take 1) first.world).getD first.world ∧
        second = (Moment.mk after first.tasks.tail first.waiting).after 3 ∧
        first.baking? = some (2, "shoot") ∧ first.world.prefabs.find? "shoot" = none ∧
        (World.run 9 (first.tasks.take 1) first.world).isSome = true ∧
        second.baking? = some (6, "shoot") ∧
        second.world.prefabs.find? "shoot" = some (.ready 2) ∧
        ∀ task ∈ second.tasks.head?, ∀ bounds ∈ task.draws second.world, bounds.far = false :=
    ⟨_, _, _, _, rfl, rfl, rfl, rfl, by decide +kernel, by decide +kernel, by decide +kernel,
      by decide +kernel, by decide +kernel, by decide +kernel⟩
  have hleads : (Moment.start hedge seed {}).Leads first := hfirst ▸ Moment.Leads.refl.after 8
  obtain ⟨task, rest, hbakes⟩ := Moment.exists_bakes_of_baking? hmiss
  obtain ⟨task', rest', hagain⟩ := Moment.exists_bakes_of_baking? hhit
  rw [hbakes.tasks] at hafter hsecond hrun
  rw [hagain.tasks] at hnarrow
  have hends : first.world.Ends [task] after := by
    obtain ⟨done, hdone⟩ := Option.isSome_iff_exists.mp hrun
    obtain rfl : after = done := by rw [hafter, hdone, Option.getD_some]
    exact ⟨9, hdone⟩
  have hthen : Moment.Leads ⟨after, rest, first.waiting⟩ second :=
    hsecond ▸ Moment.Leads.refl.after 3
  obtain ⟨hover, copy, hleaves, hlater⟩ :=
    (instances_agree hseed {} hleads hbakes).2 hnone after hends
  obtain ⟨hreturns, -⟩ :=
    (instances_agree hseed {} (hleads.trans (hover.trans hthen)) hagain).1 2 hready
  obtain ⟨final, hfinal⟩ := hreturns.mpr (hnarrow task' rfl)
  obtain ⟨hplaces, halike⟩ := hlater second task' rest' 6 hthen hagain final hfinal
  exact ⟨seed, first, second, after, final, rest', copy, hseed, hleads, hleaves, hover.trans hthen,
    hplaces, halike⟩

end Garden
end PlantGrowth
