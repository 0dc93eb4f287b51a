import PlantGrowth.Proofs.Calls
import PlantGrowth.Proofs.Prototypes

/-!
# Baked seeds

A baked seed whose node has an identifier looks it up. It takes an instance of the prototype that it
finds, or it claims the identifier, grows its plant and publishes it as the prototype. `Seed.Bakes`
lists what a baked seed can come to, and the rest of the module says what an instance and a published
prototype do to the world.
-/

namespace PlantGrowth

variable {H : Type}

/-! ## Look-ups -/

namespace PrefabStore

variable {store : PrefabStore} {identifier : String} {root : NodeId}

theorem lookup_eq_hit_iff :
    (store.lookup identifier).1 = .hit root ↔ store.find? identifier = some (.ready root) := by
  unfold lookup
  split
  next h => simp [h]
  next h => simp [h]
  next h => simp [h]

theorem lookup_eq_inProgress_iff :
    (store.lookup identifier).1 = .inProgress ↔ store.find? identifier = some .claimed := by
  unfold lookup
  split
  next h => simp [h]
  next h => simp [h]
  next h => simp [h]

theorem lookup_eq_miss_iff :
    (store.lookup identifier).1 = .miss ↔ store.find? identifier = none := by
  unfold lookup
  split
  next h => simp [h]
  next h => simp [h]
  next h => simp [h]

/-- A look-up counts its hits only. -/
theorem entries_lookup (store : PrefabStore) (identifier : String) :
    (store.lookup identifier).2.entries = store.entries := by
  unfold lookup
  split
  · rfl
  · rfl
  · rfl

/-- **A claim is seen under its identifier.** -/
theorem find?_claim (h : store.find? identifier = none) (other : String) :
    (store.claim identifier).2.find? other =
      if other = identifier then some .claimed else store.find? other := by
  rw [claim, h]
  exact Dictionary.find?_insert _ _ _ _

end PrefabStore

namespace World

/-! ## Growing in -/

/-- **An instance grows in only while no prototype is being grown**. It begins at no size, and will have
the size that it has now. -/
theorem emerge_cases (w : World H) (variation : Variation) (id : NodeId) :
    w.emerge variation id = w ∨ (w.prefabs.isGrowing = false ∧ ∃ (scaling : Emergence) (state : Node),
      scaling.node = id ∧ w.nodes.get? id = some state ∧ scaling.endScale = state.transform.scale ∧
        w.emerge variation id =
          (w.mapNodes (·.place id fun t => { t with scale := 0 })).park (.emergence scaling)) := by
  unfold emerge
  split
  · exact Or.inl rfl
  next hidle =>
    split
    · exact Or.inl rfl
    next state hstate =>
      rw [Bool.or_eq_true, not_or] at hidle
      exact Or.inr ⟨by simpa using hidle.2, { node := id, endScale := state.transform.scale, elapsed := 0
                                              duration := variation.scaleTime },
        state, rfl, hstate, rfl, rfl⟩

/-- What growing in leaves of a world in which there is a new instance. -/
structure Emerges (a : Arena) (bound : NodeId) (w later : World H) : Prop where
  gains : a.Gains later.nodes bound
  prefabs : later.prefabs = w.prefabs
  dispatched : later.dispatched = w.dispatched
  parked : ∃ new, later.parked.toList = w.parked.toList ++ new ∧ ∀ work ∈ new,
    w.prefabs.isGrowing = false ∧ ∃ scaling, work = .emergence scaling ∧ scaling.node = a.size
  /-- The instance is placed anew at most. -/
  placed : later.nodes = w.nodes ∨ ∃ change, later.nodes = w.nodes.place a.size change

end World

/-- A node that is placed anew is there still. -/
theorem Arena.get?_place {a : Arena} {id other : NodeId} (change : Transform → Transform) :
    (a.place id change).get? other = (a.get? other).map fun node =>
      if id = other then { node with transform := change node.transform } else node := by
  unfold place
  rw [get?_modify]
  by_cases h : id = other
  · simp only [if_pos h]
  · simp only [if_neg h, Option.map_id']

/-- An instance can be placed anew. -/
theorem Arena.Gains.place {a b : Arena} {bound : NodeId} (h : a.Gains b bound)
    (change : Transform → Transform) : a.Gains (b.place a.size change) bound := by
  have hstays : b.Stays (b.place a.size change) := by
    refine stays_modify fun node hnode => ⟨⟨rfl, rfl, rfl, rfl, rfl, fun _ => rfl, fun h => h,
      fun h => h, fun hhidden => ?_⟩, rfl, rfl, rfl, fun h => Or.inl h⟩
    rw [(h.new (Nat.le_refl _) hnode).2.1] at hhidden
    cases hhidden
  have hget : ∀ {id later}, (b.place a.size change).get? id = some later →
      ∃ node, b.get? id = some node ∧ later.ethereal = node.ethereal ∧ later.hidden = node.hidden ∧
        later.dead = node.dead ∧ later.destroyed = node.destroyed := by
    intro id later hlater
    rw [get?_place] at hlater
    obtain ⟨node, hnode, rfl⟩ := Option.map_eq_some_iff.mp hlater
    refine ⟨node, hnode, ?_⟩
    split
    · exact ⟨rfl, rfl, rfl, rfl⟩
    · exact ⟨rfl, rfl, rfl, rfl⟩
  refine ⟨h.extended.trans hstays.extended, h.spares.trans h.extended fun id node later hnode hlater => ?_,
    h.shows.trans h.extended (hstays.shows bound), hstays.scene h.scene, ?_,
    h.opened.of_extends h.scene hstays.extended (hstays.shows b.size) h.opened.lt_size,
    fun {id later} hlarge hlater => ?_⟩
  · obtain ⟨node', hnode', -, -, -, hdestroyed⟩ := hget hlater
    rw [hdestroyed, Option.some.inj (hnode'.symm.trans hnode)]
  · obtain ⟨node, hnode, hpresent⟩ := present_iff.mp h.present
    obtain ⟨later, hlater, -⟩ := hstays.node hnode
    obtain ⟨node', hnode', -, -, -, hdestroyed⟩ := hget hlater
    refine present_iff.mpr ⟨later, hlater, ?_⟩
    rw [hdestroyed, Option.some.inj (hnode'.symm.trans hnode), hpresent]
  · obtain ⟨node, hnode, hethereal, hhidden, hdead, -⟩ := hget hlater
    rw [hethereal, hhidden, hdead]
    exact h.new hlarge hnode

namespace World

theorem emerges_emerge {a : Arena} {bound : NodeId} {w : World H} (h : a.Gains w.nodes bound)
    (variation : Variation) : Emerges a bound w (w.emerge variation a.size) := by
  rcases w.emerge_cases variation a.size with heq | ⟨hidle, scaling, state, hnode, -, -, heq⟩
  · rw [heq]
    exact ⟨h, rfl, rfl, ⟨[], (List.append_nil _).symm, fun work hwork => (by cases hwork)⟩, Or.inl rfl⟩
  · rw [heq]
    refine ⟨h.place fun t => { t with scale := 0 }, rfl, rfl,
      ⟨[.emergence scaling], Array.toList_push, fun work hwork => ?_⟩,
      Or.inr ⟨fun t => { t with scale := 0 }, rfl⟩⟩
    exact ⟨hidle, scaling, List.mem_singleton.mp hwork, hnode⟩

/-- Nodes that are older than the instance are as they were. -/
theorem Emerges.get?_of_lt {a : Arena} {bound : NodeId} {w later : World H}
    (h : Emerges a bound w later) {id : NodeId} (hlt : id < a.size) :
    later.nodes.get? id = w.nodes.get? id := by
  rcases h.placed with heq | ⟨change, heq⟩
  · rw [heq]
  · rw [heq, Arena.get?_place]
    simp only [if_neg (Nat.ne_of_gt hlt), Option.map_id']

/-- No node comes or goes. -/
theorem Emerges.size {a : Arena} {bound : NodeId} {w later : World H} (h : Emerges a bound w later) :
    later.nodes.size = w.nodes.size := by
  rcases h.placed with heq | ⟨change, heq⟩
  · rw [heq]
  · rw [heq, Arena.place, Arena.size_modify]

/-- Nodes are at most placed anew. -/
theorem Emerges.exists_get? {a : Arena} {bound id : NodeId} {w later : World H} {node : Node}
    (h : Emerges a bound w later) (hnode : w.nodes.get? id = some node) :
    ∃ transform, later.nodes.get? id = some { node with transform } := by
  rcases h.placed with heq | ⟨change, heq⟩
  · exact ⟨node.transform, by rw [heq, hnode]⟩
  · rw [heq, Arena.get?_place, hnode, Option.map_some]
    split
    · exact ⟨_, rfl⟩
    · exact ⟨node.transform, rfl⟩

/-- Trees are of the same form as before. -/
theorem Emerges.sameTree {a : Arena} {bound root : NodeId} {w later : World H}
    (h : Emerges a bound w later) (scene : w.nodes.Scene) (hpresent : w.nodes.present root = true) :
    w.nodes.SameTree later.nodes root := by
  refine scene.sameTree h.gains.scene.forest hpresent (fun {id node} _ hnode => ?_)
    fun {id node} hnode hgone => ?_
  · obtain ⟨transform, hlater⟩ := h.exists_get? hnode
    exact ⟨_, hlater, ⟨rfl, rfl, rfl, rfl, rfl, rfl⟩, fun _ => rfl, rfl, rfl⟩
  · obtain ⟨transform, hlater⟩ := h.exists_get? hnode
    exact ⟨_, hlater, hgone⟩

/-! ## Instances -/

theorem placeInstance_eq {w : World H} {root instanceId : NodeId} {parent : Option NodeId}
    {placement : Transform} (h : (w.nodes.copyPrototype root parent placement).1 = some instanceId)
    (identifier : String) (variation : Variation) :
    w.placeInstance identifier root parent placement variation =
      ({ w with
        nodes := (w.nodes.copyPrototype root parent placement).2.rename instanceId
          ("Instance_" ++ identifier) } : World H).emerge variation instanceId := by
  unfold placeInstance
  rcases hcopy : w.nodes.copyPrototype root parent placement with ⟨copy, nodes⟩
  rw [hcopy] at h
  obtain rfl : copy = some instanceId := h
  rfl

/-- **Placing an instance of a prototype** copies it into the scene, and the copy may grow in. -/
theorem exists_placeInstance {w : World H} {root : NodeId} {parent : Option NodeId}
    (scene : w.nodes.Scene) (hprototype : w.nodes.IsPrototype root)
    (hfits : ∀ p, parent = some p →
      ∃ above, w.nodes.get? p = some above ∧ above.ethereal = false ∧ above.hidden = false)
    (identifier : String) (placement : Transform) (variation : Variation) :
    ∃ copied : Arena, w.nodes.Copied copied root parent ∧ w.nodes.Gains copied w.nodes.size ∧
      w.placeInstance identifier root parent placement variation =
        World.emerge { w with nodes := copied } variation w.nodes.size := by
  obtain ⟨state, hroot, hhidden, -, hstays⟩ := hprototype
  obtain ⟨hfirst, hcopied, hgains⟩ := scene.gains_copyPrototype hroot hhidden hstays hfits placement
    ("Instance_" ++ identifier)
  exact ⟨_, hcopied, hgains, placeInstance_eq hfirst identifier variation⟩

theorem emerges_placeInstance {w : World H} {root : NodeId} {parent : Option NodeId}
    (scene : w.nodes.Scene) (hprototype : w.nodes.IsPrototype root)
    (hfits : ∀ p, parent = some p →
      ∃ above, w.nodes.get? p = some above ∧ above.ethereal = false ∧ above.hidden = false)
    (identifier : String) (placement : Transform) (variation : Variation) :
    ∃ copied : Arena, w.nodes.Copied copied root parent ∧ copied.Scene ∧
      Emerges w.nodes w.nodes.size { w with nodes := copied }
        (w.placeInstance identifier root parent placement variation) := by
  obtain ⟨copied, hcopied, hgains, heq⟩ :=
    exists_placeInstance scene hprototype hfits identifier placement variation
  refine ⟨copied, hcopied, hgains.scene, ?_⟩
  rw [heq]
  exact emerges_emerge hgains variation

/-! ## Publishing -/

/-- The world when a prototype was registered, before its first instance grows in. -/
def registered (w : World H) (prefab : Prefab) : World H :=
  { w with
    nodes := w.nodes.published prefab.node prefab.anchor prefab.placement
      ("Prototype_" ++ prefab.identifier) ("InitialInstance_" ++ prefab.identifier)
    prefabs := { w.prefabs with
      entries := w.prefabs.entries.insert prefab.identifier (.ready prefab.node) } }

theorem nodes_registered (w : World H) (prefab : Prefab) : (w.registered prefab).nodes =
    w.nodes.published prefab.node prefab.anchor prefab.placement
      ("Prototype_" ++ prefab.identifier) ("InitialInstance_" ++ prefab.identifier) := by
  simp only [registered]

theorem parked_registered (w : World H) (prefab : Prefab) :
    (w.registered prefab).parked = w.parked := by
  simp only [registered]

theorem find?_registered (w : World H) (prefab : Prefab) (identifier : String) :
    (w.registered prefab).prefabs.find? identifier =
      if identifier = prefab.identifier then some (.ready prefab.node)
      else w.prefabs.find? identifier := by
  simp only [registered]
  exact Dictionary.find?_insert _ _ _ _

/-- **A prototype is registered when it is published**, and its first instance grows in. -/
theorem publish_eq {w : World H} {prefab : Prefab} {state : Node}
    (hripe : w.nodes.Ripe prefab.node state) (hanchor : prefab.anchor = state.previous)
    (hclaimed : w.prefabs.find? prefab.identifier = some .claimed) :
    w.publish prefab = (w.registered prefab).emerge prefab.variation w.nodes.size := by
  obtain ⟨later, hmoved, -⟩ := hripe.moveToOrigin
  have hcopy := @Arena.copySubtree_eq _ _ state.previous _ hmoved.scene.forest hmoved.isPresent
    prefab.placement
  rw [Arena.size_moveToOrigin] at hcopy
  have hregister : w.prefabs.register prefab.identifier prefab.node = (.ok (), { w.prefabs with
      entries := w.prefabs.entries.insert prefab.identifier (.ready prefab.node) }) := by
    rw [PrefabStore.register, hclaimed]
  unfold publish registered Arena.published Arena.finishCopy
  simp only [hanchor, hregister, hcopy]
  rfl

/-- What publishing does: the structure that has grown becomes a prototype, and the instance that is
left in its place is alike. -/
structure Publishes (w : World H) (prefab : Prefab) : Prop where
  gains : w.nodes.Gains (w.registered prefab).nodes prefab.node
  prototype : (w.registered prefab).nodes.IsPrototype prefab.node
  alike : Arena.Alike (w.registered prefab).nodes prefab.node (w.registered prefab).nodes w.nodes.size
  first : ∃ copy, (w.registered prefab).nodes.get? w.nodes.size = some copy ∧
    copy.name = "InitialInstance_" ++ prefab.identifier ∧ copy.parent = prefab.anchor
  emerges : Emerges w.nodes prefab.node (w.registered prefab) (w.publish prefab)

end World

/-! ## What a baked seed comes to -/

/-- Neither the nodes and the prefabs nor what is parked has changed, and nothing was dispatched. The
random generator and the number of hits may have. -/
structure World.Same (w later : World H) : Prop where
  nodes : later.nodes = w.nodes
  find? : ∀ identifier, later.prefabs.find? identifier = w.prefabs.find? identifier
  isGrowing : later.prefabs.isGrowing = w.prefabs.isGrowing
  parked : later.parked = w.parked
  dispatched : later.dispatched = w.dispatched

/-- What a baked seed can come to at a node. -/
inductive Seed.Bakes (planted : Seed H) (w : World H) (node : NodeId) (bundle : Bundle H)
    (state : Node) : Effect H → Prop where
  /-- The node is dead. -/
  | dead (h : state.dead = true) : Bakes planted w node bundle state { world := w }
  /-- The node has no identifier. -/
  | unshared (live : state.dead = false) (h : state.prefab = none) :
      Bakes planted w node bundle state { world := w, tasks := (planted.startChain w node bundle).2 }
  /-- The plant is within itself. -/
  | within {identifier : String} {later : World H} (live : state.dead = false)
      (h : state.prefab = some identifier) (hfind : w.prefabs.find? identifier = some .claimed)
      (hsame : w.Same later) : Bakes planted w node bundle state { world := later }
  /-- There is a prototype. -/
  | hit {identifier : String} {root : NodeId} {placement : Transform} {later : World H}
      (live : state.dead = false) (h : state.prefab = some identifier)
      (hfind : w.prefabs.find? identifier = some (.ready root)) (hsame : w.Same later) :
      Bakes planted w node bundle state
        { world := later.placeInstance identifier root (state.previous.or (some node)) placement
            planted.traits.variation }
  /-- There is none yet. -/
  | miss {prefab : Prefab} {later : World H} (live : state.dead = false)
      (h : state.prefab = some prefab.identifier)
      (hfind : w.prefabs.find? prefab.identifier = none) (hnode : prefab.node = node)
      (hanchor : prefab.anchor = state.previous) (hnodes : later.nodes = w.nodes)
      (hparked : later.parked = w.parked)
      (hprefabs : ∀ identifier, later.prefabs.find? identifier =
        if identifier = prefab.identifier then some .claimed else w.prefabs.find? identifier) :
      Bakes planted w node bundle state
        { world := later, tasks := (planted.startChain later node bundle).2 ++ [.publish prefab] }

/-- **A baked seed comes to nothing else.** -/
theorem Seed.bakes_seedBaked (planted : Seed H) {w : World H} {node : NodeId} {state : Node}
    (hnode : w.nodes.get? node = some state) (bundle : Bundle H) :
    planted.Bakes w node bundle state (w.seedBaked planted node bundle).2 := by
  unfold World.seedBaked
  rw [hnode]
  dsimp only
  split
  next hdead => exact Bakes.dead hdead
  next hlive =>
    have hlive : state.dead = false := by simpa using hlive
    split
    next hprefab => exact Bakes.unshared hlive hprefab
    next identifier hprefab =>
      have hentries := w.prefabs.entries_lookup identifier
      split
      next root heq =>
        have hlookup : (w.prefabs.lookup identifier).1 = .hit root := heq
        rw [PrefabStore.lookup_eq_hit_iff] at hlookup
        exact Bakes.hit hlive hprefab hlookup ⟨rfl, fun other => congrArg (·.find? other) hentries,
          congrArg (·.anyValue (· == .claimed)) hentries, rfl, rfl⟩
      next heq =>
        have hlookup : (w.prefabs.lookup identifier).1 = .inProgress := heq
        rw [PrefabStore.lookup_eq_inProgress_iff] at hlookup
        exact Bakes.within hlive hprefab hlookup ⟨rfl, fun other => congrArg (·.find? other) hentries,
          congrArg (·.anyValue (· == .claimed)) hentries, rfl, rfl⟩
      next heq =>
        have hlookup : (w.prefabs.lookup identifier).1 = .miss := heq
        rw [PrefabStore.lookup_eq_miss_iff] at hlookup
        have hfind (other : String) :
            (w.prefabs.lookup identifier).2.find? other = w.prefabs.find? other :=
          congrArg (·.find? other) hentries
        have hclaim := PrefabStore.find?_claim ((hfind identifier).trans hlookup)
        refine Bakes.miss hlive hprefab hlookup rfl rfl rfl rfl fun other => (hclaim other).trans ?_
        rw [hfind]

/-- A seed that finds a prototype does nothing but to place an instance of it. -/
theorem Seed.Bakes.of_ready {planted : Seed H} {w : World H} {node root : NodeId} {bundle : Bundle H}
    {state : Node} {effect : Effect H} {identifier : String}
    (h : planted.Bakes w node bundle state effect) (hlive : state.dead = false)
    (hprefab : state.prefab = some identifier)
    (hready : w.prefabs.find? identifier = some (.ready root)) :
    ∃ (later : World H) (placement : Transform), w.Same later ∧ effect =
      { world := later.placeInstance identifier root (state.previous.or (some node)) placement
          planted.traits.variation } := by
  cases h with
  | dead hdead => exact absurd (hlive.symm.trans hdead) Bool.false_ne_true
  | unshared _ hnone => exact absurd (hprefab.symm.trans hnone) nofun
  | within _ hsome hfind _ =>
    obtain rfl := Option.some.inj (hprefab.symm.trans hsome)
    exact absurd (hready.symm.trans hfind) nofun
  | @hit _ _ placement later _ hsome hfind hsame =>
    obtain rfl := Option.some.inj (hprefab.symm.trans hsome)
    obtain rfl : root = _ := PrefabState.ready.inj (Option.some.inj (hready.symm.trans hfind))
    exact ⟨later, placement, hsame, rfl⟩
  | miss _ hsome hfind _ _ _ _ _ =>
    obtain rfl := Option.some.inj (hprefab.symm.trans hsome)
    exact absurd (hready.symm.trans hfind) nofun

/-- A seed that misses claims its identifier, starts its chain and publishes what has grown. -/
theorem Seed.Bakes.of_none {planted : Seed H} {w : World H} {node : NodeId} {bundle : Bundle H}
    {state : Node} {effect : Effect H} {identifier : String}
    (h : planted.Bakes w node bundle state effect) (hlive : state.dead = false)
    (hprefab : state.prefab = some identifier) (hmiss : w.prefabs.find? identifier = none) :
    ∃ (later : World H) (prefab : Prefab), prefab.identifier = identifier ∧ prefab.node = node ∧
      prefab.anchor = state.previous ∧ later.prefabs.find? identifier = some .claimed ∧ effect =
        { world := later, tasks := (planted.startChain later node bundle).2 ++ [.publish prefab] } := by
  cases h with
  | dead hdead => exact absurd (hlive.symm.trans hdead) Bool.false_ne_true
  | unshared _ hnone => exact absurd (hprefab.symm.trans hnone) nofun
  | within _ hsome hfind _ =>
    obtain rfl := Option.some.inj (hprefab.symm.trans hsome)
    exact absurd (hmiss.symm.trans hfind) nofun
  | hit _ hsome hfind _ =>
    obtain rfl := Option.some.inj (hprefab.symm.trans hsome)
    exact absurd (hmiss.symm.trans hfind) nofun
  | @miss prefab later _ hsome _ hnode hanchor _ _ hprefabs =>
    obtain rfl := Option.some.inj (hprefab.symm.trans hsome)
    exact ⟨later, prefab, rfl, hnode, hanchor, by rw [hprefabs, if_pos rfl], rfl⟩

end PlantGrowth
