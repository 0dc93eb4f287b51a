import PlantGrowth.Proofs.Changes

/-!
# Plants within plants

A seed can be a handler in the plant of another seed. Then what grows after its node is a plant
within that plant. `Arena.Encloses` says to which plant it belongs what grows after a node: to the
innermost one around it (`Arena.Encloses.unique`).

Every chain that waits or is on its way belongs to the plant of the node that it goes on after, and is
in a generation of that plant's. So does and is the bundle of every call (`Garden.tended_invariant`).
-/

namespace PlantGrowth

/-! ## Plants around nodes -/

/-- The plant that what grows after a node of a symbol belongs to, if the node is in the seed's plant:
the one within it that is bound to the symbol, or else the same plant. -/
def Seed.entered? (seed : Seed Empty) (symbol : Char) : Option (Seed Empty) :=
  (seed.registry.find? symbol).map fun prototype =>
    match prototype.handler with
    | .seed inner => inner
    | _ => seed

/-- What grows after the node belongs to the plant of the seed. -/
inductive Arena.Encloses (a : Arena) (root : Seed Empty) : Seed Empty → NodeId → Prop where
  | root {state : Node} (node : a.get? 0 = some state) (first : state.previous = none)
      (solid : state.ethereal = false) : Encloses a root root 0
  | next {seed later : Seed Empty} {id p : NodeId} {state : Node} (node : a.get? id = some state)
      (previous : state.previous = some p) (before : Encloses a root seed p)
      (entered : seed.entered? state.symbol = some later)
      (solid : state.ethereal = true → later = seed) : Encloses a root later id

namespace Seed

variable {seed inner : Seed Empty} {symbol : Char} {prototype : Prototype Empty}

theorem entered?_of_seed (hfind : seed.registry.find? symbol = some prototype)
    (hhandler : prototype.handler = .seed inner) : seed.entered? symbol = some inner := by
  rw [entered?, hfind, Option.map_some, hhandler]

theorem entered?_of_ne (hfind : seed.registry.find? symbol = some prototype)
    (hhandler : ∀ inner, prototype.handler ≠ .seed inner) : seed.entered? symbol = some seed := by
  rw [entered?, hfind, Option.map_some]
  cases heq : prototype.handler with
  | seed inner => exact absurd heq (hhandler inner)
  | _ => rfl

/-- What passes on to plants within a plant holds of the plant that a node leads into. -/
theorem within_of_entered? {P : Seed Empty → Prop}
    (hP : ∀ {seed inner symbol prototype}, P seed → seed.registry.find? symbol = some prototype →
      prototype.handler = .seed inner → P inner)
    (h : seed.entered? symbol = some inner) (hseed : P seed) : P inner := by
  obtain ⟨prototype, hfind, heq⟩ := Option.map_eq_some_iff.mp h
  split at heq
  next planted hhandler =>
    rw [← heq]
    exact hP hseed hfind hhandler
  next =>
    rw [← heq]
    exact hseed

/-- A plant within a planned plant is planned. -/
theorem planned_of_entered? (h : seed.entered? symbol = some inner) (hseed : Law.planned.grows seed) :
    Law.planned.grows inner := within_of_entered? Law.sound_planned.within h hseed

end Seed

namespace Arena

variable {a b : Arena} {root seed other : Seed Empty} {id : NodeId} {node : Node}

/-- Nodes keep the plants around them. -/
theorem Encloses.mono (h : a.Encloses root seed id) (hext : a.Extends b) : b.Encloses root seed id := by
  induction h with
  | root hnode hfirst hsolid =>
    obtain ⟨later, hlater, houtlives⟩ := hext hnode
    exact .root hlater (houtlives.previous.trans hfirst) (houtlives.ethereal.trans hsolid)
  | next hnode hprevious _ hentered hsolid ih =>
    obtain ⟨later, hlater, houtlives⟩ := hext hnode
    exact .next hlater (houtlives.previous.trans hprevious) ih (houtlives.symbol.symm ▸ hentered)
      (houtlives.ethereal.symm ▸ hsolid)

/-- **There is one innermost plant around a node**, at most. -/
theorem Encloses.unique (h : a.Encloses root seed id) (h' : a.Encloses root other id) :
    other = seed := by
  induction h generalizing other with
  | root hnode hfirst _ =>
    cases h' with
    | root _ _ _ => rfl
    | next hnode' hprevious _ _ _ =>
      rw [Option.some.inj (hnode.symm.trans hnode'), hprevious] at hfirst
      cases hfirst
  | next hnode hprevious _ hentered _ ih =>
    cases h' with
    | root hnode' hfirst _ =>
      rw [Option.some.inj (hnode'.symm.trans hnode), hprevious] at hfirst
      cases hfirst
    | next hnode' hprevious' hbefore hentered' _ =>
      obtain rfl := Option.some.inj (hnode.symm.trans hnode')
      obtain rfl := Option.some.inj (hprevious.symm.trans hprevious')
      obtain rfl := ih hbefore
      exact Option.some.inj (hentered'.symm.trans hentered)

/-- What passes on to plants within a plant holds of the plants around all nodes. -/
theorem Encloses.within {P : Seed Empty → Prop}
    (hP : ∀ {seed inner symbol prototype}, P seed → seed.registry.find? symbol = some prototype →
      prototype.handler = .seed inner → P inner)
    (h : a.Encloses root seed id) (hroot : P root) : P seed := by
  induction h with
  | root _ _ _ => exact hroot
  | next _ _ _ hentered _ ih => exact Seed.within_of_entered? hP hentered ih

theorem Encloses.planned (h : a.Encloses root seed id) (hroot : Law.planned.grows root) :
    Law.planned.grows seed := h.within Law.sound_planned.within hroot

namespace Scene

/-- Solid nodes are never gone. -/
theorem present_of_solid (scene : a.Scene) (hnode : a.get? id = some node)
    (hsolid : node.ethereal = false) : node.destroyed = false := by
  cases hgone : node.destroyed with
  | false => rfl
  | true => cases hsolid.symm.trans (scene.gone hnode hgone)

theorem nearestAnchor_of_solid (scene : a.Scene) (hnode : a.get? id = some node)
    (hsolid : node.ethereal = false) : a.nearestAnchor id = some id := by
  have hmark : a.marks[id]? = some node.mark := by
    rw [getElem?_marks, hnode, Option.map_some]
  exact Arena.nearestAnchor_of_solid hmark hsolid (scene.present_of_solid hnode hsolid)

theorem nearestAnchor_of_ethereal (scene : a.Scene) (hnode : a.get? id = some node)
    (hethereal : node.ethereal = true) {p : NodeId} (hprevious : node.previous = some p) :
    a.nearestAnchor id = some p := by
  obtain ⟨-, state, hstate, hsolid⟩ := scene.previous hnode hprevious
  have hmark : a.marks[id]? = some node.mark := by
    rw [getElem?_marks, hnode, Option.map_some]
  have hother : a.marks[p]? = some state.mark := by
    rw [getElem?_marks, hstate, Option.map_some]
  exact Arena.nearestAnchor_of_ethereal hmark hethereal hprevious hother hsolid
    (scene.present_of_solid hstate hsolid)

end Scene

/-- **What is made after a node belongs to the plant around its anchor.** -/
theorem Encloses.nearestAnchor (h : a.Encloses root seed id) (scene : a.Scene) :
    ∃ p, a.nearestAnchor id = some p ∧ a.Encloses root seed p := by
  have hself := h
  cases h with
  | root hnode _ hsolid => exact ⟨0, scene.nearestAnchor_of_solid hnode hsolid, hself⟩
  | @next before _ _ p state hnode hprevious hbefore _ hsolid =>
    cases hethereal : state.ethereal with
    | false => exact ⟨id, scene.nearestAnchor_of_solid hnode hethereal, hself⟩
    | true =>
      rw [hsolid hethereal]
      exact ⟨p, scene.nearestAnchor_of_ethereal hnode hethereal hprevious, hbefore⟩

end Arena

/-! ## What belongs to a plant -/

/-- The bundle has the entries of the seed's plant, and is in one of its generations. -/
structure Bundle.WellFormed (seed : Seed Empty) (bundle : Bundle Empty) : Prop
    extends bundle.Follows seed where
  nonneg : 0 ≤ bundle.generation
  le_ceiling : bundle.generation ≤ seed.ceiling

/-- The chain belongs to the plant around the node that it goes on after. -/
def Chain.Tended (a : Arena) (root : Seed Empty) (id : NodeId) (chain : Chain Empty) : Prop :=
  ∃ seed, a.Encloses root seed id ∧ chain.Follows seed ∧ chain.bundle.WellFormed seed

/-- The chain of the continuation, if any, belongs to the plant around its node. -/
def Continuation.Tended (a : Arena) (root : Seed Empty) (work : Continuation Empty) : Prop :=
  ∀ id chain, work.anchor? = some id → work.chain? = some chain → chain.Tended a root id

/-- The handler is bound to the node's symbol in the plant that the node was made in, and the bundle
belongs to that plant. -/
def Handler.Tended (a : Arena) (root : Seed Empty) (node : NodeId) (bundle : Bundle Empty)
    (handler : Handler Empty) : Prop :=
  ∃ seed p state prototype, a.get? node = some state ∧ state.previous = some p ∧
    a.Encloses root seed p ∧ bundle.WellFormed seed ∧
    seed.registry.find? state.symbol = some prototype ∧ prototype.handler = handler

/-- The chain or the bundle of the task belongs to its plant. -/
def Task.Tended (a : Arena) (root : Seed Empty) : Task Empty → Prop
  | .advance predecessor chain _ => chain.Tended a root predecessor
  | .search predecessor chain _ => chain.Tended a root predecessor
  | .call handler node bundle _ => handler.Tended a root node bundle
  | .carryOn node chain => chain.Tended a root node
  | .destroy _ => True
  | .park work => work.Tended a root
  | .carryTip _ => True
  | .ripen growth => (Continuation.branch growth).Tended a root
  | .publish _ => True

section

variable {a b : Arena} {root seed : Seed Empty} {id : NodeId} {chain later : Chain Empty}
  {bundle next : Bundle Empty} {work : Continuation Empty} {task : Task Empty}

theorem Bundle.WellFormed.succeeds (h : bundle.WellFormed seed) (hnext : Succeeds seed bundle next) :
    next.WellFormed seed :=
  ⟨hnext.follows, hnext.generation ▸ h.nonneg, hnext.generation ▸ h.le_ceiling⟩

/-- A plant has no fewer than no generations. -/
theorem Law.ceiling_nonneg (h : Law.planned.grows seed) : 0 ≤ seed.ceiling := by
  obtain ⟨plan, -, hok⟩ := h
  obtain ⟨rules, -, hiterations, htraits, -⟩ := PlantPlan.traits_of_seed hok
  unfold Seed.ceiling
  rw [htraits]
  split
  · exact Int.le_refl 0
  · exact hiterations

/-- A plant's first bundle is in generation 0. -/
theorem Seed.wellFormed_chain (h : Law.planned.grows seed) (tidy : bundle.Tidy) (position : Vec3) :
    (seed.chain position bundle).bundle.WellFormed seed := by
  have hzero : (seed.chain position bundle).bundle.generation = 0 := Seed.generation_chain tidy
  refine ⟨(Seed.follows_chain tidy).bundle, ?_, ?_⟩
  · rw [hzero]
  · rw [hzero]
    exact Law.ceiling_nonneg h

theorem Chain.Tended.mono (h : chain.Tended a root id) (hext : a.Extends b) :
    chain.Tended b root id := by
  obtain ⟨seed, hencloses, hfollows⟩ := h
  exact ⟨seed, hencloses.mono hext, hfollows⟩

theorem Continuation.Tended.mono (h : work.Tended a root) (hext : a.Extends b) : work.Tended b root :=
  fun id chain hid hchain => (h id chain hid hchain).mono hext

theorem Task.Tended.mono (h : task.Tended a root) (hext : a.Extends b) : task.Tended b root := by
  cases task with
  | advance predecessor chain baked => exact Chain.Tended.mono h hext
  | search predecessor chain baked => exact Chain.Tended.mono h hext
  | call handler node bundle baked =>
    obtain ⟨seed, p, state, prototype, hnode, hprevious, hencloses, hbundle, hfind, hhandler⟩ := h
    obtain ⟨later, hlater, houtlives⟩ := hext hnode
    exact ⟨seed, p, later, prototype, hlater, houtlives.previous.trans hprevious, hencloses.mono hext,
      hbundle, houtlives.symbol.symm ▸ hfind, hhandler⟩
  | carryOn node chain => exact Chain.Tended.mono h hext
  | destroy node => trivial
  | park work => exact Continuation.Tended.mono h hext
  | carryTip growth => trivial
  | ripen growth => exact Continuation.Tended.mono h hext
  | publish prefab => trivial

/-- What a chain hands on belongs where the chain does. -/
theorem Chain.Tended.leads (h : chain.Tended a root id) (hleads : chain.Leads later) :
    later.Tended a root id := by
  obtain ⟨seed, hencloses, hfollows, hbundle⟩ := h
  obtain ⟨hcore, hsucceeds⟩ := hleads
  have hnext := hbundle.succeeds (hsucceeds seed hfollows.bundle)
  exact ⟨seed, hencloses,
    ⟨hcore ▸ hfollows.registry, hcore ▸ hfollows.rules, hnext.toFollows⟩, hnext⟩

/-- **The next generation of a chain belongs where the chain does.** -/
theorem Chain.Tended.current (h : chain.Tended a root id) {usual : Nat}
    (hcurrent : chain.Current usual later) : later.Tended a root id := by
  cases hcurrent with
  | same _ => exact h
  | renewed _ hrenew =>
    obtain ⟨seed, hencloses, hfollows, hbundle⟩ := h
    obtain ⟨hrenewed, -, hgeneration, hlast⟩ := hfollows.renew hrenew
    refine ⟨seed, hencloses, hrenewed, hrenewed.bundle, ?_, hlast⟩
    rw [hgeneration]
    exact Int.add_nonneg hbundle.nonneg (by decide)

end

/-! ## One task -/

/-- What a step leaves belongs to its plant. -/
structure World.Tends (root : Seed Empty) (w : World Empty) (next : World Empty × List (Task Empty)) :
    Prop where
  tasks : ∀ task ∈ next.2, task.Tended next.1.nodes root
  parked : ∀ work ∈ next.1.parked.toList, work ∈ w.parked.toList ∨ work.Tended next.1.nodes root

namespace World

variable {w later : World Empty} {root seed : Seed Empty} {task : Task Empty}
  {rest : List (Task Empty)} {works : List (Continuation Empty)} {node : NodeId}
  {chain : Chain Empty} {bundle : Bundle Empty} {baked : Bool}

/-- Steps that leave nothing. -/
theorem Calm.tends (h : w.Calm later) {tasks : List (Task Empty)}
    (htasks : ∀ task ∈ tasks, task.Tended later.nodes root) : w.Tends root (later, tasks) where
  tasks := htasks
  parked := by
    intro work hwork
    rcases h.parked work hwork with hold | ⟨scaling, rfl⟩
    · exact Or.inl hold
    · exact Or.inr fun id chain hid => (by cases hid)

theorem tends_park {work : Continuation Empty} (h : work.Tended w.nodes root) :
    w.Tends root (w.park work, []) where
  tasks := fun task htask => (by cases htask)
  parked := by
    intro other hother
    rw [World.park, Array.toList_push] at hother
    rcases List.mem_append.mp hother with hold | hnew
    · exact Or.inl hold
    · rw [List.mem_singleton.mp hnew]
      exact Or.inr h

theorem tends_carryOn (h : chain.Tended w.nodes root node) : w.Tends root (w.carryOn node chain) := by
  have hpark : w.Tends root (w.parkNext node chain, []) := by
    refine tends_park fun id other hid hother => ?_
    obtain rfl : node = id := Option.some.inj hid
    obtain rfl : chain = other := Option.some.inj hother
    exact h
  rcases w.carryOn_cases node chain with ⟨heq, -⟩ | ⟨heq, -⟩
  · rw [heq]
    refine (Calm.refl w).tends fun task htask => ?_
    rw [List.mem_singleton.mp htask]
    exact h
  · rw [heq]
    exact hpark

theorem tends_advance (h : chain.Tended w.nodes root node) :
    w.Tends root (w.advance node chain baked) := by
  rcases w.advance_cases node chain baked with ⟨-, heq⟩ | ⟨-, heq⟩
  · rw [heq]
    exact (Calm.refl w).tends fun task htask => (by cases htask)
  · rw [heq]
    refine (Calm.refl w).tends fun task htask => ?_
    rw [List.mem_singleton.mp htask]
    exact h

/-- **A dispatch calls the handler in the plant that the new node is in.** -/
theorem Orderly.tends_search (h : w.Orderly (.search node chain baked :: rest) works)
    (htended : chain.Tended w.nodes root node) : w.Tends root (w.search node chain baked) := by
  have hnothing : w.Tends root (w, []) := (Calm.refl w).tends fun task htask => (by cases htask)
  have hfinds := w.finds_search node chain baked
  generalize w.search node chain baked = next at hfinds ⊢
  cases hfinds with
  | last _ _ => exact hnothing
  | blank _ _ => exact hnothing
  | ended _ _ => exact hnothing
  | exhausted hcurrent _ _ =>
    obtain ⟨seed, hencloses, hfollows, hbundle⟩ := htended.current hcurrent
    refine (Calm.refl w).tends fun task htask => ?_
    rw [List.mem_singleton.mp htask]
    exact ⟨seed, hencloses, ⟨hfollows.registry, hfollows.rules, hfollows.bundle⟩, hbundle⟩
  | @found current symbol prototype s hcurrent hreading =>
    obtain ⟨seed, hencloses, hfollows, hbundle⟩ := htended.current hcurrent
    obtain ⟨p, hanchor, habove⟩ := hencloses.nearestAnchor h.scene
    rw [hfollows.registry] at hreading
    obtain ⟨-, -, -, -, -, hfind, -⟩ := Sentence.exists_of_readTo_eq_found hreading
    have hfits : w.nodes.Fits (prototype.draft symbol (w.nodes.nearestAnchor node) baked) :=
      (h.head_open node List.mem_cons_self).fits_nearestAnchor h.scene rfl
    have hmade : w.Calm (w.make (prototype.draft symbol (w.nodes.nearestAnchor node) baked)) :=
      Calm.of_eq rfl rfl
    rw [World.dispatch_eq hfollows.bundle.tidy]
    refine hmade.tends fun task htask => ?_
    rw [List.mem_singleton.mp htask]
    exact ⟨seed, p, _, prototype, Arena.get?_addNode_self hfits, hanchor,
      habove.mono (Arena.extends_addNode hfits), hbundle.succeeds (hfollows.bundle.dispatch s).1,
      hfind, rfl⟩

/-! ### Calls -/

/-- The tasks of an effect, and the one that parks what is left for later. -/
theorem tended_allTasks {a : Arena} {effect : Effect Empty}
    (htasks : ∀ task ∈ effect.tasks, task.Tended a root)
    (hwork : ∀ work, effect.continuation = some work → work.Tended a root) :
    ∀ task ∈ effect.allTasks, task.Tended a root := by
  intro task htask
  unfold Effect.allTasks at htask
  split at htask
  next work heq =>
    rcases List.mem_append.mp htask with hmem | hmem
    · exact htasks task hmem
    · rw [List.mem_singleton.mp hmem]
      exact hwork work heq
  next => exact htasks task htask

theorem tends_handsOn {s : Sentence} {gone : Bool} {effect : Effect Empty}
    (hencloses : effect.world.nodes.Encloses root seed node) (hbundle : bundle.WellFormed seed)
    (h : effect.HandsOn seed s gone w node bundle baked) :
    w.Tends root (effect.world, effect.allTasks) := by
  obtain ⟨hquiet, ⟨later, hsucceeds, hnone, htasks⟩ | ⟨-, htasks, work, hwork, hkeeps⟩⟩ := h
  · refine hquiet.calm.tends (tended_allTasks (fun task htask => ?_) fun work hwork => ?_)
    · rw [htasks] at htask
      unfold Task.passing at htask
      rcases List.mem_cons.mp htask with rfl | htask
      · exact ⟨seed, hencloses, Seed.follows_core hsucceeds.follows s, hbundle.succeeds hsucceeds⟩
      · split at htask
        · rw [List.mem_singleton.mp htask]
          trivial
        · cases htask
    · rw [hnone] at hwork
      cases hwork
  · refine hquiet.calm.tends (tended_allTasks (fun task htask => ?_) fun other hother => ?_)
    · rw [htasks] at htask
      cases htask
    · obtain rfl : work = other := Option.some.inj (hwork.symm.trans hother)
      have hchain : Chain.Tended effect.world.nodes root node { core := seed.core s, bundle } :=
        ⟨seed, hencloses, Seed.follows_core hbundle.toFollows s, hbundle⟩
      intro id chain hid hfound
      obtain rfl := Option.some.inj (hkeeps.chain?_eq.symm.trans hfound)
      cases hkeeps with
      | wait hnode _ =>
        obtain rfl : node = id := hnode.symm.trans (Option.some.inj hid)
        exact hchain
      | leaf hnode _ =>
        obtain rfl : node = id := hnode.symm.trans (Option.some.inj hid)
        exact hchain

theorem tends_fork {s : Sentence} {closing opening : Char} (hencloses : w.nodes.Encloses root seed node)
    (hbundle : bundle.WellFormed seed) (hs : bundle.find? Key.sentence = some (.sentence s))
    (hopening : (w.nodes.get? node).map (·.symbol) = some opening) :
    w.Tends root ((w.fork closing node bundle).world, (w.fork closing node bundle).allTasks) := by
  rw [World.fork_eq hbundle.toFollows hs closing hopening]
  rcases s.takeBranch opening closing with ⟨interior | interior, residue⟩
  · exact ⟨fun task htask => (by cases htask), fun work hwork => Or.inl hwork⟩
  · refine (Calm.refl w).tends (tended_allTasks (fun task htask => ?_) fun work hwork => (by cases hwork))
    simp only [List.mem_cons, List.not_mem_nil, or_false] at htask
    rcases htask with rfl | rfl | rfl
    · exact ⟨seed, hencloses, Seed.follows_core hbundle.toFollows residue, hbundle⟩
    · exact ⟨seed, hencloses, Seed.follows_core hbundle.toFollows interior, hbundle⟩
    · trivial

/-- The tasks that let a branch grow. -/
theorem tended_course {a : Arena} {growth : Elongation Empty} (hencloses : a.Encloses root seed node)
    (hnode : growth.node = node) (hwork : growth.work = some chain) (hfollows : chain.Follows seed)
    (hbundle : chain.bundle.WellFormed seed) :
    ∀ task ∈ growth.course baked, task.Tended a root := by
  have hgrowth : (Continuation.branch growth).Tended a root := by
    intro id other hid hother
    obtain rfl : node = id := hnode.symm.trans (Option.some.inj hid)
    obtain rfl : chain = other := Option.some.inj (hwork.symm.trans hother)
    exact ⟨seed, hencloses, hfollows, hbundle⟩
  intro task htask
  rcases List.mem_cons.mp htask with rfl | htask
  · trivial
  · rw [List.mem_singleton.mp htask]
    cases baked with
    | true => exact hgrowth
    | false => exact hgrowth

/-- **A branch calls the handler at its tip in its own plant.** -/
theorem Orderly.tends_branch {s : Sentence} {shape : BranchShape}
    (h : w.Orderly (.call (.branch shape) node bundle baked :: rest) works)
    (hencloses : w.nodes.Encloses root seed node) (hbundle : bundle.WellFormed seed)
    (hs : bundle.find? Key.sentence = some (.sentence s))
    (hext : w.nodes.Extends (w.branch shape node bundle baked).world.nodes) :
    w.Tends root ((w.branch shape node bundle baked).world,
      (w.branch shape node bundle baked).allTasks) := by
  obtain ⟨state, hserves, -⟩ := h.call _ _ _ _ _ rfl
  obtain ⟨heading, hheading⟩ := hbundle.heading
  replace hencloses := hencloses.mono hext
  have hcore := hbundle.toFollows.core_eq hs
  rcases World.branch_eq hcore (Bundle.vec3?_of_find? hheading) shape hserves.get? baked
    with hnothing | ⟨placed, grow, rfl, hgrow, hcases⟩
  · rw [hnothing]
    exact (Calm.refl w).tends fun task htask => (by cases htask)
  have hcourse (tip : Option NodeId) : ∀ task ∈ (grow tip).course baked, task.Tended _ root :=
    tended_course hencloses (hgrow tip).1 (hgrow tip).2.1
      (Seed.follows_core hbundle.toFollows s) hbundle
  rcases hcases with ⟨-, hworld, htasks⟩ | ⟨symbol, -, hworld, htasks⟩
  · rw [hworld] at hcourse
    rw [hworld, htasks]
    exact ⟨hcourse none, fun work hwork => Or.inl hwork⟩
  rw [htasks]
  cases hfind : seed.registry.find? symbol with
  | none =>
    rw [World.attachTip_of_none hfind] at hworld ⊢
    rw [hworld] at hcourse ⊢
    exact ⟨hcourse none, fun work hwork => Or.inl hwork⟩
  | some prototype =>
    rw [World.attachTip_of_some hfind] at hworld ⊢
    rw [hworld] at hcourse hencloses ⊢
    refine ⟨fun task htask => ?_, fun work hwork => Or.inl hwork⟩
    rcases List.mem_append.mp htask with htip | hmem
    · rw [List.mem_singleton.mp htip]
      exact ⟨seed, node, _, prototype, Arena.get?_kill (Arena.get?_addNode_self
        (h.fits_tip _ prototype symbol)), rfl, hencloses, hbundle, hfind, rfl⟩
    · exact hcourse _ task hmem

/-- A seed starts a chain of its own plant. -/
theorem tends_seed {planted : Seed Empty} (hplanned : Law.planned.grows planted)
    (hencloses : (w.perform (.call (.seed planted) node bundle baked)).1.nodes.Encloses root planted node)
    (tidy : bundle.Tidy) : w.Tends root (w.perform (.call (.seed planted) node bundle baked)) := by
  have hstarts := Handler.starts_call planted w node bundle baked
  refine hstarts.calm.tends (tended_allTasks (fun task htask => ?_) fun work hwork => ?_)
  · rcases hstarts.tasks task htask with ⟨position, rfl⟩ | ⟨prefab, rfl⟩
    · exact ⟨planted, hencloses, Seed.follows_chain tidy, Seed.wellFormed_chain hplanned tidy position⟩
    · trivial
  · cases hstarts.continuation.symm.trans hwork

/-- **A call leaves what belongs to the plant of its node.** -/
theorem Orderly.tends_call {handler : Handler Empty} (hroot : Law.planned.grows root)
    (h : w.Orderly (.call handler node bundle baked :: rest) works)
    (htended : handler.Tended w.nodes root node bundle)
    (hext : w.nodes.Extends (w.perform (.call handler node bundle baked)).1.nodes) :
    w.Tends root (w.perform (.call handler node bundle baked)) := by
  obtain ⟨seed, p, state, prototype, hnode, hprevious, habove, hbundle, hfind, rfl⟩ := htended
  obtain ⟨s, hs⟩ := hbundle.sentence
  have hstays (hother : ∀ inner, prototype.handler ≠ .seed inner) : w.nodes.Encloses root seed node :=
    .next hnode hprevious habove (Seed.entered?_of_ne hfind hother) fun _ => rfl
  generalize hhandler : prototype.handler = handler at *
  rcases handler.handsOn_or with
    ⟨gone, hgone⟩ | ⟨closing, rfl⟩ | ⟨shape, rfl⟩ | ⟨planted, rfl⟩
  · have hencloses := (hstays fun inner hseed => by rw [hseed] at hgone; cases hgone).mono hext
    exact tends_handsOn hencloses hbundle
      (Handler.handsOn_call hgone hbundle.toFollows hs (Arena.contains_of_get? hnode) baked)
  · have hencloses := hstays fun inner hseed => (by cases hseed)
    exact tends_fork hencloses hbundle hs (congrArg (Option.map (·.symbol)) hnode)
  · have hencloses := hstays fun inner hseed => (by cases hseed)
    exact h.tends_branch hencloses hbundle hs hext
  · obtain ⟨state', hserves, -⟩ := h.call _ _ _ _ _ rfl
    obtain rfl := Option.some.inj (hnode.symm.trans hserves.get?)
    have hentered := Seed.entered?_of_seed hfind hhandler
    refine tends_seed (Seed.planned_of_entered? hentered (habove.planned hroot))
      (Arena.Encloses.mono ?_ hext) hbundle.tidy
    exact .next hnode hprevious habove hentered fun hethereal =>
      (by cases hserves.ethereal.symm.trans hethereal)

/-- **Doing a task leaves what belongs to its plant.** -/
theorem Orderly.tends_perform (hroot : Law.planned.grows root) (h : w.Orderly (task :: rest) works)
    (htended : task.Tended w.nodes root) (hext : w.nodes.Extends (w.perform task).1.nodes) :
    w.Tends root (w.perform task) := by
  cases task with
  | advance predecessor chain baked => exact tends_advance htended
  | search predecessor chain baked => exact h.tends_search htended
  | call handler node bundle baked => exact h.tends_call hroot htended hext
  | carryOn node chain => exact tends_carryOn htended
  | destroy node => exact ⟨fun task htask => (by cases htask), fun work hwork => Or.inl hwork⟩
  | park work => exact tends_park htended
  | carryTip growth => exact (growth.quiet_carryTip w).calm.tends fun task htask => (by cases htask)
  | ripen growth =>
    refine (growth.quiet_ripen w).calm.tends fun task htask => ?_
    obtain ⟨chain, later, hwork, hleads, rfl⟩ := growth.exists_of_mem_ripen w htask
    exact (Chain.Tended.leads (htended growth.node chain rfl hwork) hleads).mono hext
  | publish prefab => exact (calm_publish w prefab).tends fun task htask => (by cases htask)

end World

/-! ## The whole course -/

namespace Garden

/-- All chains that wait or are on their way, and the bundles of all calls but that of the root's
handler, belong to their plants. -/
structure Tended (root : Seed Empty) (w : World Empty) (tasks : List (Task Empty))
    (waiting : List (Continuation Empty)) : Prop where
  ordered : Ordered w tasks waiting
  rooted : w.nodes.Encloses root root 0
  tasks : ∀ task ∈ tasks, task.Tended w.nodes root ∨ ∃ baked, task = .call (.seed root) 0 .empty baked
  works : ∀ work ∈ waiting ++ w.parked.toList, work.Tended w.nodes root

section

variable {plan : PlantPlan} {root : Seed Empty}

/-- **Every step of growth keeps to the plants.** -/
theorem tended_invariant (hroot : Law.planned.grows root) : Invariant (Tended root) where
  perform := by
    intro w task rest waiting h
    have hreaches := h.ordered.orderly.perform h.ordered.governs.tasks.1 h.ordered.governs.tasks.2
    have hext := hreaches.1.extended
    have htends : w.Tends root (w.perform task) := by
      rcases h.tasks task List.mem_cons_self with htended | ⟨baked, rfl⟩
      · exact h.ordered.orderly.tends_perform hroot htended hext
      · exact World.tends_seed hroot (h.rooted.mono hext) Bundle.tidy_empty
    refine ⟨orderly_invariant.perform h.ordered, h.rooted.mono hext, fun other hother => ?_,
      fun work hwork => ?_⟩
    · rcases List.mem_append.mp hother with hnew | hold
      · exact Or.inl (htends.tasks other hnew)
      · exact (h.tasks other (List.mem_cons_of_mem _ hold)).imp_left fun htended => htended.mono hext
    · rcases List.mem_append.mp hwork with hwaits | hparked
      · exact (h.works work (List.mem_append_left _ hwaits)).mono hext
      · rcases htends.parked work hparked with hold | hnew
        · exact (h.works work (List.mem_append_right _ hold)).mono hext
        · exact hnew
  resume := by
    intro w work waiting h
    have hredraws := work.redraws_resume w
    have hext := (hredraws.advances h.ordered.orderly.scene
      (h.ordered.orderly.work_open work List.mem_cons_self)).extended
    have hwork := h.works work List.mem_cons_self
    have hothers : ∀ other ∈ waiting ++ (work.resume w).world.parked.toList,
        other.Tended (work.resume w).world.nodes root := by
      rw [hredraws.parked]
      exact fun other hother => (h.works other (List.mem_cons_of_mem _ hother)).mono hext
    refine ⟨orderly_invariant.resume h.ordered, h.rooted.mono hext, fun task htask => Or.inl ?_, ?_⟩
    · rcases work.exists_of_mem_resume w htask with
        ⟨node, rfl⟩ | ⟨node, chain, later, hnode, hchain, hleads, ⟨baked, rfl⟩ | rfl⟩
      · trivial
      · exact ((hwork node chain hnode hchain).leads hleads).mono hext
      · exact ((hwork node chain hnode hchain).leads hleads).mono hext
    · split
      · refine List.forall_mem_cons.mpr ⟨fun id chain hid hchain => ?_, hothers⟩
        rw [work.anchor?_resume w] at hid
        exact (hwork id chain hid (work.chain?_of_resume w hchain)).mono hext
      · exact hothers
  reorder := fun hperm h => ⟨orderly_invariant.reorder hperm h.ordered, h.rooted, h.tasks,
    fun work hwork => h.works work ((hperm.append_right _).mem_iff.mpr hwork)⟩
  unpark := by
    intro w waiting h
    refine ⟨orderly_invariant.unpark h.ordered, h.rooted, h.tasks, ?_⟩
    show ∀ work ∈ waiting ++ w.parked.toList ++ [], _
    rw [List.append_nil]
    exact h.works
  elapse := fun seconds h => ⟨orderly_invariant.elapse seconds h.ordered, h.rooted, h.tasks, h.works⟩

theorem tended_seedbed (hroot : plan.seed = .ok root) (settings : Settings) :
    Tended root (seedbed plan settings) [rootTask plan root] [] where
  ordered := ordered_seedbed hroot settings
  rooted := by
    have hnode := get?_seedbed plan settings 0
    rw [if_pos rfl] at hnode
    exact .root hnode rfl rfl
  tasks := fun task htask => Or.inr ⟨_, List.mem_singleton.mp htask⟩
  works := fun work hwork => (by cases hwork)

end

end Garden
end PlantGrowth
