import PlantGrowth.Proofs.Changes
import PlantGrowth.Proofs.Instances

/-!
# How many nodes there are

A node is there for good. It keeps its symbol, where it came from and how it was marked when it was
made, and once it is dead, gone or hidden it is so forever. Nodes come in three ways only: the root is
planted, one node is made for each handler that is dispatched, and copies of prototypes are appended.
So at every moment the number of nodes is one more than that of dispatches and copied nodes together
(`Garden.census`).

What was copied is read off the tasks that were done. `World.copied` says how many nodes a task is
about to copy, from the subtree that it finds and not from what becomes of the arena, and
`Moment.Passes` keeps the tasks that were done on the way from one moment to another.
-/

namespace PlantGrowth

/-! ## What a step adds -/

/-- So many handlers were dispatched, a node was made for each of them, and so many nodes were
copied. -/
structure World.Counts (w : World Empty) (made copied : Nat) (later : World Empty) : Prop where
  size : later.nodes.size = w.nodes.size + made + copied
  dispatched : later.dispatched = w.dispatched + made

namespace World.Counts

variable {w mid later : World Empty} {made more copied others : Nat}

theorem refl (w : World Empty) : w.Counts 0 0 w := ⟨rfl, rfl⟩

theorem trans (h : w.Counts made copied mid) (h' : mid.Counts more others later) :
    w.Counts (made + more) (copied + others) later := by
  refine ⟨?_, ?_⟩
  · rw [h'.size, h.size]
    omega
  · rw [h'.dispatched, h.dispatched, Nat.add_assoc]

/-- What is redrawn only is not counted. -/
theorem of_quiet (h : w.Quiet later) : w.Counts 0 0 later where
  size := by rw [← Arena.length_marks, h.marks, Arena.length_marks, Nat.add_zero]
  dispatched := h.dispatched

theorem destroy (w : World Empty) (node : NodeId) : w.Counts 0 0 (w.destroy node) :=
  ⟨Arena.size_modify _ _ _, rfl⟩

/-- **One node is made for a handler that is dispatched.** -/
theorem make (w : World Empty) (draft : NodeDraft) : w.Counts 1 0 (w.make draft) :=
  ⟨Arena.size_addNode _ _, rfl⟩

theorem emerge (w : World Empty) (variation : Variation) (id : NodeId) :
    w.Counts 0 0 (w.emerge variation id) := by
  rcases w.emerge_cases variation id with heq | ⟨-, scaling, state, -, -, -, heq⟩
  · rw [heq]
    exact refl w
  · rw [heq]
    exact ⟨Arena.size_modify _ _ _, rfl⟩

end World.Counts

/-! ## Copies -/

namespace World

/-- The prototype that a baked seed finds: the one of its node's identifier, if the node is alive. -/
def prototypeAt? (w : World Empty) (node : NodeId) : Option NodeId :=
  match w.nodes.get? node with
  | some state => if state.dead then none else state.prefab.bind w.prefabs.prototype?
  | none => none

/-- The number of nodes that a task copies: all of the prototype that a baked seed finds, and all of
the structure that is published. -/
def copied (w : World Empty) : Task Empty → Nat
  | .call (.seed _) node _ true =>
    match w.prototypeAt? node with
    | some root => (w.nodes.subtree root).length
    | none => 0
  | .publish prefab => (w.nodes.subtree prefab.node).length
  | _ => 0

variable {w : World Empty} {node root : NodeId} {state : Node} {identifier : String}

theorem prototypeAt?_of_dead (h : w.nodes.get? node = some state) (hdead : state.dead = true) :
    w.prototypeAt? node = none := by
  simp only [prototypeAt?, h, hdead, if_true]

theorem prototypeAt?_of_unshared (h : w.nodes.get? node = some state)
    (hprefab : state.prefab = none) : w.prototypeAt? node = none := by
  simp only [prototypeAt?, h, hprefab, Option.bind_none, ite_self]

theorem prototypeAt?_of_live (h : w.nodes.get? node = some state) (hlive : state.dead = false)
    (hprefab : state.prefab = some identifier) :
    w.prototypeAt? node = w.prefabs.prototype? identifier := by
  simp only [prototypeAt?, h, hlive, Bool.false_eq_true, if_false, hprefab, Option.bind_some]

/-- Only seeds copy when they are called. -/
theorem copied_of_handsOn {handler : Handler Empty} {gone : Bool}
    (h : handler.handsOn? = some gone) (w : World Empty) (node : NodeId) (bundle : Bundle Empty)
    (baked : Bool) : w.copied (.call handler node bundle baked) = 0 := by
  cases handler with
  | seed planted => cases h
  | _ => rfl

/-- **A baked seed dispatches nothing itself.** -/
theorem dispatched_seedBaked (w : World Empty) (planted : Seed Empty) (node : NodeId)
    (bundle : Bundle Empty) :
    (w.seedBaked planted node bundle).2.world.dispatched = w.dispatched := by
  unfold seedBaked
  split
  · rfl
  · split
    · rfl
    · split
      · rfl
      · dsimp only
        split
        · unfold placeInstance
          split
          · rfl
          · exact (Counts.emerge _ _ _).dispatched
        · rfl
        · rfl

end World

/-- **Publishing copies all of the structure.** -/
theorem Arena.Ripe.size_published {a : Arena} {root : NodeId} {state : Node} (h : a.Ripe root state)
    (placement : Transform) (name copyName : String) :
    (a.published root state.previous placement name copyName).size =
      a.size + (a.subtree root).length := by
  obtain ⟨later, hmoved, -⟩ := h.moveToOrigin
  have htree := h.scene.sameTree_moveToOrigin h.get? h.isPresent h.shown
  simp only [published, finishCopy, freeze, rename, size_modify, size_modifyAll, size_hang]
  rw [size_copySubtree hmoved.scene.forest hmoved.isPresent, size_moveToOrigin, htree.subtree]

namespace World.Orderly

variable {w : World Empty} {rest : List (Task Empty)} {works : List (Continuation Empty)}
  {node : NodeId} {baked : Bool} {planted : Seed Empty} {bundle : Bundle Empty} {task : Task Empty}
  {chain : Chain Empty}

theorem counts_publish {prefab : Prefab} (h : w.Orderly (.publish prefab :: rest) works) :
    w.Counts 0 (w.copied (.publish prefab)) (w.publish prefab) := by
  obtain ⟨state, hripe, hanchor⟩ := h.ripe
  have hclaimed : w.prefabs.find? prefab.identifier = some .claimed :=
    (h.claimed _).mpr (List.mem_filterMap.mpr ⟨_, List.mem_cons_self, rfl⟩)
  have hregistered : w.Counts 0 (w.nodes.subtree prefab.node).length (w.registered prefab) := by
    refine ⟨?_, rfl⟩
    rw [nodes_registered, hanchor, hripe.size_published]
    rfl
  rw [publish_eq hripe hanchor hclaimed]
  exact hregistered.trans (.emerge _ _ _)

/-- **A baked seed copies the prototype that it finds**, and nothing if it finds none. -/
theorem counts_seedBaked (h : w.Orderly (.call (.seed planted) node bundle true :: rest) works) :
    w.Counts 0 (w.copied (.call (.seed planted) node bundle true))
      (w.seedBaked planted node bundle).2.world := by
  obtain ⟨state, hserves, -⟩ := h.call _ _ _ _ _ rfl
  have hstate := hserves.get?
  have hbakes := planted.bakes_seedBaked hstate bundle
  have hdispatched := w.dispatched_seedBaked planted node bundle
  generalize (w.seedBaked planted node bundle).2 = effect at hbakes hdispatched
  have hnone (hfind : w.prototypeAt? node = none) (hnodes : effect.world.nodes = w.nodes) :
      w.Counts 0 (w.copied (.call (.seed planted) node bundle true)) effect.world := by
    simp only [copied, hfind]
    exact ⟨congrArg Arena.size hnodes, hdispatched⟩
  cases hbakes with
  | dead hdead => exact hnone (prototypeAt?_of_dead hstate hdead) rfl
  | unshared _ hprefab => exact hnone (prototypeAt?_of_unshared hstate hprefab) rfl
  | within hlive hprefab hfind hsame =>
    refine hnone ?_ hsame.nodes
    rw [prototypeAt?_of_live hstate hlive hprefab, PrefabStore.prototype?, hfind]
  | @hit identifier root placement later hlive hprefab hfind hsame =>
    have hfits := h.fits_instance hstate
    have hprototype := h.ready identifier root hfind
    have scene := h.scene
    rw [← hsame.nodes] at hprototype hfits scene
    obtain ⟨instanced, hcopied, -, heq⟩ := exists_placeInstance scene hprototype hfits identifier
      placement planted.traits.variation
    have hsize := hcopied.size
    rw [hsame.nodes] at hsize
    simp only [copied, prototypeAt?_of_live hstate hlive hprefab, PrefabStore.prototype?, hfind]
    refine ⟨?_, hdispatched⟩
    rw [heq, (Counts.emerge _ _ _).size]
    exact hsize
  | miss hlive hprefab hfind _ _ hnodes _ _ =>
    refine hnone ?_ hnodes
    rw [prototypeAt?_of_live hstate hlive hprefab, PrefabStore.prototype?, hfind]

theorem counts_seed (h : w.Orderly (.call (.seed planted) node bundle baked :: rest) works) :
    w.Counts 0 (w.copied (.call (.seed planted) node bundle baked))
      (w.perform (.call (.seed planted) node bundle baked)).1 := by
  cases baked with
  | true => exact h.counts_seedBaked
  | false =>
    show w.Counts 0 0 (w.seedLive planted node bundle).2.world
    unfold seedLive
    split
    · exact Counts.refl w
    · exact Counts.refl w

/-! ## One task -/

theorem counts_search (hobeys : chain.Obeys Law.planned) (w : World Empty) (node : NodeId)
    (baked : Bool) : ∃ made, w.Counts made 0 (w.search node chain baked).1 := by
  have hfinds := w.finds_search node chain baked
  generalize w.search node chain baked = next at hfinds ⊢
  cases hfinds with
  | found hcurrent hreading =>
    obtain ⟨-, -, -, -, -, heq⟩ :=
      Law.sound_planned.dispatch_of_found hobeys hcurrent hreading node baked
    rw [heq]
    exact ⟨1, .make w _⟩
  | _ => exact ⟨0, .refl w⟩

theorem counts_branch {seed : Seed Empty} {s : Sentence} {shape : BranchShape} {state : Node}
    (hfollows : bundle.Follows seed) (hs : bundle.find? Key.sentence = some (.sentence s))
    (hnode : w.nodes.get? node = some state) (baked : Bool) :
    ∃ made, w.Counts made 0 (w.branch shape node bundle baked).world := by
  obtain ⟨heading, hheading⟩ := hfollows.heading
  rcases World.branch_eq (hfollows.core_eq hs) (Bundle.vec3?_of_find? hheading) shape hnode baked with
    hnothing | ⟨placed, grow, rfl, -, ⟨-, hworld, -⟩ | ⟨symbol, -, hworld, -⟩⟩
  · rw [hnothing]
    exact ⟨0, .refl w⟩
  · rw [hworld]
    exact ⟨0, .of_quiet (Quiet.place w node _)⟩
  have hplaced := Counts.of_quiet (Quiet.place w node (·.face heading))
  rw [hworld]
  cases hfind : seed.registry.find? symbol with
  | none =>
    rw [World.attachTip_of_none hfind]
    exact ⟨0, ⟨hplaced.size, hplaced.dispatched⟩⟩
  | some prototype =>
    rw [World.attachTip_of_some hfind]
    refine ⟨1, ?_, congrArg (· + 1) hplaced.dispatched⟩
    show (((w.mapNodes (·.place node (·.face heading))).nodes.addNode _).2.kill _).size = _
    rw [Arena.kill, Arena.size_modify, Arena.size_addNode, hplaced.size]

/-- **A task makes one node for each handler that it dispatches, and copies what `copied` says.** -/
theorem counts_perform (h : w.Orderly (task :: rest) works) (hheads : Law.planned.Heads w task) :
    ∃ made, w.Counts made (w.copied task) (w.perform task).1 := by
  rcases hheads with hobeys | ⟨handler, node, bundle, baked, rfl, hcalls⟩
  · cases task with
    | advance node chain baked =>
      refine ⟨0, ?_⟩
      show w.Counts 0 0 (w.advance node chain baked).1
      rw [World.fst_advance]
      exact .refl w
    | search node chain baked => exact counts_search hobeys w node baked
    | call handler node bundle baked => exact hobeys.elim
    | carryOn node chain =>
      refine ⟨0, ?_⟩
      show w.Counts 0 0 (w.carryOn node chain).1
      rcases w.carryOn_cases node chain with ⟨heq, -⟩ | ⟨heq, -⟩
      · rw [heq]
        exact .refl w
      · rw [heq]
        exact ⟨rfl, rfl⟩
    | destroy node => exact ⟨0, .destroy w node⟩
    | park work => exact ⟨0, rfl, rfl⟩
    | carryTip growth => exact ⟨0, .of_quiet (growth.quiet_carryTip w)⟩
    | ripen growth => exact ⟨0, .of_quiet (growth.quiet_ripen w)⟩
    | publish prefab => exact ⟨0, h.counts_publish⟩
  · cases hcalls with
    | root _ _ => exact ⟨0, h.counts_seed⟩
    | @bound seed symbol prototype s state _ hfollows hs _ _ hnode _ =>
      generalize prototype.handler = handler at h
      rcases handler.handsOn_or with
        ⟨gone, hgone⟩ | ⟨closing, rfl⟩ | ⟨shape, rfl⟩ | ⟨planted, rfl⟩
      · have hhands := handler.handsOn_call hgone hfollows hs (Arena.contains_of_get? hnode) baked
        refine ⟨0, ?_⟩
        rw [World.copied_of_handsOn hgone]
        exact .of_quiet hhands.1
      · refine ⟨0, ?_⟩
        show w.Counts 0 0 (w.fork closing node bundle).world
        rw [World.fork_eq hfollows hs closing (congrArg (Option.map (·.symbol)) hnode)]
        split
        · exact .refl w
        · exact ⟨Arena.size_modify _ _ _, rfl⟩
      · exact counts_branch hfollows hs hnode baked
      · exact ⟨0, h.counts_seed⟩

end World.Orderly

/-! ## Courses and what was done in them -/

namespace Garden

/-- The nodes that tasks copied, each in the world that it was done in. -/
def copies (done : List (World Empty × Task Empty)) : Nat :=
  (done.map fun step => step.1.copied step.2).sum

theorem copies_append (done : List (World Empty × Task Empty)) (w : World Empty)
    (task : Task Empty) : copies (done ++ [(w, task)]) = copies done + w.copied task := by
  rw [copies, List.map_append, List.sum_append, List.map_singleton, List.sum_singleton, copies]

namespace Moment

/-- The moments that can follow a moment, with the tasks that are done on the way and the worlds that
they are done in. -/
inductive Passes (m : Moment) : List (World Empty × Task Empty) → Moment → Prop where
  | refl : m.Passes [] m
  | perform {done : List (World Empty × Task Empty)} {w : World Empty} {task : Task Empty}
      {rest : List (Task Empty)} {waiting : List (Continuation Empty)}
      (before : m.Passes done ⟨w, task :: rest, waiting⟩) :
      m.Passes (done ++ [(w, task)]) ⟨(w.perform task).1, (w.perform task).2 ++ rest, waiting⟩
  | resume {done : List (World Empty × Task Empty)} {w : World Empty} {work : Continuation Empty}
      {waiting : List (Continuation Empty)} (before : m.Passes done ⟨w, [], work :: waiting⟩) :
      m.Passes done ⟨(work.resume w).world, (work.resume w).tasks,
        if (work.resume w).step = .pending then (work.resume w).continuation :: waiting else waiting⟩
  | reorder {done : List (World Empty × Task Empty)} {w : World Empty} {tasks : List (Task Empty)}
      {waiting other : List (Continuation Empty)} (h : waiting.Perm other)
      (before : m.Passes done ⟨w, tasks, waiting⟩) : m.Passes done ⟨w, tasks, other⟩
  | unpark {done : List (World Empty × Task Empty)} {w : World Empty}
      {waiting : List (Continuation Empty)} (before : m.Passes done ⟨w, [], waiting⟩) :
      m.Passes done ⟨w.unpark.2, [], waiting ++ w.unpark.1⟩
  | elapse {done : List (World Empty × Task Empty)} {w : World Empty}
      {waiting : List (Continuation Empty)} (seconds : Float)
      (before : m.Passes done ⟨w, [], waiting⟩) : m.Passes done ⟨w.elapse seconds, [], waiting⟩

variable {m later : Moment} {done : List (World Empty × Task Empty)}

theorem Passes.leads (h : m.Passes done later) : m.Leads later := by
  induction h with
  | refl => exact .refl
  | perform _ ih => exact ih.perform
  | resume _ ih => exact ih.resume
  | reorder hperm _ ih => exact ih.reorder hperm
  | unpark _ ih => exact ih.unpark
  | elapse seconds _ ih => exact ih.elapse seconds

theorem Leads.exists_passes (h : m.Leads later) : ∃ done, m.Passes done later := by
  induction h with
  | refl => exact ⟨[], .refl⟩
  | perform _ ih =>
    obtain ⟨done, hdone⟩ := ih
    exact ⟨_, hdone.perform⟩
  | resume _ ih =>
    obtain ⟨done, hdone⟩ := ih
    exact ⟨done, hdone.resume⟩
  | reorder hperm _ ih =>
    obtain ⟨done, hdone⟩ := ih
    exact ⟨done, hdone.reorder hperm⟩
  | unpark _ ih =>
    obtain ⟨done, hdone⟩ := ih
    exact ⟨done, hdone.unpark⟩
  | elapse seconds _ ih =>
    obtain ⟨done, hdone⟩ := ih
    exact ⟨done, hdone.elapse seconds⟩

/-- **The nodes that a course adds** are those of the handlers dispatched in it, and those copied. -/
theorem Passes.counts (h : m.Passes done later) (hm : Ordered m.world m.tasks m.waiting) :
    ∃ made, m.world.Counts made (copies done) later.world := by
  induction h with
  | refl => exact ⟨0, World.Counts.refl _⟩
  | @perform done w task rest waiting hbefore ih =>
    obtain ⟨made, hcounts⟩ := ih
    obtain ⟨hordered, -⟩ := hbefore.leads.keeps hm
    obtain ⟨more, hstep⟩ := hordered.orderly.counts_perform hordered.governs.tasks.1
    rw [copies_append]
    exact ⟨made + more, hcounts.trans hstep⟩
  | @resume done w work waiting _ ih =>
    obtain ⟨made, hcounts⟩ := ih
    exact ⟨made, hcounts.trans (.of_quiet (work.quiet_resume w))⟩
  | reorder _ _ ih => exact ih
  | unpark _ ih =>
    obtain ⟨made, hcounts⟩ := ih
    exact ⟨made, hcounts.size, hcounts.dispatched⟩
  | elapse seconds _ ih =>
    obtain ⟨made, hcounts⟩ := ih
    exact ⟨made, hcounts.size, hcounts.dispatched⟩

end Moment
end Garden

/-! ## Plants that share nothing -/

/-- Neither the plant nor any plant within it has an identifier. -/
inductive PlantPlan.Unshared : PlantPlan → Prop where
  | intro {plan : PlantPlan} (own : plan.traits.prefab = none)
      (within : ∀ symbol inner, plan.handlers.find? symbol = some (.seed inner) → Unshared inner) :
      Unshared plan

namespace PlantPlan.Unshared

variable {plan : PlantPlan}

theorem own (h : plan.Unshared) : plan.traits.prefab = none := by
  cases h with
  | intro hown _ => exact hown

theorem within {inner : PlantPlan} {symbol : Char} (h : plan.Unshared)
    (hfind : plan.handlers.find? symbol = some (.seed inner)) : inner.Unshared := by
  cases h with
  | intro _ hwithin => exact hwithin symbol inner hfind

/-- The nodes of plants have no identifiers. -/
theorem prefab_eq_none {seed planted : Seed Empty} {symbol : Char} {prototype : Prototype Empty}
    (h : plan.Unshared) (hok : plan.seed = .ok seed)
    (hfind : seed.registry.find? symbol = some prototype) (hhandler : prototype.handler = .seed planted) :
    prototype.prefab = none := by
  obtain ⟨handler, hbound, hmade⟩ := PlantPlan.exists_of_find? hok hfind
  have hmakes := HandlerPlan.makes_of_prototype hmade
  rw [hhandler] at hmakes
  cases hmakes with
  | @seed plant _ _ =>
    obtain ⟨inner, -, rfl⟩ := HandlerPlan.eq_of_prototype_seed hmade
    exact (h.within hbound).own

end PlantPlan.Unshared

/-- The plants in a garden share nothing. -/
def Law.unshared : Law := Law.upright (PlantPlan.Yields PlantPlan.Unshared)

theorem Law.sound_unshared : Law.unshared.Sound :=
  Law.sound_upright fun hgrows => hgrows.within PlantPlan.Unshared.within

/-- The task comes to no copy: a seed acts at a node that is dead or has no identifier, and nothing is
published. -/
def Task.Unshared (a : Arena) : Task Empty → Prop
  | .call (.seed _) node _ _ =>
    ∃ state, a.get? node = some state ∧ (state.dead = true ∨ state.prefab = none)
  | .publish _ => False
  | _ => True

section

variable {w : World Empty} {task : Task Empty} {node : NodeId} {bundle : Bundle Empty}
  {handler : Handler Empty} {chain : Chain Empty} {baked : Bool}

theorem Task.Routine.unshared (h : task.Routine) (a : Arena) : task.Unshared a := by
  cases h with
  | _ => trivial

/-- Only calls depend on the nodes that there are. -/
theorem Task.Unshared.of_obeys {law : Law} {a : Arena} (h : task.Unshared a)
    (hobeys : task.Obeys law) (b : Arena) : task.Unshared b := by
  cases task with
  | call handler node bundle baked => exact hobeys.elim
  | publish prefab => exact h
  | _ => trivial

theorem Task.unshared_call {a : Arena} {state : Node} (hnode : a.get? node = some state)
    (h : ∀ planted, handler = .seed planted → state.dead = true ∨ state.prefab = none) :
    (Task.call handler node bundle baked).Unshared a := by
  cases handler with
  | seed planted => exact ⟨state, hnode, h planted rfl⟩
  | _ => trivial

theorem World.copied_of_unshared (h : task.Unshared w.nodes) : w.copied task = 0 := by
  cases task with
  | call handler node bundle baked =>
    cases handler with
    | seed planted =>
      cases baked with
      | false => rfl
      | true =>
        obtain ⟨state, hstate, hdead | hprefab⟩ := h
        · simp only [copied, prototypeAt?_of_dead hstate hdead]
        · simp only [copied, prototypeAt?_of_unshared hstate hprefab]
    | _ => rfl
  | publish prefab => exact h.elim
  | _ => rfl

theorem World.unshared_search (hobeys : chain.Obeys Law.unshared) :
    ∀ other ∈ (w.search node chain baked).2, other.Unshared (w.search node chain baked).1.nodes := by
  have hfinds := w.finds_search node chain baked
  generalize w.search node chain baked = next at hfinds ⊢
  intro other hother
  cases hfinds with
  | last _ _ => cases hother
  | blank _ _ => cases hother
  | ended _ _ => cases hother
  | @found current symbol prototype s hcurrent hreading =>
    obtain ⟨seed, ⟨plan, hplan, hok⟩, -, hfind, -, heq⟩ :=
      Law.sound_unshared.dispatch_of_found hobeys hcurrent hreading node baked
    rw [heq] at hother ⊢
    obtain ⟨state, hstate, hmark⟩ := w.get?_make
      (prototype.draft symbol (w.nodes.nearestAnchor node) baked)
    have hprefab : state.prefab = prototype.prefab := congrArg Mark.prefab hmark
    rw [List.mem_singleton.mp hother]
    exact Task.unshared_call hstate fun planted hhandler =>
      Or.inr (hprefab.trans (hplan.prefab_eq_none hok hfind hhandler))
  | exhausted _ _ _ =>
    rw [List.mem_singleton.mp hother]
    trivial

/-- A seed without an identifier starts its chain, if it does anything. -/
theorem World.unshared_seed {planted : Seed Empty}
    (h : (Task.call (.seed planted) node bundle baked).Unshared w.nodes) :
    ∀ other ∈ (w.perform (.call (.seed planted) node bundle baked)).2, other.Routine := by
  obtain ⟨state, hstate, hfree⟩ := h
  cases baked with
  | false =>
    show ∀ other ∈ (w.seedLive planted node bundle).2.allTasks, other.Routine
    refine Effect.routine_allTasks ?_
    unfold seedLive
    split
    · exact fun other hother => (by cases hother)
    · exact planted.routine_startChain w node bundle
  | true =>
    show ∀ other ∈ (w.seedBaked planted node bundle).2.allTasks, other.Routine
    have hbakes := planted.bakes_seedBaked hstate bundle
    generalize (w.seedBaked planted node bundle).2 = effect at hbakes
    have habsurd {identifier : String} {P : Prop} (hlive : state.dead = false)
        (hsome : state.prefab = some identifier) : P := by
      rcases hfree with hdead | hnone
      · cases hlive.symm.trans hdead
      · cases hsome.symm.trans hnone
    cases hbakes with
    | dead _ => exact fun other hother => (by cases hother)
    | unshared _ _ => exact Effect.routine_allTasks (planted.routine_startChain w node bundle)
    | within hlive hsome _ _ => exact habsurd hlive hsome
    | hit hlive hsome _ _ => exact habsurd hlive hsome
    | miss hlive hsome _ _ _ _ _ _ => exact habsurd hlive hsome

theorem World.unshared_branch {seed : Seed Empty} {s : Sentence} (hfollows : bundle.Follows seed)
    (hs : bundle.find? Key.sentence = some (.sentence s)) (shape : BranchShape) (w : World Empty)
    (node : NodeId) (baked : Bool) :
    ∀ other ∈ (w.branch shape node bundle baked).allTasks,
      other.Unshared (w.branch shape node bundle baked).world.nodes := by
  intro other hother
  rcases Effect.mem_allTasks hother with htask | ⟨work, rfl⟩
  · rcases World.branch_cases_of_follows hfollows hs shape w node baked with
      ⟨-, hnothing⟩ | ⟨-, growth, tipTasks, hbranches⟩
    · rw [hnothing] at htask
      cases htask
    · rw [hbranches.tasks] at htask
      rcases List.mem_append.mp htask with htip | hcourse
      · cases hbranches.tip with
        | none _ => cases htip
        | call _ _ hnode _ hdead =>
          rw [List.mem_singleton.mp htip]
          exact Task.unshared_call hnode fun _ _ => Or.inl hdead
      · cases baked with
        | true =>
          simp only [if_true, List.mem_cons, List.not_mem_nil, or_false] at hcourse
          rcases hcourse with rfl | rfl
          · trivial
          · trivial
        | false =>
          simp only [Bool.false_eq_true, if_false, List.mem_singleton] at hcourse
          rw [hcourse]
          trivial
  · trivial

/-- **Where nothing is shared, a task comes to tasks that copy nothing.** -/
theorem World.unshared_perform (hheads : Law.unshared.Heads w task) (h : task.Unshared w.nodes) :
    ∀ other ∈ (w.perform task).2, other.Unshared (w.perform task).1.nodes := by
  have hroutine (hall : ∀ other ∈ (w.perform task).2, other.Routine) :
      ∀ other ∈ (w.perform task).2, other.Unshared (w.perform task).1.nodes :=
    fun other hother => (hall other hother).unshared _
  rcases hheads with hobeys | ⟨handler, node, bundle, baked, rfl, hcalls⟩
  · cases task with
    | advance node chain baked =>
      intro other hother
      rw [World.mem_advance hother]
      trivial
    | search node chain baked => exact unshared_search hobeys
    | call handler node bundle baked => exact hobeys.elim
    | carryOn node chain =>
      intro other hother
      rw [World.mem_carryOn hother]
      trivial
    | ripen growth =>
      refine hroutine fun other hother => ?_
      obtain ⟨chain, later, -, -, rfl⟩ := growth.exists_of_mem_ripen w hother
      exact .carryOn _ _
    | publish prefab => exact h.elim
    | _ => exact fun other hother => (by cases hother)
  · cases hcalls with
    | root _ _ => exact hroutine (unshared_seed h)
    | @bound seed symbol prototype s state _ hfollows hs _ _ hnode _ =>
      generalize prototype.handler = handler at h hroutine ⊢
      rcases handler.handsOn_or with
        ⟨gone, hgone⟩ | ⟨closing, rfl⟩ | ⟨shape, rfl⟩ | ⟨planted, rfl⟩
      · exact hroutine
          (handler.handsOn_call hgone hfollows hs (Arena.contains_of_get? hnode) baked).routine
      · exact hroutine (w.routine_fork closing node bundle)
      · exact unshared_branch hfollows hs shape w node baked
      · exact hroutine (unshared_seed h)

/-- The plants of the garden share nothing, and no task comes to a copy. -/
def World.Unshared (w : World Empty) (tasks : List (Task Empty))
    (waiting : List (Continuation Empty)) : Prop :=
  Law.unshared.Governs w tasks waiting ∧ ∀ task ∈ tasks, task.Unshared w.nodes

/-- **Gardens of plans that share nothing go on sharing nothing.** -/
theorem World.Unshared.invariant : Garden.Invariant World.Unshared where
  perform := by
    intro w task rest waiting h
    obtain ⟨hgoverns, hunshared⟩ := h
    refine ⟨Law.sound_unshared.invariant.perform hgoverns, fun other hother => ?_⟩
    rcases List.mem_append.mp hother with hmem | hmem
    · exact World.unshared_perform hgoverns.tasks.1 (hunshared task List.mem_cons_self) other hmem
    · exact (hunshared other (List.mem_cons_of_mem task hmem)).of_obeys
        (hgoverns.tasks.2 other hmem) _
  resume := by
    intro w work waiting h
    refine ⟨Law.sound_unshared.invariant.resume h.1, fun other hother => ?_⟩
    rcases work.exists_of_mem_resume w hother with
      ⟨node, rfl⟩ | ⟨node, chain, later, -, -, -, ⟨baked, rfl⟩ | rfl⟩
    · trivial
    · trivial
    · trivial
  reorder := fun hperm h => ⟨Law.sound_unshared.invariant.reorder hperm h.1, h.2⟩
  unpark := fun h => ⟨Law.sound_unshared.invariant.unpark h.1, h.2⟩
  elapse := fun seconds h => ⟨Law.sound_unshared.invariant.elapse seconds h.1, h.2⟩

end

/-! ## The census -/

namespace Garden

variable {plan : PlantPlan} {seed : Seed Empty} {settings : Settings} {m later : Moment}
  {done : List (World Empty × Task Empty)}

theorem unshared_seedbed (h : plan.Unshared) (hok : plan.seed = .ok seed) (settings : Settings) :
    (seedbed plan settings).Unshared [rootTask plan seed] [] := by
  refine ⟨Law.governs_seedbed ⟨plan, h, hok⟩, fun task htask => ?_⟩
  rw [List.mem_singleton.mp htask]
  exact Task.unshared_call (get?_seedbed plan settings 0) fun _ _ => Or.inr h.own

/-- Nothing is copied where nothing is shared. -/
theorem Moment.Passes.copies_eq_zero (h : m.Passes done later)
    (hm : m.world.Unshared m.tasks m.waiting) : copies done = 0 := by
  induction h with
  | refl => rfl
  | @perform done w task rest waiting hbefore ih =>
    obtain ⟨-, hunshared⟩ := World.Unshared.invariant.of_leads hbefore.leads hm
    rw [copies_append, ih, World.copied_of_unshared (hunshared task List.mem_cons_self)]
  | resume _ ih => exact ih
  | reorder _ _ ih => exact ih
  | unpark _ ih => exact ih
  | elapse _ _ ih => exact ih

theorem size_seedbed (plan : PlantPlan) (settings : Settings) :
    (seedbed plan settings).nodes.size = 1 := Arena.size_addNode _ _

/-- **One node for each dispatch and each copied node**, and the root. -/
theorem Moment.Passes.size (h : (Moment.start plan seed settings).Passes done m)
    (hseed : plan.seed = .ok seed) :
    m.world.nodes.size = 1 + m.world.dispatched + copies done := by
  obtain ⟨made, hcounts⟩ := h.counts (ordered_seedbed hseed settings)
  have hsize : m.world.nodes.size = (seedbed plan settings).nodes.size + made + copies done :=
    hcounts.size
  have hdispatched : m.world.dispatched = 0 + made := hcounts.dispatched
  rw [hsize, hdispatched, size_seedbed, Nat.zero_add]

/-- **The census of a garden.** Whatever the plan and the settings are, a node that exists at some
moment exists at all later ones, with the same symbol, the same previous node and the same marks, and
what is dead, gone or hidden stays so. At every moment there is one node more than handlers were
dispatched and nodes were copied on the way to it; so without identifiers on plants there is one more
than dispatches. The gardens that are reached are such moments, and ticks lead from one to the next. -/
theorem census (hseed : plan.seed = .ok seed) (settings : Settings) :
    (∀ garden, Reached plan settings garden →
      (Moment.start plan seed settings).Leads garden.moment ∧
        ∀ limit report (after : Garden), Simulation.tick limit garden = some (report, after) →
          garden.moment.Leads after.moment) ∧
    ∀ m, (Moment.start plan seed settings).Leads m →
      (∀ later, m.Leads later → ∀ id node, m.world.nodes.get? id = some node →
        ∃ after, later.world.nodes.get? id = some after ∧ node.Outlives after ∧
          (node.hidden = true → after.hidden = true)) ∧
      (∃ done, (Moment.start plan seed settings).Passes done m) ∧
      (∀ done, (Moment.start plan seed settings).Passes done m →
        m.world.nodes.size = 1 + m.world.dispatched + copies done) ∧
      (plan.Unshared → m.world.nodes.size = 1 + m.world.dispatched) := by
  refine ⟨fun garden hreached => ⟨hreached.leads hseed, fun _ _ _ => leads_of_tick⟩, fun m hm =>
    ⟨fun later hlater id node hnode => ?_, hm.exists_passes, fun done hdone => hdone.size hseed,
      fun hunshared => ?_⟩⟩
  · obtain ⟨-, hkeeps⟩ := hlater.keeps (hm.ordered hseed)
    obtain ⟨after, hafter, houtlives⟩ := hkeeps.extended hnode
    refine ⟨after, hafter, houtlives, fun hhidden => ?_⟩
    rw [houtlives.frozen hhidden]
    exact hhidden
  · obtain ⟨done, hdone⟩ := hm.exists_passes
    have hnone := hdone.copies_eq_zero (unshared_seedbed hunshared hseed settings)
    rw [hdone.size hseed, hnone]
    rfl

/-- The same plant without an identifier. -/
def loneShoot : PlantPlan := { sharedShoot with traits := { sharedShoot.traits with prefab := none } }

theorem unshared_loneShoot : loneShoot.Unshared := by
  refine .intro rfl fun symbol inner hfind => ?_
  cases congrArg Prod.snd (List.mem_singleton.mp (SymbolTable.mem_of_find? hfind))

/-- With and without an identifier, the shoot can be planted and is counted. -/
theorem shoots_counted : ∃ (seed lone : Seed Empty) (garden other : Garden),
    sharedShoot.seed = .ok seed ∧ loneShoot.seed = .ok lone ∧
    Reached sharedShoot {} garden ∧ Reached loneShoot {} other ∧
    (∃ done, (Moment.start sharedShoot seed {}).Passes done garden.moment ∧
      garden.world.nodes.size = 1 + garden.world.dispatched + copies done) ∧
    other.world.nodes.size = 1 + other.world.dispatched := by
  obtain ⟨seed, hseed⟩ : ∃ seed : Seed Empty, sharedShoot.seed = .ok seed := ⟨_, rfl⟩
  obtain ⟨lone, hlone⟩ : ∃ lone : Seed Empty, loneShoot.seed = .ok lone := ⟨_, rfl⟩
  obtain ⟨garden, hgarden⟩ := Option.isSome_iff_exists.mp
    (show (grown? sharedShoot {} 10 0).isSome = true by decide +kernel)
  obtain ⟨other, hother⟩ := Option.isSome_iff_exists.mp
    (show (grown? loneShoot {} 10 0).isSome = true by decide +kernel)
  have hreached : Reached sharedShoot {} garden := .of_grown? hgarden
  have hlast : Reached loneShoot {} other := .of_grown? hother
  obtain ⟨-, hall⟩ := census hseed {}
  obtain ⟨-, ⟨done, hdone⟩, hcount, -⟩ := hall garden.moment (hreached.leads hseed)
  obtain ⟨-, hlones⟩ := census hlone {}
  obtain ⟨-, -, -, hplain⟩ := hlones other.moment (hlast.leads hlone)
  exact ⟨seed, lone, garden, other, hseed, hlone, hreached, hlast, ⟨done, hdone, hcount done hdone⟩,
    hplain unshared_loneShoot⟩

end Garden
end PlantGrowth
