import PlantGrowth.Proofs.Ethereal

/-!
# Prototypes stay

What is baked under an identifier is grown once. From the moment on at which its prototype is ready,
the prototype is out of the scene, dead and hidden, and neither the tree nor any field of its nodes
changes again (`Garden.prototypes_stay`).

Moments are ordered by `Moment.Leads`, which joins a moment to all that come after it. The steps are
those of `Garden.Invariant`, so it covers the gardens that are reached and all stages in between.
-/

namespace PlantGrowth

/-! ## Sealed trees -/

/-- The tree hangs from nothing, and all of it is dead and hidden. -/
structure Arena.IsSealed (a : Arena) (root : NodeId) : Prop where
  up : ∃ state, a.get? root = some state ∧ state.parent = none
  node : ∀ id ∈ a.subtree root, ∃ node, a.get? id = some node ∧ node.dead = true ∧ node.hidden = true

theorem Arena.IsPrototype.isSealed {a : Arena} {root : NodeId} (h : a.IsPrototype root)
    (scene : a.Scene) : a.IsSealed root := by
  obtain ⟨state, hroot, hhidden, hparent, -⟩ := h
  refine ⟨⟨state, hroot, hparent⟩, fun id hid => ?_⟩
  obtain ⟨node, hnode, -⟩ := present_iff.mp (scene.forest.present_of_mem_subtree hid)
  have hbelow := (scene.hidden_of_mem_subtree hroot hid hnode).1.trans hhidden
  exact ⟨node, hnode, (scene.sealed hnode hbelow).1, hbelow⟩

theorem Arena.IsPrototype.isPresent {a : Arena} {root : NodeId} (h : a.IsPrototype root) :
    a.present root = true := by
  obtain ⟨state, hroot, -, -, hpresent⟩ := h
  exact present_iff.mpr ⟨state, hroot, hpresent⟩

/-- **A prototype stays as it is.** -/
theorem Arena.IsPrototype.sameTree {a b : Arena} {root : NodeId} (h : a.IsPrototype root)
    (scene : a.Scene) (later : b.Scene) (hext : a.Extends b) :
    a.SameTree b root ∧ ∀ id ∈ a.subtree root, b.get? id = a.get? id := by
  obtain ⟨state, hroot, hhidden, -⟩ := id h
  exact scene.sameTree_of_hidden later.forest hext hroot hhidden h.isPresent

/-! ## Moments -/

namespace Garden

/-- A stage of growth, with the continuations that wait. -/
structure Moment where
  world : World Empty
  tasks : List (Task Empty)
  waiting : List (Continuation Empty)

/-- The moment between two ticks. -/
def moment (garden : Garden) : Moment := ⟨garden.world, [], garden.scheduler.queue⟩

namespace Moment

/-- The moment at which a plan is planted. -/
def start (plan : PlantPlan) (seed : Seed Empty) (settings : Settings) : Moment :=
  ⟨seedbed plan settings, [rootTask plan seed], []⟩

/-- The moment after the next task was done. -/
def next : Moment → Moment
  | ⟨w, [], waiting⟩ => ⟨w, [], waiting⟩
  | ⟨w, task :: rest, waiting⟩ => ⟨(w.perform task).1, (w.perform task).2 ++ rest, waiting⟩

/-- The moment after so many tasks were done. -/
def after (m : Moment) : Nat → Moment
  | 0 => m
  | count + 1 => (m.after count).next

/-- The moments that can follow a moment. -/
inductive Leads (m : Moment) : Moment → Prop where
  | refl : m.Leads m
  | perform {w : World Empty} {task : Task Empty} {rest : List (Task Empty)}
      {waiting : List (Continuation Empty)} (before : m.Leads ⟨w, task :: rest, waiting⟩) :
      m.Leads ⟨(w.perform task).1, (w.perform task).2 ++ rest, waiting⟩
  | resume {w : World Empty} {work : Continuation Empty} {waiting : List (Continuation Empty)}
      (before : m.Leads ⟨w, [], work :: waiting⟩) :
      m.Leads ⟨(work.resume w).world, (work.resume w).tasks,
        if (work.resume w).step = .pending then (work.resume w).continuation :: waiting else waiting⟩
  | reorder {w : World Empty} {tasks : List (Task Empty)} {waiting other : List (Continuation Empty)}
      (h : waiting.Perm other) (before : m.Leads ⟨w, tasks, waiting⟩) : m.Leads ⟨w, tasks, other⟩
  | unpark {w : World Empty} {waiting : List (Continuation Empty)} (before : m.Leads ⟨w, [], waiting⟩) :
      m.Leads ⟨w.unpark.2, [], waiting ++ w.unpark.1⟩
  | elapse {w : World Empty} {waiting : List (Continuation Empty)} (seconds : Float)
      (before : m.Leads ⟨w, [], waiting⟩) : m.Leads ⟨w.elapse seconds, [], waiting⟩

/-- Whether a moment follows is itself kept by every step. -/
theorem invariant_leads (m : Moment) :
    Invariant fun w tasks waiting => m.Leads ⟨w, tasks, waiting⟩ where
  perform := .perform
  resume := .resume
  reorder := .reorder
  unpark := .unpark
  elapse := .elapse

variable {m mid later : Moment}

theorem Leads.next (h : m.Leads mid) : m.Leads mid.next := by
  obtain ⟨w, tasks, waiting⟩ := mid
  cases tasks with
  | nil => exact h
  | cons task rest => exact h.perform

theorem Leads.after (h : m.Leads mid) (count : Nat) : m.Leads (mid.after count) := by
  induction count with
  | zero => exact h
  | succ count ih => exact ih.next

theorem Leads.trans (h : m.Leads mid) (h' : mid.Leads later) : m.Leads later := by
  induction h' with
  | refl => exact h
  | perform _ ih => exact ih.perform
  | resume _ ih => exact ih.resume
  | reorder hperm _ ih => exact ih.reorder hperm
  | unpark _ ih => exact ih.unpark
  | elapse seconds _ ih => exact ih.elapse seconds

/-- **What was there is there at every later moment**, and growth is orderly then. -/
theorem Leads.keeps (h : m.Leads later) (hm : Ordered m.world m.tasks m.waiting) :
    Ordered later.world later.tasks later.waiting ∧ m.world.Keeps later.world := by
  induction h with
  | refl => exact ⟨hm, World.Keeps.refl _⟩
  | perform _ ih =>
    obtain ⟨hordered, hkeeps⟩ := ih
    have hreaches := hordered.orderly.perform hordered.governs.tasks.1 hordered.governs.tasks.2
    exact ⟨orderly_invariant.perform hordered, hkeeps.trans hreaches.1⟩
  | @resume w work waiting _ ih =>
    obtain ⟨hordered, hkeeps⟩ := ih
    have hredraws := work.redraws_resume w
    have hadvances := hredraws.advances hordered.orderly.scene
      (hordered.orderly.work_open work List.mem_cons_self)
    refine ⟨orderly_invariant.resume hordered, hkeeps.trans ?_⟩
    exact World.Keeps.of_find? hadvances.extended fun identifier => by rw [hredraws.prefabs]
  | reorder hperm _ ih => exact ⟨orderly_invariant.reorder hperm ih.1, ih.2⟩
  | unpark _ ih =>
    exact ⟨orderly_invariant.unpark ih.1, ih.2.trans (World.Keeps.of_find? (Arena.Extends.refl _)
      fun _ => rfl)⟩
  | elapse seconds _ ih =>
    exact ⟨orderly_invariant.elapse seconds ih.1, ih.2.trans (World.Keeps.of_find?
      (Arena.Extends.refl _) fun _ => rfl)⟩

/-- A baked seed is about to act, at a live node with an identifier. -/
structure Bakes (m : Moment) (task : Task Empty) (rest : List (Task Empty)) (node : NodeId)
    (identifier : String) : Prop where
  tasks : m.tasks = task :: rest
  call : ∃ planted bundle, task = .call (.seed planted) node bundle true
  node : ∃ state, m.world.nodes.get? node = some state ∧ state.dead = false ∧
    state.prefab = some identifier

/-- The node and the identifier of the baked seed that is about to act, if there is one. -/
def baking? (m : Moment) : Option (NodeId × String) :=
  match m.tasks with
  | .call (.seed _) node _ true :: _ =>
    match m.world.nodes.get? node with
    | some state => if state.dead then none else state.prefab.map (node, ·)
    | none => none
  | _ => none

/-- What a moment bakes can be computed. -/
theorem exists_bakes_of_baking? {node : NodeId} {identifier : String}
    (h : m.baking? = some (node, identifier)) : ∃ task rest, m.Bakes task rest node identifier := by
  unfold baking? at h
  split at h
  next planted id bundle rest htasks =>
    split at h
    next state hstate =>
      split at h
      · cases h
      next hlive =>
        obtain ⟨prefab, hprefab, heq⟩ := Option.map_eq_some_iff.mp h
        obtain ⟨rfl, rfl⟩ := Prod.mk.inj heq
        exact ⟨_, rest, htasks, ⟨planted, bundle, rfl⟩, state, hstate, Bool.eq_false_iff.mpr hlive,
          hprefab⟩
    · cases h
  · cases h

/-- A baked seed is about to grow the prototype of an identifier, for which there is no entry. -/
def Generates (m : Moment) (identifier : String) : Prop :=
  (∃ task rest node, m.Bakes task rest node identifier) ∧
    m.world.prefabs.find? identifier = none

section

variable {task : Task Empty} {rest : List (Task Empty)} {node : NodeId} {identifier : String}
  {entry : PrefabState}

/-- **A seed that finds an entry starts nothing**, neither where there is a prototype nor within the
growth of the prototype itself. -/
theorem Bakes.tasks_of_met (h : m.Bakes task rest node identifier)
    (hmet : m.world.prefabs.find? identifier = some entry) : m.next.tasks = rest := by
  obtain ⟨htasks, ⟨planted, bundle, rfl⟩, state, hstate, hlive, hprefab⟩ := h
  obtain ⟨w, tasks, waiting⟩ := m
  obtain rfl : tasks = _ := htasks
  show (w.seedBaked planted node bundle).2.allTasks ++ rest = rest
  have hbakes := planted.bakes_seedBaked hstate bundle
  generalize (w.seedBaked planted node bundle).2 = effect at hbakes ⊢
  cases hbakes with
  | dead hdead => exact absurd (hdead.symm.trans hlive) (by decide)
  | unshared _ hnone => cases hnone.symm.trans hprefab
  | within _ _ _ _ => rfl
  | hit _ _ _ _ => rfl
  | miss _ hother hmiss =>
    obtain rfl := Option.some.inj (hother.symm.trans hprefab)
    cases hmiss.symm.trans hmet

/-- **The seeds that generate are those that put tasks in the place of their own.** -/
theorem Bakes.generates_iff (h : m.Bakes task rest node identifier) :
    m.Generates identifier ↔ m.next.tasks ≠ rest := by
  constructor
  · rintro ⟨-, hmiss⟩
    obtain ⟨htasks, ⟨planted, bundle, rfl⟩, state, hstate, hlive, hprefab⟩ := h
    obtain ⟨w, tasks, waiting⟩ := m
    obtain rfl : tasks = _ := htasks
    obtain ⟨later, prefab, -, -, -, -, heffect⟩ :=
      (planted.bakes_seedBaked hstate bundle).of_none hlive hprefab hmiss
    show (w.seedBaked planted node bundle).2.allTasks ++ rest ≠ rest
    rw [heffect]
    intro heq
    exact List.append_ne_nil_of_right_ne_nil _ (List.cons_ne_nil _ _) (List.append_left_eq_self.mp heq)
  · intro hstarts
    refine ⟨⟨task, rest, node, h⟩, Option.eq_none_iff_forall_ne_some.mpr fun entry hmet => ?_⟩
    exact hstarts (h.tasks_of_met hmet)

end

/-- **A seed that misses leaves an entry.** -/
theorem Generates.met {identifier : String} (h : m.Generates identifier) :
    m.next.world.prefabs.find? identifier ≠ none := by
  obtain ⟨⟨task, rest, node, htasks, ⟨planted, bundle, rfl⟩, state, hstate, hlive, hprefab⟩, hmiss⟩ := h
  obtain ⟨w, tasks, waiting⟩ := m
  obtain rfl : tasks = _ := htasks
  obtain ⟨later, prefab, -, -, -, hclaimed, heffect⟩ :=
    (planted.bakes_seedBaked hstate bundle).of_none hlive hprefab hmiss
  show (w.seedBaked planted node bundle).2.world.prefabs.find? identifier ≠ none
  rw [heffect, hclaimed]
  exact nofun

end Moment

/-- An invariant that holds at a moment holds at all that follow. -/
theorem Invariant.of_leads {I : World Empty → List (Task Empty) → List (Continuation Empty) → Prop}
    {m later : Moment} (hI : Invariant I) (h : m.Leads later)
    (hm : I m.world m.tasks m.waiting) : I later.world later.tasks later.waiting := by
  induction h with
  | refl => exact hm
  | perform _ ih => exact hI.perform ih
  | resume _ ih => exact hI.resume ih
  | reorder hperm _ ih => exact hI.reorder hperm ih
  | unpark _ ih => exact hI.unpark ih
  | elapse seconds _ ih => exact hI.elapse seconds ih

section

variable {plan : PlantPlan} {seed : Seed Empty} {settings : Settings} {m : Moment}

theorem start_leads_start {other : Seed Empty} (h : plan.seed = .ok seed)
    (h' : plan.seed = .ok other) :
    (Moment.start plan seed settings).Leads (Moment.start plan other settings) := by
  obtain rfl : seed = other := Except.ok.inj (h.symm.trans h')
  exact .refl

/-- Every garden that is reached is a moment of the plan's course. -/
theorem Reached.leads {garden : Garden} (h : Reached plan settings garden)
    (hseed : plan.seed = .ok seed) : (Moment.start plan seed settings).Leads garden.moment :=
  (Moment.invariant_leads _).of_reached (fun _ hother => start_leads_start hseed hother) h

/-- Every stage of planting and ticking belongs to a moment of the plan's course. -/
theorem Underway.leads {w : World Empty} {tasks : List (Task Empty)}
    (h : Underway plan settings w tasks) (hseed : plan.seed = .ok seed) :
    ∃ waiting, (Moment.start plan seed settings).Leads ⟨w, tasks, waiting⟩ :=
  (Moment.invariant_leads _).of_underway (fun _ hother => start_leads_start hseed hother) h

/-- Doing tasks goes from stage to stage. -/
theorem Underway.after (h : Underway plan settings m.world m.tasks) (count : Nat) :
    Underway plan settings (m.after count).world (m.after count).tasks := by
  induction count with
  | zero => exact h
  | succ count ih =>
    show Underway plan settings (m.after count).next.world (m.after count).next.tasks
    generalize m.after count = mid at ih
    obtain ⟨w, tasks, waiting⟩ := mid
    cases tasks with
    | nil => exact ih
    | cons task rest => exact ih.performing

/-- A tick leads from one garden to the next. -/
theorem leads_of_tick {limit : Nat} {garden later : Garden} {report : TickSummary}
    (h : Simulation.tick limit garden = some (report, later)) : garden.moment.Leads later.moment :=
  (Moment.invariant_leads _).of_tick h .refl

/-- Growth is orderly at every moment. -/
theorem Moment.Leads.ordered (h : (Moment.start plan seed settings).Leads m)
    (hseed : plan.seed = .ok seed) : Ordered m.world m.tasks m.waiting :=
  (h.keeps (ordered_seedbed hseed settings)).1

/-- **Prototypes are grown once and stay as they are**, whatever the plan and the settings are. No
identifier is claimed when a garden is not being planted or ticked. -/
theorem prototypes_stay (hseed : plan.seed = .ok seed) (settings : Settings) :
    (∀ garden, Reached plan settings garden →
      (Moment.start plan seed settings).Leads garden.moment ∧
        (∀ limit report (later : Garden), Simulation.tick limit garden = some (report, later) →
          garden.moment.Leads later.moment) ∧
        ∀ identifier, garden.world.prefabs.find? identifier ≠ some .claimed) ∧
    (∀ w tasks, Underway plan settings w tasks →
      ∃ waiting, (Moment.start plan seed settings).Leads ⟨w, tasks, waiting⟩) ∧
    ∀ m, (Moment.start plan seed settings).Leads m →
      (∀ identifier, m.Generates identifier → ∀ later, m.next.Leads later →
        ¬ later.Generates identifier) ∧
      ∀ identifier root, m.world.prefabs.find? identifier = some (.ready root) →
        m.world.nodes.IsSealed root ∧ ∀ later, m.Leads later →
          later.world.prefabs.find? identifier = some (.ready root) ∧
          later.world.nodes.subtree root = m.world.nodes.subtree root ∧
          ∀ id ∈ m.world.nodes.subtree root,
            later.world.nodes.get? id = m.world.nodes.get? id := by
  refine ⟨fun garden hreached => ⟨hreached.leads hseed, fun _ _ _ => leads_of_tick,
    fun identifier hclaimed => ?_⟩, fun w tasks hunderway => hunderway.leads hseed, fun m hm => ?_⟩
  · cases (hreached.orderly.claimed identifier).mp hclaimed
  have hordered := hm.ordered hseed
  refine ⟨fun identifier hgenerates later hlater hagain => ?_, fun identifier root hready => ?_⟩
  · exact (hlater.keeps (hm.next.ordered hseed)).2.met identifier hgenerates.met hagain.2
  · have hprototype := hordered.orderly.ready identifier root hready
    refine ⟨hprototype.isSealed hordered.orderly.scene, fun later hlater => ?_⟩
    obtain ⟨hafter, hkeeps⟩ := hlater.keeps hordered
    obtain ⟨htree, hnodes⟩ := hprototype.sameTree hordered.orderly.scene hafter.orderly.scene
      hkeeps.extended
    exact ⟨hkeeps.ready identifier root hready, htree.subtree, hnodes⟩

end

/-- A baked plant of one leaf, shared under an identifier. -/
def sharedShoot : PlantPlan where
  traits := { start := "L", baked := true, prefab := some "shoot" }
  handlers := ⟨[('L', .leaf none {})]⟩

/-- A baked plant with two of these, one of them in a fork. -/
def hedge : PlantPlan where
  traits := { start := "[S]S", baked := true }
  handlers := ⟨[('S', .seed sharedShoot), ('[', .fork ']')]⟩

/-- The first shoot misses. When the second one bakes there is a prototype, of two nodes, which starts
nothing and stays as it is. -/
theorem hedge_stays : ∃ seed : Seed Empty, hedge.seed = .ok seed ∧ ∃ first second,
    (Moment.start hedge seed {}).Leads first ∧ first.Generates "shoot" ∧ first.next.Leads second ∧
    (∃ task rest node, second.Bakes task rest node "shoot" ∧ second.next.tasks = rest) ∧
    ¬ second.Generates "shoot" ∧ second.world.prefabs.find? "shoot" = some (.ready 2) ∧
    second.world.nodes.IsSealed 2 ∧ second.world.nodes.subtree 2 = [2, 3] ∧
    ∀ later, second.Leads later → later.world.nodes.subtree 2 = [2, 3] ∧
      ∀ id ∈ [2, 3], later.world.nodes.get? id = second.world.nodes.get? id := by
  obtain ⟨seed, first, second, hseed, hfirst, hsecond, hmiss, hnone, hhit, hready, htree⟩ :
      ∃ (seed : Seed Empty) (first second : Moment), hedge.seed = .ok seed ∧
        first = (Moment.start hedge seed {}).after 8 ∧ second = first.next.after 11 ∧
        first.baking? = some (2, "shoot") ∧ first.world.prefabs.find? "shoot" = none ∧
        second.baking? = some (6, "shoot") ∧
        second.world.prefabs.find? "shoot" = some (.ready 2) ∧
        second.world.nodes.subtree 2 = [2, 3] :=
    ⟨_, _, _, rfl, rfl, rfl, by decide +kernel, by decide +kernel, by decide +kernel,
      by decide +kernel, by decide +kernel⟩
  have hleads : (Moment.start hedge seed {}).Leads first := hfirst ▸ Moment.Leads.refl.after 8
  have hthen : first.next.Leads second := hsecond ▸ Moment.Leads.refl.after 11
  obtain ⟨task, rest, hbakes⟩ := Moment.exists_bakes_of_baking? hmiss
  obtain ⟨task', rest', hagain⟩ := Moment.exists_bakes_of_baking? hhit
  have hgenerates : first.Generates "shoot" := ⟨⟨task, rest, 2, hbakes⟩, hnone⟩
  obtain ⟨-, -, hall⟩ := prototypes_stay hseed {}
  have honce := (hall _ hleads).1 "shoot" hgenerates _ hthen
  obtain ⟨hsealed, hstays⟩ := (hall _ (hleads.next.trans hthen)).2 "shoot" 2 hready
  rw [htree] at hstays
  have hstarts : second.next.tasks = rest' := hagain.tasks_of_met hready
  exact ⟨seed, hseed, first, second, hleads, hgenerates, hthen, ⟨task', rest', 6, hagain, hstarts⟩,
    honce, hready, hsealed, htree, fun later hlater => (hstays later hlater).2⟩

end Garden
end PlantGrowth
