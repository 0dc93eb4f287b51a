import PlantGrowth.Proofs.Orderly
import PlantGrowth.Proofs.Plan

/-!
# The steps of orderly growth

Every task but the publishing of a prototype and the call of a seed that misses is an ordinary step,
and so is every continuation that is resumed. Hence growth is orderly from its planting on, whatever
the plan and the settings are (`Garden.orderly_invariant`).
-/

namespace PlantGrowth

/-! ## Planned handlers -/

/-- The law that all handlers come from plans. Nothing is said of sentences. -/
def Law.planned : Law where
  grows := PlantPlan.Yields fun _ => True
  reads _ _ := True
  acts _ _ _ := True

theorem Law.sound_planned : Law.planned.Sound where
  start := fun _ => trivial
  within := fun hgrows hfind hseed => hgrows.within (fun _ _ => trivial) hfind hseed
  renew := fun _ _ => trivial
  found := fun _ _ _ => trivial
  exhausted := fun _ _ _ => trivial
  handOn := fun _ _ _ _ => trivial
  fork := fun _ _ _ _ _ => ⟨trivial, trivial⟩
  tip := fun _ _ _ _ _ _ => trivial

/-- The prototype's nodes are ethereal if they are to be destroyed, and pauses are named so. -/
structure Prototype.Faithful (prototype : Prototype Empty) : Prop where
  ethereal : prototype.ethereal = prototype.handler.isEthereal
  name : ∀ minSeconds maxSeconds, prototype.handler = .pause minSeconds maxSeconds →
    prototype.name = "pause"

theorem HandlerPlan.faithful_of_prototype {plan : HandlerPlan} {symbol : Char}
    {prototype : Prototype Empty} (h : plan.prototype symbol = .ok prototype) :
    prototype.Faithful := by
  cases plan with
  | fork closing =>
    cases h
    exact ⟨rfl, fun _ _ heq => (by cases heq)⟩
  | pause minSeconds maxSeconds =>
    simp only [HandlerPlan.prototype] at h
    split at h
    · cases h
      exact ⟨rfl, fun _ _ _ => rfl⟩
    · cases h
  | turnRotation eulerMin eulerMax =>
    cases h
    exact ⟨rfl, fun _ _ heq => (by cases heq)⟩
  | turnHeading axis angleMin angleMax =>
    simp only [HandlerPlan.prototype] at h
    split at h
    · cases h
      exact ⟨rfl, fun _ _ heq => (by cases heq)⟩
    · cases h
  | move distanceMin distanceMax =>
    simp only [HandlerPlan.prototype] at h
    split at h
    · cases h
      exact ⟨rfl, fun _ _ heq => (by cases heq)⟩
    · cases h
  | branch shape =>
    cases h
    exact ⟨rfl, fun _ _ heq => (by cases heq)⟩
  | leaf prefab shape =>
    cases h
    exact ⟨rfl, fun _ _ heq => (by cases heq)⟩
  | seed plant =>
    simp only [HandlerPlan.prototype] at h
    split at h
    · cases h
      exact ⟨rfl, fun _ _ heq => (by cases heq)⟩
    · cases h

theorem Law.faithful_of_find? {seed : Seed Empty} {symbol : Char} {prototype : Prototype Empty}
    (h : Law.planned.grows seed) (hfind : seed.registry.find? symbol = some prototype) :
    prototype.Faithful := by
  obtain ⟨plan, -, hok⟩ := h
  obtain ⟨handler, -, hmade⟩ := PlantPlan.exists_of_find? hok hfind
  exact HandlerPlan.faithful_of_prototype hmade

/-! ## Ordinary steps -/

/-- The next stage, after an ordinary step of work that names and holds the given nodes. -/
def World.Moves (w : World Empty) (mentioned held : List NodeId) (baking : Prop)
    (next : World Empty × List (Task Empty)) : Prop :=
  ∃ new, next.1.parked.toList = w.parked.toList ++ new ∧
    w.Ordinary next.1 mentioned held baking next.2 new

/-- The next stage is orderly, with the tasks and continuations that were left, and nothing is lost. -/
def World.Reaches (w : World Empty) (next : World Empty × List (Task Empty)) (rest : List (Task Empty))
    (works : List (Continuation Empty)) : Prop :=
  w.Keeps next.1 ∧ ∃ new, next.1.parked.toList = w.parked.toList ++ new ∧
    next.1.Orderly (next.2 ++ rest) (new ++ works)

theorem Arena.lingers_addNode {a : Arena} {draft : NodeDraft} (h : a.Fits draft) (id : NodeId) :
    (a.addNode draft).2.lingers id = if id = a.size then draft.ethereal else a.lingers id := by
  by_cases hid : id = a.size
  · subst hid
    rw [if_pos rfl, lingers_of_get? (get?_addNode_self h)]
    simp [made]
  · rw [if_neg hid]
    unfold lingers
    rw [get?_addNode h.lt_size, if_neg hid]
    cases a.get? id with
    | none => rfl
    | some node => rfl

/-- Every node other than those that stay as they are lingers as before. -/
theorem Arena.Stays.lingers_eq {a b : Arena} (h : a.Stays b) (hspares : a.Spares b) (id : NodeId) :
    b.lingers id = a.lingers id := by
  refine h.extended.lingers_eq hspares (fun {_ later} hlarge hlater => ?_) id
  have hlt := lt_size_of_get? hlater
  rw [h.size] at hlt
  exact absurd hlt (Nat.not_lt_of_le hlarge)

/-! ### Tips -/

/-- A node that is dead from the beginning. -/
structure Arena.Tipped (a b : Arena) (draft : NodeDraft) : Prop extends Arena.Advances a b where
  get? : b.get? a.size = some { a.made draft with dead := true }
  opened : b.Open a.size
  lingers : ∀ id, b.lingers id = if id = a.size then draft.ethereal else a.lingers id

theorem Arena.Fits.tipped {a : Arena} {draft : NodeDraft} (h : a.Fits draft) (scene : a.Scene) :
    a.Tipped ((a.addNode draft).2.kill a.size) draft := by
  have hmade := get?_addNode_self h
  have hstays : (a.addNode draft).2.Stays ((a.addNode draft).2.kill a.size) := by
    refine stays_kill fun state hstate => ?_
    rw [← Option.some.inj (hmade.symm.trans hstate)]
    rfl
  have hspares : (a.addNode draft).2.Spares ((a.addNode draft).2.kill a.size) := by
    intro id before after hbefore hafter
    unfold kill at hafter
    rw [get?_modify] at hafter
    split at hafter
    · rw [hbefore, Option.map_some] at hafter
      rw [← Option.some.inj hafter]
    · rw [Option.some.inj (hbefore.symm.trans hafter)]
  have hkilled := hstays.advances (scene.addNode h)
  exact {
    toAdvances := (h.advances scene).trans hkilled
    get? := get?_kill hmade
    opened := (open_addNode h).advances (scene.addNode h) hkilled
    lingers := fun id => (hstays.lingers_eq hspares id).trans (lingers_addNode h id) }

/-! ### What a task may leave -/

/-- The task may come of work that names the given nodes: it names no others, and it neither claims an
identifier nor calls a handler. -/
structure Task.Suits (a : Arena) (ids : List NodeId) (baking : Prop) (task : Task Empty) : Prop where
  mentioned : task.mentioned ⊆ ids
  bakes : baking → task.Bakes a
  unclaimed : task.claimed? = none
  isCall : task.isCall = false
  named : task.Named a

namespace Task

variable {a : Arena} {ids : List NodeId} {baking : Prop} {node : NodeId} {chain : Chain Empty}
  {work : Continuation Empty}

theorem suits_carryOn (hids : (Task.carryOn node chain).mentioned ⊆ ids)
    (hbakes : baking → a.Bakes node) : (Task.carryOn node chain).Suits a ids baking :=
  ⟨hids, hbakes, rfl, rfl, trivial⟩

theorem suits_advance {baked : Bool} (hids : (Task.advance node chain baked).mentioned ⊆ ids)
    (hbakes : baking → baked = true) : (Task.advance node chain baked).Suits a ids baking :=
  ⟨hids, hbakes, rfl, rfl, trivial⟩

theorem suits_search {baked : Bool} (hids : (Task.search node chain baked).mentioned ⊆ ids)
    (hbakes : baking → baked = true) : (Task.search node chain baked).Suits a ids baking :=
  ⟨hids, hbakes, rfl, rfl, trivial⟩

theorem suits_destroy (h : node ∈ ids) : (Task.destroy node : Task Empty).Suits a ids baking :=
  ⟨List.cons_subset.mpr ⟨h, List.nil_subset _⟩, fun _ => trivial, rfl, rfl, trivial⟩

theorem suits_park (hids : work.mentioned ⊆ ids) (hlive : ¬ baking) (hnamed : work.Named a) :
    (Task.park work).Suits a ids baking :=
  ⟨hids, fun hbaking => absurd hbaking hlive, rfl, rfl, hnamed⟩

end Task

section

variable {w later : World Empty} {mentioned held : List NodeId} {baking : Prop}
  {tasks rest : List (Task Empty)} {works : List (Continuation Empty)}

/-- Only the nodes and the prefabs matter to a step. -/
theorem World.Ordinary.congr {other : World Empty} (h : w.Ordinary later mentioned held baking tasks works)
    (hnodes : other.nodes = later.nodes) (hprefabs : other.prefabs = later.prefabs) :
    w.Ordinary other mentioned held baking tasks works where
  toAdvances := hnodes ▸ h.toAdvances
  prefabs := hprefabs ▸ h.prefabs
  task_names := hnodes ▸ h.task_names
  work_names := hnodes ▸ h.work_names
  bakes := hnodes ▸ h.bakes
  parks := h.parks
  unclaimed := h.unclaimed
  call := hnodes ▸ h.call
  account := hnodes ▸ h.account
  task_named := hnodes ▸ h.task_named
  work_named := hnodes ▸ h.work_named

/-- A step that makes no node and calls no handler. -/
theorem World.Ordinary.of_advances (hnodes : w.nodes.Advances later.nodes)
    (hprefabs : ∀ identifier, later.prefabs.find? identifier = w.prefabs.find? identifier)
    (hsuits : ∀ task ∈ tasks, task.Suits w.nodes mentioned baking)
    (hworks : ∀ work ∈ works, work.mentioned ⊆ mentioned ∧ work.Named w.nodes)
    (hparks : baking → works = [])
    (haccount : ∀ id, (Task.holdings tasks works).count id + (w.nodes.lingers id).toNat =
      held.count id + (later.nodes.lingers id).toNat) :
    w.Ordinary later mentioned held baking tasks works where
  toAdvances := hnodes
  prefabs := hprefabs
  task_names := fun task htask _ hid => Or.inl ((hsuits task htask).mentioned hid)
  work_names := fun work hwork _ hid => Or.inl ((hworks work hwork).1 hid)
  bakes := fun hbaking task htask => ((hsuits task htask).bakes hbaking).mono hnodes.extended
  parks := fun hbaking _ => hparks hbaking
  unclaimed := fun task htask => (hsuits task htask).unclaimed
  call := fun _ _ _ _ _ heq => by cases (hsuits _ (heq ▸ List.mem_cons_self)).isCall
  account := haccount
  task_named := fun task htask => (hsuits task htask).named.mono hnodes.extended
  work_named := fun work hwork => (hworks work hwork).2.mono hnodes.extended

end

/-- What is redrawn is not hidden. -/
theorem World.Redraws.advances {ids : List NodeId} {w later : World Empty} (h : w.Redraws ids later)
    (scene : w.nodes.Scene) (hopen : ∀ id ∈ ids, w.nodes.Open id) :
    w.nodes.Advances later.nodes := by
  refine (h.stays fun id hid node hnode => ?_).advances scene
  obtain ⟨state, hstate, hshown, -⟩ := hopen id hid
  rwa [Option.some.inj (hnode.symm.trans hstate)]

/-! ## Branches -/

/-- What a branch sets off after its tip was attended to. -/
def Elongation.course (growth : Elongation Empty) (baked : Bool) : List (Task Empty) :=
  [.carryTip growth, if baked then .ripen growth else .park (.branch growth)]

/-- The tasks that let a branch grow hold no node. -/
theorem Elongation.suits_course {growth : Elongation Empty} {baked : Bool} {a : Arena}
    {ids : List NodeId} (hids : growth.mentioned ⊆ ids) (hbakes : baked = true → a.Bakes growth.node) :
    ∀ task ∈ growth.course baked, task.Suits a ids (baked = true) ∧ task.held = [] := by
  intro task htask
  rcases List.mem_cons.mp htask with rfl | htask
  · exact ⟨⟨hids, fun _ => trivial, rfl, rfl, trivial⟩, rfl⟩
  · rw [List.mem_singleton.mp htask]
    cases baked with
    | true => exact ⟨⟨hids, fun hbaked => hbakes hbaked, rfl, rfl, trivial⟩, rfl⟩
    | false => exact ⟨Task.suits_park hids Bool.false_ne_true trivial, rfl⟩

/-- What the node at the tip of a branch is made from. -/
def Prototype.tipDraft (prototype : Prototype Empty) (symbol : Char) (owner : NodeId) (baked : Bool) :
    NodeDraft :=
  { symbol, name := prototype.name, previous := some owner, ethereal := prototype.ethereal, baked,
    prefab := prototype.prefab }

namespace World

section

variable {w : World Empty} {node owner : NodeId} {bundle : Bundle Empty} {state : Node}

theorem attachTip_of_none {registry : Registry Empty} {symbol : Char}
    (h : registry.find? symbol = none) (baked : Bool) :
    w.attachTip owner registry symbol bundle baked = (none, w.warn (.unregisteredTip symbol owner), []) := by
  rw [attachTip, h]

theorem attachTip_of_some {registry : Registry Empty} {symbol : Char} {prototype : Prototype Empty}
    (h : registry.find? symbol = some prototype) (baked : Bool) :
    w.attachTip owner registry symbol bundle baked = (some w.nodes.size,
      { w with
        nodes := (w.nodes.addNode (prototype.tipDraft symbol owner baked)).2.kill w.nodes.size }.countDispatch,
      [.call prototype.handler w.nodes.size bundle baked]) := by
  rw [attachTip, h]
  rfl

/-- **A branch that grows turns its node to the heading**, has its tip attended to and runs its course. -/
theorem branch_eq {core : Core Empty} {heading : Vec3} (hcore : bundle.core = .ok core)
    (hheading : bundle.vec3? Key.heading = some heading) (shape : BranchShape)
    (hnode : w.nodes.get? node = some state) (baked : Bool) :
    w.branch shape node bundle baked = { world := w } ∨
      ∃ (placed : World Empty) (grow : Option NodeId → Elongation Empty),
        placed = w.mapNodes (·.place node (·.face heading)) ∧
        (∀ tip, (grow tip).node = node ∧ (grow tip).work = some { core, bundle } ∧
          (grow tip).mentioned ⊆ node :: (tip.toList ++ bundle.mentioned)) ∧
        ((shape.tipSymbol = none ∧ (w.branch shape node bundle baked).world = placed ∧
            (w.branch shape node bundle baked).allTasks = (grow none).course baked) ∨
          ∃ symbol, shape.tipSymbol = some symbol ∧ (w.branch shape node bundle baked).world =
              (placed.attachTip node core.registry symbol bundle baked).2.1 ∧
            (w.branch shape node bundle baked).allTasks =
              (placed.attachTip node core.registry symbol bundle baked).2.2 ++
                (grow (placed.attachTip node core.registry symbol bundle baked).1).course baked) := by
  rw [World.branch, World.coreOrWarn, hcore, hheading]
  dsimp only
  split
  · exact Or.inl rfl
  · rw [hnode]
    refine Or.inr ⟨w.mapNodes (·.place node (·.face heading)), fun tip =>
      { node, tip, shape, origin := state.transform.position, heading
        length := (bundle.float? Key.branchLength).getD shape.startLength
        radius := (bundle.float? Key.branchRadius).getD shape.startRadius
        speed := (bundle.float? Key.branchSpeed).getD shape.startSpeed
        faces := (bundle.float? Key.branchFaces).getD shape.startFaces
        bottomRadius := 0, callback := bundle.callback? Key.growLoop
        work := some { core, bundle } },
      rfl, fun tip => ⟨rfl, rfl, fun id hid => ?_⟩, ?_⟩
    · simp only [Elongation.mentioned, Chain.mentioned, Bundle.mentioned, Option.toList_some,
        List.flatMap_cons, List.flatMap_nil, List.append_nil, List.mem_cons, List.mem_append] at hid ⊢
      rcases hid with h | h | h | h
      · exact Or.inl h
      · exact Or.inr (Or.inl h)
      · exact Or.inr (Or.inr h)
      · exact Or.inr (Or.inr h)
    · cases hsymbol : shape.tipSymbol with
      | none =>
        refine Or.inl ⟨rfl, ?_⟩
        cases baked with
        | true => exact ⟨rfl, rfl⟩
        | false => exact ⟨rfl, rfl⟩
      | some symbol =>
        refine Or.inr ⟨symbol, rfl, ?_⟩
        cases baked with
        | true => exact ⟨rfl, rfl⟩
        | false =>
          refine ⟨rfl, ?_⟩
          exact List.append_assoc _ _ _

end

end World

/-! ## Stages -/

namespace World.Orderly

variable {w later : World Empty} {task : Task Empty} {tasks rest : List (Task Empty)}
  {works new : List (Continuation Empty)} {node : NodeId} {chain : Chain Empty} {baked : Bool}

/-- What the first task names is in the scene. -/
theorem head_open (h : w.Orderly (task :: rest) works) : ∀ id ∈ task.mentioned, w.nodes.Open id :=
  h.task_open task List.mem_cons_self

/-- What the first task holds is not gone. -/
theorem lingers_of_mem_held (h : w.Orderly (task :: rest) works) (hheld : node ∈ task.held) :
    w.nodes.lingers node = true := by
  have hcount := h.account node
  have hpos : 0 < (Task.holdings (task :: rest) works).count node := by
    refine List.count_pos_iff.mpr (List.mem_append_left _ (List.mem_flatMap.mpr ?_))
    exact ⟨task, List.mem_cons_self, hheld⟩
  cases hlingers : w.nodes.lingers node with
  | true => rfl
  | false =>
    rw [hcount, hlingers] at hpos
    exact absurd hpos (Nat.lt_irrefl 0)

/-- A node that is open is shown. -/
theorem shown_of_open {id : NodeId} {state : Node} (h : w.nodes.Open id)
    (hstate : w.nodes.get? id = some state) : state.hidden = false := by
  obtain ⟨state', hstate', hshown, -⟩ := h
  rwa [Option.some.inj (hstate.symm.trans hstate')]

/-- The next stage, after an ordinary step of the first task. -/
theorem of_moves (h : w.Orderly (task :: rest) works) (hclaimed : task.claimed? = none)
    (hcall : ∀ other ∈ rest, other.isCall = false)
    {next : World Empty × List (Task Empty)}
    (hmoves : w.Moves task.mentioned task.held (task.Bakes w.nodes) next) :
    w.Reaches next rest works := by
  obtain ⟨new, hparked, hordinary⟩ := hmoves
  have happend : w.Orderly ([task] ++ rest) ([] ++ works) := h
  refine ⟨hordinary.keeps, new, hparked, happend.ordinary hordinary h.head_open (fun id => ?_)
    (fun other hother => ?_) (fun prefab hprefab => ?_) hcall⟩
  · simp [Task.holdings]
  · rw [List.mem_singleton.mp hother]
    exact hclaimed
  · exact ((List.pairwise_cons.mp h.precedes).1 _ hprefab).bakes prefab rfl

/-- **Redrawing nodes that are named is an ordinary step.** -/
theorem moves_of_redraws (h : w.Orderly (task :: rest) works)
    (hredraws : w.Redraws task.mentioned later)
    (hsuits : ∀ other ∈ tasks, other.Suits w.nodes task.mentioned (task.Bakes w.nodes))
    (hheld : tasks.flatMap Task.held = task.held) :
    w.Moves task.mentioned task.held (task.Bakes w.nodes) (later, tasks) := by
  refine ⟨[], by rw [hredraws.parked, List.append_nil], Ordinary.of_advances
    (hredraws.advances h.scene h.head_open) (fun identifier => by rw [hredraws.prefabs]) hsuits
    (fun work hwork => (by cases hwork)) (fun _ => rfl) (fun id => ?_)⟩
  rw [Task.holdings, hheld, List.flatMap_nil, List.append_nil, hredraws.lingers_eq]

/-- A step that does nothing but to end the task. -/
theorem moves_nothing (h : w.Orderly (task :: rest) works) (hheld : task.held = [])
    (hredraws : w.Redraws task.mentioned later) :
    w.Moves task.mentioned task.held (task.Bakes w.nodes) (later, []) :=
  h.moves_of_redraws hredraws (fun other hother => (by cases hother)) hheld.symm

/-- A step that puts one task in the place of another one. -/
theorem moves_single {other : Task Empty} (h : w.Orderly (task :: rest) works)
    (hsuits : other.Suits w.nodes task.mentioned (task.Bakes w.nodes)) (hheld : other.held = task.held) :
    w.Moves task.mentioned task.held (task.Bakes w.nodes) (w, [other]) := by
  refine h.moves_of_redraws (Redraws.refl _ w) (fun single hsingle => ?_) ?_
  · rwa [List.mem_singleton.mp hsingle]
  · rw [List.flatMap_singleton, hheld]

/-- A step that parks a continuation which names the same nodes. -/
theorem moves_parking {work : Continuation Empty} (h : w.Orderly (task :: rest) works)
    (hmentioned : work.mentioned ⊆ task.mentioned) (hlive : ¬ task.Bakes w.nodes)
    (hheld : work.held = task.held) (hnamed : work.Named w.nodes) :
    w.Moves task.mentioned task.held (task.Bakes w.nodes) (w.park work, []) := by
  refine ⟨[work], Array.toList_push, Ordinary.of_advances ((Arena.Stays.refl _).advances h.scene)
    (fun _ => rfl) (fun other hother => (by cases hother)) (fun other hother => ?_)
    (fun hbakes => absurd hbakes hlive) (fun id => ?_)⟩
  · rw [List.mem_singleton.mp hother]
    exact ⟨hmentioned, hnamed⟩
  · simp [Task.holdings, hheld, World.park]

/-! ### Chains -/

theorem moves_advance (h : w.Orderly (.advance node chain baked :: rest) works) :
    w.Moves (Task.advance node chain baked).mentioned [] (baked = true)
      (w.advance node chain baked) := by
  rcases w.advance_cases node chain baked with ⟨-, heq⟩ | ⟨-, heq⟩
  · rw [heq]
    exact h.moves_nothing rfl (Redraws.of_eq rfl rfl rfl)
  · rw [heq]
    exact h.moves_single (Task.suits_search (List.Subset.refl _) id) rfl

theorem moves_carryOn (h : w.Orderly (.carryOn node chain :: rest) works) :
    w.Moves (Task.carryOn node chain).mentioned [] (w.nodes.Bakes node) (w.carryOn node chain) := by
  rcases w.carryOn_cases node chain with ⟨heq, -⟩ | ⟨heq, hlive⟩
  · rw [heq]
    exact h.moves_single (Task.suits_advance (List.Subset.refl _) fun _ => rfl) rfl
  · rw [heq]
    refine h.moves_parking (by simp [Continuation.mentioned, Task.mentioned]) (fun hbakes => ?_) rfl trivial
    obtain ⟨state, hstate, hbaked⟩ := hbakes
    cases hbaked.symm.trans (hlive state hstate)

/-- **Making a node for a handler is an ordinary step.** -/
theorem ordinary_make {mentioned : List NodeId} {baking : Prop} {draft : NodeDraft}
    {handler : Handler Empty} {bundle : Bundle Empty} (scene : w.nodes.Scene)
    (hfits : w.nodes.Fits draft) (hethereal : draft.ethereal = handler.isEthereal)
    (hname : ∀ minSeconds maxSeconds, handler = .pause minSeconds maxSeconds → draft.name = "pause")
    (hmentioned : bundle.mentioned ⊆ mentioned) (hbaking : baking → draft.baked = true) :
    w.Ordinary (w.make draft) mentioned [] baking
      [.call handler w.nodes.size bundle draft.baked] [] where
  toAdvances := hfits.advances scene
  prefabs := fun _ => rfl
  task_names := by
    intro task htask id hid
    rw [List.mem_singleton.mp htask] at hid
    rcases List.mem_cons.mp hid with rfl | hid
    · exact Or.inr ⟨Nat.le_refl _, Arena.open_addNode hfits⟩
    · exact Or.inl (hmentioned hid)
  work_names := fun work hwork => (by cases hwork)
  bakes := by
    intro hbakes task htask
    rw [List.mem_singleton.mp htask]
    exact hbaking hbakes
  parks := fun _ _ => rfl
  unclaimed := by
    intro task htask
    rw [List.mem_singleton.mp htask]
    rfl
  call := by
    intro handler' node bundle' baked others heq
    simp only [List.cons.injEq, Task.call.injEq] at heq
    obtain ⟨⟨rfl, rfl, rfl, rfl⟩, rfl⟩ := heq
    exact ⟨w.nodes.made draft, ⟨Arena.get?_addNode_self hfits, hethereal, rfl, hname⟩,
      Or.inr ⟨rfl, rfl, rfl⟩⟩
  account := by
    intro id
    have hlingers := Arena.lingers_addNode hfits id
    show _ = _ + ((w.nodes.addNode draft).2.lingers id).toNat
    rw [hlingers, hethereal]
    by_cases hid : id = w.nodes.size
    · rw [if_pos hid, Arena.lingers_eq_false (Nat.le_of_eq hid.symm), hid]
      cases hsolid : handler.isEthereal <;> simp [Task.holdings, Task.held, hsolid]
    · rw [if_neg hid]
      cases hsolid : handler.isEthereal <;>
        simp [Task.holdings, Task.held, hsolid, Ne.symm hid]
  task_named := by
    intro task htask
    rw [List.mem_singleton.mp htask]
    trivial
  work_named := fun work hwork => (by cases hwork)

theorem moves_search (h : w.Orderly (.search node chain baked :: rest) works)
    (hobeys : chain.Obeys Law.planned) :
    w.Moves (Task.search node chain baked).mentioned [] (baked = true)
      (w.search node chain baked) := by
  have hfinds := w.finds_search node chain baked
  generalize w.search node chain baked = next at hfinds ⊢
  cases hfinds with
  | last _ _ => exact h.moves_nothing rfl (Redraws.of_eq rfl rfl rfl)
  | blank _ _ => exact h.moves_nothing rfl (Redraws.of_eq rfl rfl rfl)
  | ended _ _ => exact h.moves_nothing rfl (Redraws.of_eq rfl rfl rfl)
  | @exhausted current s hcurrent _ _ =>
    have hmentioned : current.mentioned = chain.mentioned := hcurrent.mentioned
    refine h.moves_single (Task.suits_search (List.cons_subset_cons node ?_) id) rfl
    show current.mentioned ⊆ chain.mentioned
    rw [hmentioned]
    exact List.Subset.refl _
  | @found current symbol prototype s hcurrent hreading =>
    have hmentioned : current.mentioned = chain.mentioned := hcurrent.mentioned
    obtain ⟨seed, hgrows, -, hfind, -, heq⟩ :=
      Law.sound_planned.dispatch_of_found hobeys hcurrent hreading node baked
    have hfaithful := Law.faithful_of_find? hgrows hfind
    rw [heq]
    refine ⟨[], (List.append_nil _).symm, ordinary_make h.scene ?_ hfaithful.ethereal hfaithful.name
      ?_ fun hbaked => ?_⟩
    · exact (h.head_open node List.mem_cons_self).fits_nearestAnchor h.scene rfl
    · rw [Bundle.mentioned_write (by decide)]
      show current.mentioned ⊆ _
      rw [hmentioned]
      exact List.subset_cons_self _ _
    · show (baked || prototype.baked) = true
      rw [hbaked, Bool.true_or]

/-! ### Work that is at hand -/

theorem ordinary_destroy {mentioned : List NodeId} {baking : Prop} (scene : w.nodes.Scene)
    (hopen : w.nodes.Open node) (hlingers : w.nodes.lingers node = true) :
    w.Ordinary (w.destroy node) mentioned [node] baking [] [] := by
  obtain ⟨state, hstate, hethereal, hpresent⟩ := Arena.lingers_iff.mp hlingers
  have hstays : w.nodes.Stays (w.nodes.destroy node) := by
    refine Arena.stays_destroy fun other hother => ?_
    obtain rfl : state = other := Option.some.inj (hstate.symm.trans hother)
    exact ⟨shown_of_open hopen hstate, hethereal⟩
  refine Ordinary.of_advances (hstays.advances scene) (fun _ => rfl)
    (fun other hother => (by cases hother)) (fun work hwork => (by cases hwork)) (fun _ => rfl)
    fun id => ?_
  show _ = _ + ((w.nodes.destroy node).lingers id).toNat
  by_cases hid : node = id
  · subst hid
    have hgone : (w.nodes.destroy node).lingers node = false := by
      unfold Arena.lingers Arena.destroy
      rw [Arena.get?_modify, if_pos rfl, hstate]
      simp
    rw [hgone, hlingers]
    simp [Task.holdings]
  · have hsame : (w.nodes.destroy node).lingers id = w.nodes.lingers id := by
      unfold Arena.lingers Arena.destroy
      rw [Arena.get?_modify, if_neg hid]
    rw [hsame]
    simp [Task.holdings, hid]

theorem moves_destroy (h : w.Orderly (.destroy node :: rest) works) :
    w.Moves [node] [node] True (w.destroy node, []) :=
  ⟨[], (List.append_nil _).symm, ordinary_destroy h.scene
    (h.head_open node List.mem_cons_self) (h.lingers_of_mem_held List.mem_cons_self)⟩

theorem moves_park {work : Continuation Empty} (h : w.Orderly (.park work :: rest) works) :
    w.Moves work.mentioned work.held False (w.park work, []) :=
  h.moves_parking (List.Subset.refl _) id rfl (h.task_named _ List.mem_cons_self)

theorem moves_carryTip {growth : Elongation Empty} (h : w.Orderly (.carryTip growth :: rest) works) :
    w.Moves growth.mentioned [] True (growth.carryTip w, []) :=
  h.moves_nothing rfl (growth.redraws_carryTip w)

theorem moves_ripen {growth : Elongation Empty} (h : w.Orderly (.ripen growth :: rest) works) :
    w.Moves growth.mentioned [] (w.nodes.Bakes growth.node) (growth.ripen w) := by
  have hform : ∀ other ∈ (growth.ripen w).2, ∃ later, other = .carryOn growth.node later := by
    intro other hother
    obtain ⟨-, later, -, -, rfl⟩ := growth.exists_of_mem_ripen w hother
    exact ⟨later, rfl⟩
  refine h.moves_of_redraws (growth.redraws_ripen w) (fun other hother => ?_)
    (List.flatMap_eq_nil_iff.mpr fun other hother => ?_)
  · have hmentioned := growth.within_finish _ other hother
    obtain ⟨later, rfl⟩ := hform other hother
    exact Task.suits_carryOn hmentioned id
  · obtain ⟨later, rfl⟩ := hform other hother
    rfl

/-! ### Calls -/

section Calls

variable {handler : Handler Empty} {bundle : Bundle Empty} {seed : Seed Empty} {s : Sentence}

/-- The node of a call is as baked as the call. -/
theorem bakes_of_call (h : w.Orderly (.call handler node bundle baked :: rest) works)
    (hbaked : baked = true) : w.nodes.Bakes node := by
  obtain ⟨state, hserves, -⟩ := h.call _ _ _ _ _ rfl
  exact ⟨state, hserves.get?, hserves.baked.trans hbaked⟩

theorem moves_handsOn (h : w.Orderly (.call handler node bundle baked :: rest) works)
    (hfollows : bundle.Follows seed) (hs : bundle.find? Key.sentence = some (.sentence s))
    {gone : Bool} (hhandler : handler.handsOn? = some gone) :
    w.Moves (node :: bundle.mentioned) (if handler.isEthereal then [node] else []) (baked = true)
      ((handler.call w node bundle baked).2.world, (handler.call w node bundle baked).2.allTasks) := by
  obtain ⟨state, hserves, -⟩ := h.call _ _ _ _ _ rfl
  have hgone : gone = handler.isEthereal := handler.gone_of_handsOn? hhandler
  have hredraws := handler.redraws_call hhandler (hfollows.core_eq hs) w node baked
  have hwithin := handler.within_call hhandler w node bundle baked
  obtain ⟨-, hpasses⟩ := Handler.handsOn_call hhandler hfollows hs
    (Arena.contains_of_get? hserves.get?) baked
  rcases hpasses with ⟨later, -, hnone, htasks⟩ | ⟨hlive, htasks, work, hwork, hkeeps⟩
  · have hall : (handler.call w node bundle baked).2.allTasks =
        .carryOn node { core := seed.core s, bundle := later } :: Task.passing gone node := by
      rw [Effect.allTasks, hnone, htasks]
    refine h.moves_of_redraws (hredraws.mono (by simp [Task.mentioned])) (fun other hother => ?_) ?_
    · have hmentioned := hwithin other hother
      rw [hall] at hother
      rcases List.mem_cons.mp hother with rfl | hother
      · exact Task.suits_carryOn hmentioned h.bakes_of_call
      · unfold Task.passing at hother
        split at hother
        · rw [List.mem_singleton.mp hother]
          exact Task.suits_destroy List.mem_cons_self
        · cases hother
    · rw [hall, hgone]
      cases hethereal : handler.isEthereal <;> simp [Task.held, Task.passing, hethereal]
  · have hall : (handler.call w node bundle baked).2.allTasks = [.park work] := by
      rw [Effect.allTasks, hwork, htasks]
      rfl
    rw [hall] at hwithin ⊢
    have hheld : work.held = if handler.isEthereal then [node] else [] := by
      rw [← hgone]
      cases hkeeps with
      | wait hnode _ => simp [Continuation.held, hnode]
      | leaf _ _ => rfl
    have hnamed : work.Named w.nodes := by
      cases hkeeps with
      | @wait delay hnode _ =>
        obtain ⟨minSeconds, maxSeconds, hpause⟩ := Handler.pause_of_continuation hhandler hwork
        rw [hpause] at hserves
        exact ⟨state, hnode ▸ hserves.get?, hserves.ethereal, hserves.name _ _ rfl⟩
      | leaf _ _ => trivial
    have hmentioned : work.mentioned ⊆ node :: bundle.mentioned := hwithin _ List.mem_cons_self
    refine h.moves_of_redraws (hredraws.mono (by simp [Task.mentioned])) (fun other hother => ?_) ?_
    · rw [List.mem_singleton.mp hother]
      exact Task.suits_park hmentioned (fun hbaked => Bool.false_ne_true (hlive.symm.trans hbaked)) hnamed
    · rw [List.flatMap_singleton]
      exact hheld

/-- A fork that fails is gone, and one that does not goes on twice and is gone then. -/
theorem moves_fork {closing : Char}
    (h : w.Orderly (.call (.fork closing) node bundle baked :: rest) works)
    (hfollows : bundle.Follows seed) (hs : bundle.find? Key.sentence = some (.sentence s)) :
    w.Moves (node :: bundle.mentioned) [node] (baked = true)
      ((w.fork closing node bundle).world, (w.fork closing node bundle).allTasks) := by
  obtain ⟨state, hserves, -⟩ := h.call _ _ _ _ _ rfl
  have hopening : (w.nodes.get? node).map (·.symbol) = some state.symbol := by
    rw [hserves.get?, Option.map_some]
  rw [World.fork_eq hfollows hs closing hopening]
  rcases s.takeBranch state.symbol closing with ⟨cause | interior, residue⟩
  · refine ⟨[], (List.append_nil _).symm, ?_⟩
    have hdestroyed : w.Ordinary (w.destroy node) (node :: bundle.mentioned) [node] (baked = true) [] [] :=
      ordinary_destroy h.scene (h.head_open node List.mem_cons_self)
        (h.lingers_of_mem_held (by simp [Task.held, Handler.isEthereal]))
    exact hdestroyed.congr rfl rfl
  · have hcarry (t : Sentence) : (Task.carryOn node { core := seed.core t, bundle }).Suits w.nodes
        (node :: bundle.mentioned) (baked = true) :=
      Task.suits_carryOn (List.Subset.refl _) h.bakes_of_call
    show w.Moves _ _ _ (w, [.carryOn node { core := seed.core residue, bundle },
      .carryOn node { core := seed.core interior, bundle }, .destroy node])
    refine h.moves_of_redraws (Redraws.refl _ w) (fun other hother => ?_) ?_
    · simp only [List.mem_cons, List.not_mem_nil, or_false] at hother
      rcases hother with rfl | rfl | rfl
      · exact hcarry residue
      · exact hcarry interior
      · exact Task.suits_destroy List.mem_cons_self
    · simp [Task.held, Handler.isEthereal]

/-! ### Branches -/

/-- A branch whose tip is not attended to. -/
theorem moves_untipped {shape : BranchShape} {growth : Elongation Empty}
    (h : w.Orderly (.call (.branch shape) node bundle baked :: rest) works)
    (hredraws : w.Redraws [node] later) (hnode : growth.node = node)
    (hmentioned : growth.mentioned ⊆ node :: bundle.mentioned) :
    w.Moves (node :: bundle.mentioned) [] (baked = true) (later, growth.course baked) := by
  have hcourse := Elongation.suits_course (a := w.nodes) hmentioned
    fun hbaked => hnode ▸ h.bakes_of_call hbaked
  exact h.moves_of_redraws (hredraws.mono (by simp [Task.mentioned]))
    (fun other hother => (hcourse other hother).1)
    (List.flatMap_eq_nil_iff.mpr fun other hother => (hcourse other hother).2)

/-- A branch whose tip was made. It is the tip's turn to be called first. -/
theorem moves_tipped {placed : World Empty} {shape : BranchShape} {growth : Elongation Empty}
    {prototype : Prototype Empty} {draft : NodeDraft}
    (h : w.Orderly (.call (.branch shape) node bundle baked :: rest) works)
    (hplaced : w.Redraws [node] placed) (htipped : placed.nodes.Tipped later.nodes draft)
    (hprefabs : later.prefabs = placed.prefabs) (hparked : later.parked = placed.parked)
    (hethereal : draft.ethereal = prototype.handler.isEthereal) (hbaked : draft.baked = baked)
    (hname : ∀ minSeconds maxSeconds, prototype.handler = .pause minSeconds maxSeconds →
      draft.name = "pause")
    (hnode : growth.node = node)
    (hmentioned : growth.mentioned ⊆ placed.nodes.size :: node :: bundle.mentioned) :
    w.Moves (node :: bundle.mentioned) [] (baked = true)
      (later, .call prototype.handler placed.nodes.size bundle baked :: growth.course baked) := by
  have hadvances : w.nodes.Advances later.nodes :=
    (hplaced.advances h.scene fun id hid => List.mem_singleton.mp hid ▸
      h.head_open node List.mem_cons_self).trans htipped.toAdvances
  have hcourse := Elongation.suits_course (a := later.nodes) hmentioned fun hbaked =>
    hnode ▸ (h.bakes_of_call hbaked).mono hadvances.extended
  refine ⟨[], by rw [hparked, hplaced.parked, List.append_nil], ?_⟩
  exact {
    toAdvances := hadvances
    prefabs := fun _ => by rw [hprefabs, hplaced.prefabs]
    task_names := by
      intro other hother id hid
      have hnames : id ∈ placed.nodes.size :: node :: bundle.mentioned := by
        rcases List.mem_cons.mp hother with rfl | hother
        · exact List.cons_subset_cons _ (List.subset_cons_self _ _) hid
        · exact (hcourse other hother).1.mentioned hid
      rcases List.mem_cons.mp hnames with rfl | hold
      · exact Or.inr ⟨Nat.le_of_eq hplaced.size.symm, htipped.opened⟩
      · exact Or.inl hold
    work_names := fun work hwork => (by cases hwork)
    bakes := by
      intro hbaking other hother
      rcases List.mem_cons.mp hother with rfl | hother
      · exact hbaking
      · exact (hcourse other hother).1.bakes hbaking
    parks := fun _ _ => rfl
    unclaimed := by
      intro other hother
      rcases List.mem_cons.mp hother with rfl | hother
      · rfl
      · exact (hcourse other hother).1.unclaimed
    call := by
      intro handler' node' bundle' baked' others heq
      simp only [List.cons.injEq, Task.call.injEq] at heq
      obtain ⟨⟨rfl, rfl, rfl, rfl⟩, -⟩ := heq
      exact ⟨_, ⟨htipped.get?, hethereal, hbaked, hname⟩, Or.inl rfl⟩
    account := by
      intro id
      have hnone : (growth.course baked).flatMap Task.held = [] :=
        List.flatMap_eq_nil_iff.mpr fun other hother => (hcourse other hother).2
      rw [Task.holdings, List.flatMap_cons, hnone, htipped.lingers, hethereal,
        ← hplaced.lingers_eq id]
      by_cases hid : id = placed.nodes.size
      · rw [if_pos hid, Arena.lingers_eq_false (Nat.le_of_eq hid.symm), hid]
        cases hsolid : prototype.handler.isEthereal <;> simp [Task.held, hsolid]
      · rw [if_neg hid]
        cases hsolid : prototype.handler.isEthereal <;> simp [Task.held, hsolid, Ne.symm hid]
    task_named := by
      intro other hother
      rcases List.mem_cons.mp hother with rfl | hother
      · trivial
      · exact (hcourse other hother).1.named
    work_named := fun work hwork => (by cases hwork) }

theorem moves_branch {shape : BranchShape}
    (h : w.Orderly (.call (.branch shape) node bundle baked :: rest) works)
    (hfollows : bundle.Follows seed) (hs : bundle.find? Key.sentence = some (.sentence s))
    (hgrows : Law.planned.grows seed) :
    w.Moves (node :: bundle.mentioned) [] (baked = true)
      ((w.branch shape node bundle baked).world, (w.branch shape node bundle baked).allTasks) := by
  obtain ⟨state, hserves, -⟩ := h.call _ _ _ _ _ rfl
  obtain ⟨heading, hheading⟩ := hfollows.heading
  rcases World.branch_eq (hfollows.core_eq hs) (Bundle.vec3?_of_find? hheading) shape hserves.get? baked
    with hnothing | ⟨placed, grow, heq, hgrow, hcases⟩
  · rw [hnothing]
    exact h.moves_nothing rfl (Redraws.refl _ w)
  have hplaced : w.Redraws [node] placed := by
    rw [heq]
    exact Redraws.place List.mem_cons_self _ w
  rcases hcases with ⟨-, hworld, htasks⟩ | ⟨symbol, -, hworld, htasks⟩
  · rw [hworld, htasks]
    exact h.moves_untipped hplaced (hgrow none).1 (hgrow none).2.2
  rw [hworld, htasks]
  cases hfind : seed.registry.find? symbol with
  | none =>
    -- A tip that is not bound is not made.
    rw [World.attachTip_of_none hfind]
    exact h.moves_untipped (hplaced.trans (Redraws.of_eq rfl rfl rfl)) (hgrow none).1
      (hgrow none).2.2
  | some prototype =>
    have hfaithful := Law.faithful_of_find? hgrows hfind
    have hopen := h.head_open node List.mem_cons_self
    have scene : placed.nodes.Scene := (hplaced.advances h.scene fun id hid =>
      List.mem_singleton.mp hid ▸ hopen).scene
    have hfits : placed.nodes.Fits (prototype.tipDraft symbol node baked) := by
      rintro p hp
      obtain rfl : node = p := Option.some.inj hp
      obtain ⟨transform, segment, blade, hlater, -⟩ := hplaced.node hserves.get?
      have hshown := shown_of_open hopen hserves.get?
      exact ⟨_, hlater, hserves.ethereal, hshown⟩
    rw [World.attachTip_of_some hfind]
    exact h.moves_tipped hplaced (hfits.tipped scene) rfl rfl hfaithful.ethereal rfl hfaithful.name
      (hgrow _).1 (List.Subset.trans (hgrow _).2.2 (by simp))

end Calls

end World.Orderly
end PlantGrowth
