import PlantGrowth.Proofs.Law
import PlantGrowth.Proofs.Prototypes
import PlantGrowth.Proofs.Redraws

/-!
# Orderly growth

What holds at every stage of growth, of the scene and of the pending work together. All nodes that
pending work names are in the scene. A prototype that is being grown has its publishing among the
tasks, and the tasks in front of that are of growth which does not use the scheduler; what is behind
it names only nodes that are older than the prototype's. So when it is published no pending work
names any part of it, and nothing that happens afterwards changes it.

An ethereal node that is not gone is held by exactly one task or continuation.

## Steps

Steps are of three kinds. A seed that misses claims its identifier, and publishing makes a prototype
ready. All other steps are *ordinary* (`World.Ordinary`): they make nodes and change those that are
named, and hide none.
-/

namespace PlantGrowth

/-! ## Nodes that are held -/

/-- Is the node ethereal, and not gone yet? -/
def Arena.lingers (a : Arena) (id : NodeId) : Bool :=
  match a.get? id with
  | some node => node.ethereal && !node.destroyed
  | none => false

/-- The nodes that tasks and continuations hold. -/
def Task.holdings {H : Type} (tasks : List (Task H)) (works : List (Continuation H)) : List NodeId :=
  tasks.flatMap Task.held ++ works.flatMap Continuation.held

namespace Arena

variable {a b : Arena} {id : NodeId} {node : Node}

theorem lingers_of_get? (h : a.get? id = some node) :
    a.lingers id = (node.ethereal && !node.destroyed) := by
  rw [lingers, h]

theorem lingers_iff :
    a.lingers id = true ↔ ∃ node, a.get? id = some node ∧ node.ethereal = true ∧
      node.destroyed = false := by
  unfold lingers
  cases a.get? id with
  | none => simp
  | some node => simp

theorem lingers_eq_false (h : a.size ≤ id) : a.lingers id = false := by
  rw [lingers, get?_eq_none_iff.mpr h]

/-- Solid nodes that are new do not linger. -/
theorem Extends.lingers_eq (hext : a.Extends b) (hspares : a.Spares b)
    (hnew : ∀ {id later}, a.size ≤ id → b.get? id = some later → later.ethereal = false)
    (id : NodeId) : b.lingers id = a.lingers id := by
  cases hnode : a.get? id with
  | some node =>
    obtain ⟨later, hlater, houtlives⟩ := hext hnode
    rw [lingers_of_get? hnode, lingers_of_get? hlater, houtlives.ethereal, hspares hnode hlater]
  | none =>
    have hlarge := get?_eq_none_iff.mp hnode
    rw [lingers_eq_false hlarge]
    cases hlater : b.get? id with
    | none => rw [lingers, hlater]
    | some later => rw [lingers_of_get? hlater, hnew hlarge hlater, Bool.false_and]

end Arena

/-- **What is redrawn lingers as before.** -/
theorem World.Redraws.lingers_eq {ids : List NodeId} {w later : World Empty} (h : w.Redraws ids later)
    (id : NodeId) : later.nodes.lingers id = w.nodes.lingers id := by
  cases hnode : w.nodes.get? id with
  | some node =>
    obtain ⟨transform, segment, blade, hlater, -⟩ := h.node hnode
    rw [Arena.lingers_of_get? hnode, Arena.lingers_of_get? hlater]
  | none =>
    have hlarge := Arena.get?_eq_none_iff.mp hnode
    rw [Arena.lingers_eq_false hlarge, Arena.lingers_eq_false (h.size ▸ hlarge)]

/-! ## Prefabs -/

/-- **A prototype is being grown exactly if some identifier is claimed.** -/
theorem PrefabStore.isGrowing_iff (store : PrefabStore) :
    store.isGrowing = true ↔ ∃ identifier, store.find? identifier = some .claimed := by
  obtain ⟨⟨entries, distinct⟩, hits⟩ := store
  simp only [isGrowing, Dictionary.anyValue, find?, Dictionary.find?, List.any_eq_true, beq_iff_eq]
  constructor
  · rintro ⟨⟨identifier, state⟩, hmem, rfl⟩
    refine ⟨identifier, ?_⟩
    obtain ⟨before, behind, rfl⟩ := List.append_of_mem hmem
    rw [List.lookup_eq_some_iff]
    refine ⟨before, behind, rfl, fun entry hentry => ?_⟩
    simp only [bne_iff_ne, ne_eq]
    rintro rfl
    rw [List.map_append, List.nodup_append] at distinct
    exact distinct.2.2 entry.1 (List.mem_map_of_mem hentry) entry.1 (by simp) rfl
  · rintro ⟨identifier, hlookup⟩
    obtain ⟨before, behind, rfl, -⟩ := List.lookup_eq_some_iff.mp hlookup
    exact ⟨(identifier, .claimed), by simp, rfl⟩

/-- The identifier whose prototype a task is going to publish. -/
def Task.claimed? {H : Type} : Task H → Option String
  | .publish prefab => some prefab.identifier
  | _ => none

/-- Is it the call of a handler? -/
def Task.isCall {H : Type} : Task H → Bool
  | .call .. => true
  | _ => false

/-! ## Growth that does not use the scheduler -/

/-- Is the node there, and baked? -/
def Arena.Bakes (a : Arena) (id : NodeId) : Prop :=
  ∃ node, a.get? id = some node ∧ node.baked = true

/-- Is the task one of baked growth? -/
def Task.Bakes (a : Arena) : Task Empty → Prop
  | .advance _ _ baked => baked = true
  | .search _ _ baked => baked = true
  | .call _ _ _ baked => baked = true
  | .carryOn node _ => a.Bakes node
  | .destroy _ => True
  | .park _ => False
  | .carryTip _ => True
  | .ripen growth => a.Bakes growth.node
  | .publish _ => True

/-- How a task in front of another one fits that one. -/
structure Task.Precedes (a : Arena) (task other : Task Empty) : Prop where
  bakes : ∀ prefab, other = .publish prefab → task.Bakes a
  older : ∀ prefab, task = .publish prefab → ∀ id ∈ other.mentioned, id < prefab.node

/-! ## Nodes of calls and of pauses -/

/-- The node is one at which the handler acts. -/
structure Arena.Serves (a : Arena) (handler : Handler Empty) (node : NodeId) (baked : Bool)
    (state : Node) : Prop where
  get? : a.get? node = some state
  ethereal : state.ethereal = handler.isEthereal
  baked : state.baked = baked
  name : ∀ minSeconds maxSeconds, handler = .pause minSeconds maxSeconds → state.name = "pause"

/-- A chain that waits does so at a pause. -/
def Continuation.Named (a : Arena) : Continuation Empty → Prop
  | .wait delay => ∃ node, a.get? delay.node = some node ∧ node.ethereal = true ∧ node.name = "pause"
  | _ => True

/-- A chain that is going to wait will do so at a pause. -/
def Task.Named (a : Arena) : Task Empty → Prop
  | .park work => work.Named a
  | _ => True

/-- The structure that is to be published is solid, and its first instance will hang where it does
now. -/
def Arena.Awaits (a : Arena) (prefab : Prefab) : Prop :=
  ∃ node, a.get? prefab.node = some node ∧ node.ethereal = false ∧ prefab.anchor = node.previous

section

variable {a b : Arena}

theorem Arena.Bakes.mono {id : NodeId} (h : a.Bakes id) (hext : a.Extends b) : b.Bakes id := by
  obtain ⟨node, hnode, hbaked⟩ := h
  obtain ⟨later, hlater, houtlives⟩ := hext hnode
  exact ⟨later, hlater, houtlives.baked.trans hbaked⟩

theorem Task.Bakes.mono {task : Task Empty} (h : task.Bakes a) (hext : a.Extends b) :
    task.Bakes b := by
  cases task with
  | carryOn node chain => exact Arena.Bakes.mono h hext
  | ripen growth => exact Arena.Bakes.mono h hext
  | advance predecessor chain baked => exact h
  | search predecessor chain baked => exact h
  | call handler node bundle baked => exact h
  | destroy node => trivial
  | park work => exact h
  | carryTip growth => trivial
  | publish prefab => trivial

theorem Task.Precedes.mono {task other : Task Empty} (h : task.Precedes a other) (hext : a.Extends b) :
    task.Precedes b other := ⟨fun prefab heq => (h.bakes prefab heq).mono hext, h.older⟩

/-- A task that claims nothing has only to be one of baked growth, if a prototype is published after
it. -/
theorem Task.Precedes.of_unclaimed {task other : Task Empty} (h : task.claimed? = none)
    (hbakes : ∀ prefab, other = .publish prefab → task.Bakes a) : task.Precedes a other := by
  refine ⟨hbakes, ?_⟩
  rintro prefab rfl
  cases h

theorem Continuation.Named.mono {work : Continuation Empty} (h : work.Named a) (hext : a.Extends b) :
    work.Named b := by
  cases work with
  | wait delay =>
    obtain ⟨node, hnode, hethereal, hname⟩ := h
    obtain ⟨later, hlater, houtlives⟩ := hext hnode
    exact ⟨later, hlater, houtlives.ethereal.trans hethereal, (houtlives.name hethereal).trans hname⟩
  | dispatch next => trivial
  | branch growth => trivial
  | leaf unfolding => trivial
  | emergence scaling => trivial
  | host work => trivial

theorem Task.Named.mono {task : Task Empty} (h : task.Named a) (hext : a.Extends b) :
    task.Named b := by
  cases task with
  | park work => exact Continuation.Named.mono h hext
  | _ => trivial

theorem Arena.Awaits.mono {prefab : Prefab} (h : a.Awaits prefab) (hext : a.Extends b) :
    b.Awaits prefab := by
  obtain ⟨node, hnode, hsolid, hanchor⟩ := h
  obtain ⟨later, hlater, houtlives⟩ := hext hnode
  exact ⟨later, hlater, houtlives.ethereal.trans hsolid, hanchor.trans houtlives.previous.symm⟩

theorem Arena.IsPrototype.mono {root : NodeId} (h : a.IsPrototype root) (hext : a.Extends b) :
    b.IsPrototype root := by
  obtain ⟨state, hstate, hhidden, hparent, hstays⟩ := h
  exact ⟨state, hext.get?_of_hidden hstate hhidden, hhidden, hparent, hstays⟩

end

/-! ## Stages -/

/-- No node of the list is as new as this one. -/
def OlderThan (node : NodeId) (ids : List NodeId) : Prop := ∀ id ∈ ids, id < node

/-- What holds at every stage of growth. -/
structure World.Orderly (w : World Empty) (tasks : List (Task Empty))
    (works : List (Continuation Empty)) : Prop where
  scene : w.nodes.Scene
  /-- Pending work names only nodes that are in the scene. -/
  task_open : ∀ task ∈ tasks, ∀ id ∈ task.mentioned, w.nodes.Open id
  work_open : ∀ work ∈ works, ∀ id ∈ work.mentioned, w.nodes.Open id
  precedes : tasks.Pairwise (Task.Precedes w.nodes)
  publishes : ∀ prefab, .publish prefab ∈ tasks → w.nodes.Awaits prefab ∧
    ∀ work ∈ works, OlderThan prefab.node work.mentioned
  claimed_nodup : (tasks.filterMap Task.claimed?).Nodup
  claimed : ∀ identifier, w.prefabs.find? identifier = some .claimed ↔
    identifier ∈ tasks.filterMap Task.claimed?
  ready : ∀ identifier root, w.prefabs.find? identifier = some (.ready root) →
    w.nodes.IsPrototype root
  /-- A handler acts right after its node was made, unless the node is dead. -/
  call : ∀ handler node bundle baked rest, tasks = .call handler node bundle baked :: rest →
    ∃ state, w.nodes.Serves handler node baked state ∧ (state.dead = true ∨
      (∀ task ∈ rest, OlderThan node task.mentioned) ∧ ∀ work ∈ works, OlderThan node work.mentioned)
  /-- An ethereal node that is not gone is held once, and no other node is held. -/
  account : ∀ id, (Task.holdings tasks works).count id = (w.nodes.lingers id).toNat
  task_named : ∀ task ∈ tasks, task.Named w.nodes
  work_named : ∀ work ∈ works, work.Named w.nodes

/-- The scene has changed, but no node was hidden or shown. -/
structure Arena.Advances (a b : Arena) : Prop where
  scene : b.Scene
  extended : a.Extends b
  shows : a.Shows b a.size

namespace Arena

variable {a b c : Arena}

theorem Advances.trans (h : a.Advances b) (h' : b.Advances c) : a.Advances c := by
  refine ⟨h'.scene, h.extended.trans h'.extended, h.shows.trans h.extended ?_⟩
  intro id node later hlt
  exact h'.shows (Nat.lt_of_lt_of_le hlt h.extended.size_le)

theorem Stays.advances (h : a.Stays b) (scene : a.Scene) : a.Advances b :=
  ⟨h.scene scene, h.extended, h.shows a.size⟩

theorem Fits.advances {draft : NodeDraft} (h : a.Fits draft) (scene : a.Scene) :
    a.Advances (a.addNode draft).2 :=
  ⟨scene.addNode h, extends_addNode h, shows_addNode h a.size⟩

theorem Open.advances {id : NodeId} (hopen : a.Open id) (scene : a.Scene) (h : a.Advances b) :
    b.Open id := hopen.of_extends scene h.extended h.shows hopen.lt_size

end Arena

/-- A step from `w` to `later` that neither claims nor publishes. It is taken by work that names and
holds the given nodes, and leaves tasks and continuations. -/
structure World.Ordinary (w later : World Empty) (mentioned held : List NodeId) (baking : Prop)
    (tasks : List (Task Empty)) (works : List (Continuation Empty)) : Prop
    extends Arena.Advances w.nodes later.nodes where
  prefabs : ∀ identifier, later.prefabs.find? identifier = w.prefabs.find? identifier
  /-- What is named was named before or is new. -/
  task_names : ∀ task ∈ tasks, ∀ id ∈ task.mentioned,
    id ∈ mentioned ∨ w.nodes.size ≤ id ∧ later.nodes.Open id
  work_names : ∀ work ∈ works, ∀ id ∈ work.mentioned,
    id ∈ mentioned ∨ w.nodes.size ≤ id ∧ later.nodes.Open id
  bakes : baking → ∀ task ∈ tasks, task.Bakes later.nodes
  parks : baking → w.prefabs.isGrowing = true → works = []
  unclaimed : ∀ task ∈ tasks, task.claimed? = none
  call : ∀ handler node bundle baked rest, tasks = .call handler node bundle baked :: rest →
    ∃ state, later.nodes.Serves handler node baked state ∧
      (state.dead = true ∨ node = w.nodes.size ∧ rest = [] ∧ works = [])
  account : ∀ id, (Task.holdings tasks works).count id + (w.nodes.lingers id).toNat =
    held.count id + (later.nodes.lingers id).toNat
  task_named : ∀ task ∈ tasks, task.Named later.nodes
  work_named : ∀ work ∈ works, work.Named later.nodes

/-- What there was is still there: the nodes, and the identifiers that were met. A prototype stands
where it stood. -/
structure World.Keeps (w later : World Empty) : Prop where
  extended : w.nodes.Extends later.nodes
  met : ∀ identifier, w.prefabs.find? identifier ≠ none → later.prefabs.find? identifier ≠ none
  ready : ∀ identifier root, w.prefabs.find? identifier = some (.ready root) →
    later.prefabs.find? identifier = some (.ready root)

namespace World.Keeps

variable {w mid later : World Empty}

theorem of_find? (hnodes : w.nodes.Extends later.nodes)
    (hprefabs : ∀ identifier, later.prefabs.find? identifier = w.prefabs.find? identifier) :
    w.Keeps later :=
  ⟨hnodes, fun identifier h => by rwa [hprefabs], fun identifier root h => by rwa [hprefabs]⟩

theorem refl (w : World Empty) : w.Keeps w := of_find? (Arena.Extends.refl _) fun _ => rfl

theorem trans (h : w.Keeps mid) (h' : mid.Keeps later) : w.Keeps later :=
  ⟨h.extended.trans h'.extended, fun identifier hmet => h'.met identifier (h.met identifier hmet),
    fun identifier root hready => h'.ready identifier root (h.ready identifier root hready)⟩

end World.Keeps

/-- A step that is ordinary keeps what there was. -/
theorem World.Ordinary.keeps {w later : World Empty} {mentioned held : List NodeId} {baking : Prop}
    {tasks : List (Task Empty)} {works : List (Continuation Empty)}
    (h : w.Ordinary later mentioned held baking tasks works) : w.Keeps later :=
  Keeps.of_find? h.extended h.prefabs

namespace World.Orderly

variable {w later : World Empty} {tasks front rest : List (Task Empty)}
  {works old new : List (Continuation Empty)} {mentioned held : List NodeId} {baking : Prop}

/-- The order in which continuations wait does not matter. -/
theorem perm (h : w.Orderly tasks works) (hperm : works.Perm new) : w.Orderly tasks new where
  scene := h.scene
  task_open := h.task_open
  work_open := fun work hwork => h.work_open work (hperm.mem_iff.mpr hwork)
  precedes := h.precedes
  publishes := fun prefab hprefab => ⟨(h.publishes prefab hprefab).1,
    fun work hwork => (h.publishes prefab hprefab).2 work (hperm.mem_iff.mpr hwork)⟩
  claimed_nodup := h.claimed_nodup
  claimed := h.claimed
  ready := h.ready
  call := fun handler node bundle baked rest heq => by
    obtain ⟨state, hserves, hdead | ⟨htasks, hworks⟩⟩ := h.call handler node bundle baked rest heq
    · exact ⟨state, hserves, Or.inl hdead⟩
    · exact ⟨state, hserves,
        Or.inr ⟨htasks, fun work hwork => hworks work (hperm.mem_iff.mpr hwork)⟩⟩
  account := fun id => by
    rw [← h.account id, Task.holdings, Task.holdings, List.count_append, List.count_append,
      (hperm.flatMap_right Continuation.held).count_eq]
  task_named := h.task_named
  work_named := fun work hwork => h.work_named work (hperm.mem_iff.mpr hwork)

/-- Something is being grown if it is to be published. -/
theorem isGrowing_of_mem (h : w.Orderly tasks works) {prefab : Prefab}
    (hmem : Task.publish prefab ∈ tasks) : w.prefabs.isGrowing = true := by
  refine (PrefabStore.isGrowing_iff _).mpr ⟨prefab.identifier, (h.claimed _).mpr ?_⟩
  exact List.mem_filterMap.mpr ⟨_, hmem, rfl⟩

theorem lt_size_of_task (h : w.Orderly tasks works) {task : Task Empty} (hmem : task ∈ tasks) :
    OlderThan w.nodes.size task.mentioned := fun id hid => (h.task_open task hmem id hid).lt_size

theorem lt_size_of_work (h : w.Orderly tasks works) {work : Continuation Empty}
    (hmem : work ∈ works) : OlderThan w.nodes.size work.mentioned :=
  fun id hid => (h.work_open work hmem id hid).lt_size

/-- **An ordinary step is orderly.** It is taken by the first task, or by a continuation if there is no
task. -/
theorem ordinary (h : w.Orderly (front ++ rest) (old ++ works))
    (step : w.Ordinary later mentioned held baking tasks new)
    (hmentioned : ∀ id ∈ mentioned, w.nodes.Open id)
    (hheld : ∀ id, (Task.holdings front old).count id = held.count id)
    (hfront : ∀ task ∈ front, task.claimed? = none)
    (hbaking : ∀ prefab, .publish prefab ∈ rest → baking)
    (hcall : ∀ task ∈ rest, task.isCall = false) :
    later.Orderly (tasks ++ rest) (new ++ works) := by
  have hkeep : ∀ {id}, w.nodes.Open id → later.nodes.Open id := fun hopen =>
    hopen.advances h.scene step.toAdvances
  have hnew : ∀ {id}, (id ∈ mentioned ∨ w.nodes.size ≤ id ∧ later.nodes.Open id) →
      later.nodes.Open id := by
    rintro id (hid | ⟨-, hopen⟩)
    · exact hkeep (hmentioned id hid)
    · exact hopen
  have hclaims : (tasks ++ rest).filterMap Task.claimed? = (front ++ rest).filterMap Task.claimed? := by
    rw [List.filterMap_append, List.filterMap_append, List.filterMap_eq_nil_iff.mpr step.unclaimed,
      List.filterMap_eq_nil_iff.mpr hfront]
  have hrest : ∀ {task}, task ∈ rest → task ∈ front ++ rest := fun hmem =>
    List.mem_append_right front hmem
  have hworks : ∀ {work}, work ∈ works → work ∈ old ++ works := fun hmem =>
    List.mem_append_right old hmem
  have hpublish : ∀ {prefab}, Task.publish prefab ∈ tasks ++ rest → Task.publish prefab ∈ rest := by
    intro prefab hmem
    rcases List.mem_append.mp hmem with hmem | hmem
    · exact absurd (step.unclaimed _ hmem) (by simp [Task.claimed?])
    · exact hmem
  exact {
    scene := step.scene
    task_open := by
      intro task hmem id hid
      rcases List.mem_append.mp hmem with hmem | hmem
      · exact hnew (step.task_names task hmem id hid)
      · exact hkeep (h.task_open task (hrest hmem) id hid)
    work_open := by
      intro work hmem id hid
      rcases List.mem_append.mp hmem with hmem | hmem
      · exact hnew (step.work_names work hmem id hid)
      · exact hkeep (h.work_open work (hworks hmem) id hid)
    precedes := by
      refine List.pairwise_append.mpr ⟨?_, ?_, fun task htask other hother => ?_⟩
      · refine List.pairwise_of_forall_mem_list fun task htask other hother =>
          .of_unclaimed (step.unclaimed task htask) ?_
        rintro prefab rfl
        cases step.unclaimed _ hother
      · exact (List.pairwise_append.mp h.precedes).2.1.imp fun hprecedes => hprecedes.mono step.extended
      · exact .of_unclaimed (step.unclaimed task htask) fun prefab heq =>
          step.bakes (hbaking prefab (heq ▸ hother)) task htask
    publishes := by
      intro prefab hmem
      have hmem' := hpublish hmem
      obtain ⟨hawaits, hall⟩ := h.publishes prefab (hrest hmem')
      refine ⟨hawaits.mono step.extended, fun work hwork => ?_⟩
      rw [step.parks (hbaking prefab hmem') (h.isGrowing_of_mem (hrest hmem')), List.nil_append] at hwork
      exact hall work (hworks hwork)
    claimed_nodup := by
      rw [hclaims]
      exact h.claimed_nodup
    claimed := by
      intro identifier
      rw [hclaims, step.prefabs]
      exact h.claimed identifier
    ready := by
      intro identifier root hfind
      rw [step.prefabs] at hfind
      exact (h.ready identifier root hfind).mono step.extended
    call := by
      intro handler node bundle baked others heq
      cases htasks : tasks with
      | nil =>
        rw [htasks, List.nil_append] at heq
        cases hcall _ (heq ▸ List.mem_cons_self)
      | cons task more =>
        rw [htasks, List.cons_append, List.cons.injEq] at heq
        obtain ⟨rfl, rfl⟩ := heq
        obtain ⟨state, hserves, hdead | ⟨rfl, rfl, rfl⟩⟩ :=
          step.call handler node bundle baked more htasks
        · exact ⟨state, hserves, Or.inl hdead⟩
        · exact ⟨state, hserves, Or.inr ⟨fun task htask => h.lt_size_of_task (hrest htask),
            fun work hwork => h.lt_size_of_work (hworks hwork)⟩⟩
    account := by
      intro id
      have hbefore := h.account id
      have hstep := step.account id
      have hitem := hheld id
      simp only [Task.holdings, List.flatMap_append, List.count_append] at hbefore hstep hitem ⊢
      omega
    task_named := by
      intro task hmem
      rcases List.mem_append.mp hmem with hmem | hmem
      · exact step.task_named task hmem
      · exact (h.task_named task (hrest hmem)).mono step.extended
    work_named := by
      intro work hmem
      rcases List.mem_append.mp hmem with hmem | hmem
      · exact step.work_named work hmem
      · exact (h.work_named work (hworks hmem)).mono step.extended }

/-! ### Claiming -/

/-- **An identifier can be claimed** for structure that the tasks in front are going to grow. It is
published when they are done. -/
theorem claim {prefab : Prefab} (h : w.Orderly (front ++ rest) works) (hnodes : later.nodes = w.nodes)
    (hprefabs : ∀ identifier, later.prefabs.find? identifier =
      if identifier = prefab.identifier then some .claimed else w.prefabs.find? identifier)
    (hmiss : w.prefabs.find? prefab.identifier = none) (hopen : w.nodes.Open prefab.node)
    (hawaits : w.nodes.Awaits prefab)
    (hfront : ∀ task ∈ front, task.Bakes w.nodes ∧ task.claimed? = none ∧ task.isCall = false)
    (hrest : ∀ task ∈ rest, OlderThan prefab.node task.mentioned ∧ task.isCall = false)
    (hworks : ∀ work ∈ works, OlderThan prefab.node work.mentioned) :
    later.Orderly (front ++ .publish prefab :: rest) works := by
  have hmem : ∀ {task}, task ∈ front ++ .publish prefab :: rest ↔
      task = .publish prefab ∨ task ∈ front ++ rest := fun {_} =>
    List.perm_middle.mem_iff.trans List.mem_cons
  have hnone : front.filterMap Task.claimed? = [] :=
    List.filterMap_eq_nil_iff.mpr fun task htask => (hfront task htask).2.1
  have hclaims : (front ++ .publish prefab :: rest).filterMap Task.claimed? =
      prefab.identifier :: (front ++ rest).filterMap Task.claimed? := by
    rw [List.filterMap_append, List.filterMap_append, hnone, List.nil_append, List.nil_append]
    rfl
  have hfree : prefab.identifier ∉ (front ++ rest).filterMap Task.claimed? := by
    intro hclaimed
    rw [(h.claimed prefab.identifier).mpr hclaimed] at hmiss
    cases hmiss
  obtain ⟨hgrowing, hleft, hcross⟩ := List.pairwise_append.mp h.precedes
  exact {
    scene := hnodes ▸ h.scene
    task_open := by
      intro task htask
      rw [hnodes]
      rcases hmem.mp htask with rfl | htask
      · intro id hid
        rw [List.mem_singleton.mp hid]
        exact hopen
      · exact h.task_open task htask
    work_open := hnodes ▸ h.work_open
    precedes := by
      rw [hnodes]
      refine List.pairwise_append.mpr ⟨hgrowing, List.pairwise_cons.mpr ⟨fun task htask => ?_, hleft⟩,
        fun task htask other hother => ?_⟩
      · exact ⟨fun _ _ => trivial, fun _ heq => Task.publish.inj heq ▸ (hrest task htask).1⟩
      · rcases List.mem_cons.mp hother with rfl | hother
        · exact .of_unclaimed (hfront task htask).2.1 fun _ _ => (hfront task htask).1
        · exact hcross task htask other hother
    publishes := by
      intro other hother
      rw [hnodes]
      rcases hmem.mp hother with heq | hother
      · cases heq
        exact ⟨hawaits, hworks⟩
      · exact h.publishes other hother
    claimed_nodup := by
      rw [hclaims]
      exact List.nodup_cons.mpr ⟨hfree, h.claimed_nodup⟩
    claimed := by
      intro identifier
      rw [hclaims, hprefabs, List.mem_cons]
      by_cases heq : identifier = prefab.identifier
      · simp [heq]
      · rw [if_neg heq, h.claimed identifier]
        exact ⟨Or.inr, fun hclaimed => hclaimed.resolve_left heq⟩
    ready := by
      intro identifier root hfind
      rw [hprefabs] at hfind
      rw [hnodes]
      split at hfind
      · cases hfind
      · exact h.ready identifier root hfind
    call := by
      -- No call is at hand.
      intro handler node bundle baked others heq
      have hhead : Task.call handler node bundle baked ∈ front ++ .publish prefab :: rest :=
        heq ▸ List.mem_cons_self
      rcases List.mem_append.mp hhead with hhead | hhead
      · cases (hfront _ hhead).2.2
      · rcases List.mem_cons.mp hhead with heq | hhead
        · cases heq
        · cases (hrest _ hhead).2
    account := by
      intro id
      rw [hnodes, ← h.account id]
      simp only [Task.holdings, List.flatMap_append, List.flatMap_cons, Task.held, List.nil_append]
    task_named := by
      intro task htask
      rw [hnodes]
      rcases hmem.mp htask with rfl | htask
      · trivial
      · exact h.task_named task htask
    work_named := hnodes ▸ h.work_named }

/-! ### Publishing -/

/-- **Structure that is published is ripe**: pending work holds none of its nodes. -/
theorem ripe {prefab : Prefab} (h : w.Orderly (.publish prefab :: rest) works) :
    ∃ state, w.nodes.Ripe prefab.node state ∧ prefab.anchor = state.previous := by
  obtain ⟨⟨state, hstate, hsolid, hanchor⟩, hworks⟩ := h.publishes prefab List.mem_cons_self
  have hopen := h.task_open _ List.mem_cons_self prefab.node List.mem_cons_self
  have htasks := (List.pairwise_cons.mp h.precedes).1
  have hshown : state.hidden = false := by
    obtain ⟨state', hstate', hshown, -⟩ := id hopen
    rwa [Option.some.inj (hstate.symm.trans hstate')]
  refine ⟨state, ⟨h.scene, hstate, hshown, ?_, fun {id node} hid hnode => ?_, hopen⟩, hanchor⟩
  · cases hgone : state.destroyed with
    | false => rfl
    | true =>
      rw [h.scene.gone hstate hgone] at hsolid
      cases hsolid
  · by_contra hethereal
    have hlingers : w.nodes.lingers id = true := Arena.lingers_iff.mpr
      ⟨node, hnode, by simpa using hethereal, (h.scene.hidden_of_mem_subtree hstate hid hnode).2⟩
    have hheld : id ∈ Task.holdings (.publish prefab :: rest) works := by
      rw [← List.count_pos_iff, h.account id, hlingers]
      exact Nat.one_pos
    have holder : id < prefab.node := by
      rcases List.mem_append.mp hheld with hmem | hmem
      · obtain ⟨task, htask, hid⟩ := List.mem_flatMap.mp hmem
        rcases List.mem_cons.mp htask with rfl | htask
        · cases hid
        · exact (htasks task htask).older prefab rfl id (task.held_subset hid)
      · obtain ⟨work, hwork, hid⟩ := List.mem_flatMap.mp hmem
        exact hworks work hwork id (work.held_subset hid)
    exact absurd holder (Nat.not_lt_of_le (h.scene.le_of_mem_subtree hid))

/-- **Publishing is orderly**: no pending work names the prototype. -/
theorem publish {prefab : Prefab} (h : w.Orderly (.publish prefab :: rest) works)
    (hcall : ∀ task ∈ rest, task.isCall = false)
    (hgains : w.nodes.Gains later.nodes prefab.node)
    (hprototype : later.nodes.IsPrototype prefab.node)
    (hprefabs : ∀ identifier, later.prefabs.find? identifier =
      if identifier = prefab.identifier then some (.ready prefab.node)
      else w.prefabs.find? identifier)
    (hnew : ∀ work ∈ new, later.prefabs.isGrowing = false ∧
      ∃ scaling, work = .emergence scaling ∧ scaling.node = w.nodes.size) :
    later.Orderly rest (new ++ works) := by
  have hext := hgains.extended
  have htasks := List.pairwise_cons.mp h.precedes
  obtain ⟨hawaits, hworks⟩ := h.publishes prefab List.mem_cons_self
  have hkeep : ∀ {id}, w.nodes.Open id → id < prefab.node → later.nodes.Open id :=
    fun hopen holder => hopen.of_extends h.scene hext hgains.shows holder
  have hbehind : ∀ {task}, task ∈ rest → task ∈ Task.publish prefab :: rest :=
    fun hmem => List.mem_cons_of_mem _ hmem
  have hclaims : (Task.publish prefab :: rest).filterMap Task.claimed? =
      prefab.identifier :: rest.filterMap Task.claimed? := rfl
  have hnodup := h.claimed_nodup
  rw [hclaims, List.nodup_cons] at hnodup
  have hclaimed : ∀ identifier, later.prefabs.find? identifier = some .claimed ↔
      identifier ∈ rest.filterMap Task.claimed? := by
    intro identifier
    rw [hprefabs]
    by_cases heq : identifier = prefab.identifier
    · rw [if_pos heq, heq]
      exact ⟨fun hfind => (by cases hfind), fun hmem => absurd hmem hnodup.1⟩
    · rw [if_neg heq, h.claimed identifier, hclaims, List.mem_cons]
      exact ⟨fun hmem => hmem.resolve_left heq, Or.inr⟩
  exact {
    scene := hgains.scene
    task_open := fun task hmem id hid => hkeep (h.task_open task (hbehind hmem) id hid)
      ((htasks.1 task hmem).older prefab rfl id hid)
    work_open := by
      intro work hmem id hid
      rcases List.mem_append.mp hmem with hmem | hmem
      · obtain ⟨-, scaling, rfl, hnode⟩ := hnew work hmem
        rw [List.mem_singleton.mp hid, hnode]
        exact hgains.opened
      · exact hkeep (h.work_open work hmem id hid) (hworks work hmem id hid)
    precedes := htasks.2.imp fun hprecedes => hprecedes.mono hext
    publishes := by
      intro other hmem
      obtain ⟨hawaits', hall⟩ := h.publishes other (hbehind hmem)
      refine ⟨hawaits'.mono hext, fun work hwork => ?_⟩
      rcases List.mem_append.mp hwork with hwork | hwork
      · -- Nothing grows in while another prototype is being grown.
        obtain ⟨hidle, -⟩ := hnew work hwork
        rw [(PrefabStore.isGrowing_iff _).mpr ⟨other.identifier,
          (hclaimed _).mpr (List.mem_filterMap.mpr ⟨_, hmem, rfl⟩)⟩] at hidle
        cases hidle
      · exact hall work hwork
    claimed_nodup := hnodup.2
    claimed := hclaimed
    ready := by
      intro identifier root hfind
      rw [hprefabs] at hfind
      split at hfind
      · cases hfind
        exact hprototype
      · exact (h.ready identifier root hfind).mono hext
    call := fun handler node bundle baked others heq => (by cases hcall _ (heq ▸ List.mem_cons_self))
    account := by
      intro id
      have hsame := hext.lingers_eq hgains.spares
        (fun {id later} hlarge hlater => (hgains.new hlarge hlater).1) id
      have hnone : new.flatMap Continuation.held = [] := by
        refine List.flatMap_eq_nil_iff.mpr fun work hwork => ?_
        obtain ⟨-, scaling, rfl, -⟩ := hnew work hwork
        rfl
      rw [hsame, ← h.account id]
      simp only [Task.holdings, List.flatMap_append, List.flatMap_cons, hnone, Task.held,
        List.nil_append]
    task_named := fun task hmem => (h.task_named task (hbehind hmem)).mono hext
    work_named := by
      intro work hmem
      rcases List.mem_append.mp hmem with hmem | hmem
      · obtain ⟨-, scaling, rfl, -⟩ := hnew work hmem
        trivial
      · exact (h.work_named work hmem).mono hext }

end World.Orderly
end PlantGrowth
