import PlantGrowth.Proofs.Changes
import PlantGrowth.Proofs.Modes

/-!
# What is drawn at a node

A branch and a leaf are drawn at their own nodes. The other handlers draw nothing, they only make
nodes, move them about and mark them; and whatever is made or copied comes after the nodes that are
there. So what is drawn at a node stays, however nested work goes on, until a handler acts at that very
node, or the next branch of its chain tells it a radius.

* `Node.Draws`: to read no more of a node than what is drawn there.
* `Arena.look`: what is read at the node of a name, and that the operations of the arena keep it.
* `Handler.look_call`: a handler draws at its own node at most.
* `World.blade_of_comes`: **a leaf stays in any run that calls no handler at its node.**
-/

namespace PlantGrowth

variable {α : Type} {f : Node → α}

/-- Nothing else of a node is read than its branch and its leaf. -/
def Node.Draws (f : Node → α) : Prop :=
  ∀ node other : Node, node.segment = other.segment → node.blade = other.blade → f node = f other

theorem Node.draws_segment : Node.Draws Node.segment := fun _ _ h _ => h

theorem Node.draws_blade : Node.Draws Node.blade := fun _ _ _ h => h

/-! ## The arena -/

namespace Arena

variable {a : Arena} {id other : NodeId} {node : Node} {change : Node → Node}

/-- What is read at the node of a name. -/
def look (f : Node → α) (a : Arena) (id : NodeId) : Option α := (a.get? id).map f

theorem look_of_get? (h : a.get? id = some node) : a.look f id = some (f node) := by
  rw [look, h, Option.map_some]

theorem lt_size_of_look {x : α} (h : a.look f id = some x) : id < a.size := by
  obtain ⟨node, hnode, -⟩ := Option.map_eq_some_iff.mp h
  exact lt_size_of_get? hnode

theorem look_modify (a : Arena) (id : NodeId) (h : ∀ node, f (change node) = f node) :
    (a.modify id change).look f = a.look f := by
  funext other
  rw [look, look, get?_modify]
  split
  · cases a.get? other with
    | none => rfl
    | some node => exact congrArg some (h node)
  · rfl

theorem look_modify_of_ne (h : other ≠ id) (a : Arena) (change : Node → Node) :
    (a.modify id change).look f other = a.look f other := by
  rw [look, look, get?_modify, if_neg (Ne.symm h)]

theorem look_modify_self (a : Arena) (id : NodeId) (change : Node → Node) :
    (a.modify id change).look f id = a.look (fun node => f (change node)) id := by
  rw [look, look, get?_modify, if_pos rfl, Option.map_map]
  rfl

theorem look_append (more : Array Node) (h : id < a.size) :
    (⟨a.nodes ++ more⟩ : Arena).look f id = a.look f id := by
  have hget : (⟨a.nodes ++ more⟩ : Arena).get? id = a.get? id := Array.getElem?_append_left h
  rw [look, hget, look]

section

variable (hf : Node.Draws f)
include hf

/-- A change that draws nothing. -/
theorem look_touch (a : Arena) (id : NodeId)
    (h : ∀ node, (change node).segment = node.segment ∧ (change node).blade = node.blade) :
    (a.modify id change).look f = a.look f :=
  a.look_modify id fun node => hf _ node (h node).1 (h node).2

theorem look_touchAll (a : Arena) (ids : List NodeId)
    (h : ∀ node, (change node).segment = node.segment ∧ (change node).blade = node.blade) :
    (a.modifyAll ids change).look f = a.look f := by
  unfold modifyAll
  induction ids generalizing a with
  | nil => rfl
  | cons first ids ih => rw [List.foldl_cons, ih, look_touch hf a first h]

theorem look_place (a : Arena) (id : NodeId) (change : Transform → Transform) :
    (a.place id change).look f = a.look f :=
  look_touch hf a id fun _ => ⟨rfl, rfl⟩

theorem look_kill (a : Arena) (id : NodeId) : (a.kill id).look f = a.look f :=
  look_touch hf a id fun _ => ⟨rfl, rfl⟩

theorem look_destroy (a : Arena) (id : NodeId) : (a.destroy id).look f = a.look f :=
  look_touch hf a id fun _ => ⟨rfl, rfl⟩

theorem look_rename (a : Arena) (id : NodeId) (name : String) : (a.rename id name).look f = a.look f :=
  look_touch hf a id fun _ => ⟨rfl, rfl⟩

theorem look_hang (a : Arena) (id : NodeId) (parent : Option NodeId) :
    (a.hang id parent).look f = a.look f := by
  funext other
  rw [look, look, get?_hang, Option.map_map]
  cases a.get? other with
  | none => rfl
  | some node => exact congrArg some (hf _ node rfl rfl)

theorem look_freeze (a : Arena) (root : NodeId) : (a.freeze root).look f = a.look f := by
  unfold freeze
  dsimp only
  rw [look_touchAll hf, look_hang hf]
  exact fun _ => ⟨rfl, rfl⟩

theorem look_moveToOrigin (a : Arena) (root : NodeId) : (a.moveToOrigin root).look f = a.look f := by
  unfold moveToOrigin
  split
  · rfl
  · rw [look_place hf, look_touchAll hf]
    exact fun _ => ⟨rfl, rfl⟩

theorem look_addNode (draft : NodeDraft) (h : id < a.size) :
    (a.addNode draft).2.look f id = a.look f id := by
  unfold addNode
  rw [look_hang hf, look, get?_push, if_neg (Nat.ne_of_lt h), look]

theorem look_copySubtree (root : NodeId) (parent : Option NodeId) (placement : Transform)
    (h : id < a.size) : (a.copySubtree root parent placement).2.look f id = a.look f id := by
  unfold copySubtree
  dsimp only
  split
  · rfl
  · rw [look_hang hf, look_touch hf, look_append _ h]
    exact fun _ => ⟨rfl, rfl⟩

theorem look_copyPrototype (prototype : NodeId) (parent : Option NodeId) (placement : Transform)
    (h : id < a.size) : (a.copyPrototype prototype parent placement).2.look f id = a.look f id := by
  have hcopied := look_copySubtree hf prototype parent placement h
  unfold copyPrototype
  split
  next root copied heq =>
    rw [heq] at hcopied
    dsimp only at hcopied ⊢
    rw [look_touchAll hf, hcopied]
    exact fun _ => ⟨rfl, rfl⟩
  next copied heq =>
    rw [heq] at hcopied
    exact hcopied

end

/-- No branch is drawn at a new node. -/
theorem segment_addNode (a : Arena) (draft : NodeDraft) :
    (a.addNode draft).2.look Node.segment a.size = some none := by
  unfold addNode
  rw [look_hang Node.draws_segment, look, get?_push, if_pos rfl]
  rfl

end Arena

/-! ## Handlers -/

section Handlers

variable {H : Type} {w : World H} {node id : NodeId} {bundle : Bundle H} {baked : Bool}

namespace World

theorem nodes_seedLive (w : World H) (planted : Seed H) (node : NodeId) (bundle : Bundle H) :
    (w.seedLive planted node bundle).2.world.nodes = w.nodes := by
  unfold seedLive
  split
  · rfl
  · rfl

section

variable (hf : Node.Draws f)
include hf

theorem look_emerge (w : World H) (variation : Variation) (node : NodeId) :
    (w.emerge variation node).nodes.look f = w.nodes.look f := by
  unfold emerge
  split
  · rfl
  · split
    · rfl
    · exact Arena.look_place hf _ _ _

theorem look_placeInstance (identifier : String) (prototype : NodeId) (parent : Option NodeId)
    (placement : Transform) (variation : Variation) (h : id < w.nodes.size) :
    (w.placeInstance identifier prototype parent placement variation).nodes.look f id =
      w.nodes.look f id := by
  have hcopied := Arena.look_copyPrototype hf prototype parent placement h
  unfold placeInstance
  split
  next nodes heq =>
    rw [heq] at hcopied
    exact hcopied
  next root nodes heq =>
    rw [heq] at hcopied
    rw [look_emerge hf]
    exact (congrFun (Arena.look_rename hf _ _ _) id).trans hcopied

theorem look_publish (prefab : Prefab) (h : id < w.nodes.size) :
    (w.publish prefab).nodes.look f id = w.nodes.look f id := by
  have hcopied : ((w.nodes.moveToOrigin prefab.node).copySubtree prefab.node prefab.anchor
      prefab.placement).2.look f id = w.nodes.look f id := by
    have hlt : id < (w.nodes.moveToOrigin prefab.node).size := by
      rwa [Arena.size_moveToOrigin]
    rw [Arena.look_copySubtree hf _ _ _ hlt, Arena.look_moveToOrigin hf]
  rw [publish]
  generalize (w.nodes.moveToOrigin prefab.node).copySubtree prefab.node prefab.anchor
    prefab.placement = copied at hcopied ⊢
  generalize w.prefabs.register prefab.identifier prefab.node = registration
  obtain ⟨copy, nodes⟩ := copied
  obtain ⟨registered, prefabs⟩ := registration
  obtain ⟨frozen, hfrozen⟩ : ∃ frozen : World H, frozen = { w with
      nodes := (nodes.freeze prefab.node).rename prefab.node ("Prototype_" ++ prefab.identifier)
      prefabs } := ⟨_, rfl⟩
  have hlook : frozen.nodes.look f id = w.nodes.look f id := by
    rw [hfrozen]
    dsimp only
    rw [Arena.look_rename hf, Arena.look_freeze hf, hcopied]
  have hcopy (root : NodeId) (ids : List NodeId) (name : String) :
      ((frozen.nodes.modifyAll ids fun node => { node with dead := true }).rename root name).look f id =
        w.nodes.look f id := by
    rw [Arena.look_rename hf, Arena.look_touchAll hf, hlook]
    exact fun _ => ⟨rfl, rfl⟩
  simp only [← hfrozen]
  cases registered with
  | ok _ =>
    cases copy with
    | none => exact hlook
    | some root =>
      rw [look_emerge hf]
      exact hcopy root _ _
  | error cause =>
    cases copy with
    | none => exact hlook
    | some root =>
      rw [look_emerge hf]
      exact hcopy root _ _

theorem look_seedBaked (planted : Seed H) (node : NodeId) (bundle : Bundle H) (h : id < w.nodes.size) :
    (w.seedBaked planted node bundle).2.world.nodes.look f id = w.nodes.look f id := by
  rw [seedBaked]
  split
  · rfl
  · split
    · rfl
    · split
      · rfl
      · dsimp only
        split
        · exact look_placeInstance hf _ _ _ _ _ h
        · rfl
        · rfl

theorem look_attachTip (owner : NodeId) (registry : Registry H) (symbol : Char) (bundle : Bundle H)
    (baked : Bool) (h : id < w.nodes.size) :
    (w.attachTip owner registry symbol bundle baked).2.1.nodes.look f id = w.nodes.look f id := by
  unfold attachTip
  split
  · rfl
  · exact (congrFun (Arena.look_kill hf _ _) id).trans (Arena.look_addNode hf _ h)

theorem look_fork (w : World H) (closing : Char) (node : NodeId) (bundle : Bundle H) :
    (w.fork closing node bundle).world.nodes.look f = w.nodes.look f := by
  have hcore := w.nodes_coreOrWarn "split" node bundle
  unfold fork
  split
  next later heq =>
    rw [heq] at hcore
    exact (Arena.look_destroy hf _ _).trans (congrArg (Arena.look f) hcore)
  next core later heq =>
    rw [heq] at hcore
    dsimp only
    split
    · exact congrArg (Arena.look f) hcore
    · exact (Arena.look_destroy hf _ _).trans (congrArg (Arena.look f) hcore)

theorem look_pause (w : World H) (minSeconds maxSeconds : Float) (node : NodeId) (bundle : Bundle H)
    (baked : Bool) :
    (w.pause minSeconds maxSeconds node bundle baked).world.nodes.look f = w.nodes.look f := by
  have hcore := w.nodes_coreOrWarn "pause" node bundle
  unfold pause
  split
  next later heq =>
    rw [heq] at hcore
    exact (Arena.look_destroy hf _ _).trans (congrArg (Arena.look f) hcore)
  next core later heq =>
    rw [heq] at hcore
    split
    · exact congrArg (Arena.look f) hcore
    · exact congrArg (Arena.look f) hcore

theorem look_move (w : World H) (distanceMin distanceMax : Float) (node : NodeId) (bundle : Bundle H) :
    (w.move distanceMin distanceMax node bundle).world.nodes.look f = w.nodes.look f := by
  unfold move
  dsimp only
  split
  · rw [nodes_carryOnOrWarn]
    exact Arena.look_place hf _ _ _
  · rw [nodes_carryOnOrWarn]
    rfl

/-- A branch draws nothing when it begins. -/
theorem look_branch {w : World Empty} {bundle : Bundle Empty} (shape : BranchShape) (node : NodeId)
    (baked : Bool) (h : id < w.nodes.size) :
    (w.branch shape node bundle baked).world.nodes.look f id = w.nodes.look f id := by
  cases hcore : bundle.core with
  | error missing =>
    simp only [branch, coreOrWarn, hcore]
    rfl
  | ok core =>
  cases hheading : bundle.vec3? Key.heading with
  | none =>
    simp only [branch, coreOrWarn, hcore, hheading]
    rfl
  | some heading =>
  cases hnode : w.nodes.get? node with
  | none =>
    simp only [branch, coreOrWarn, hcore, hheading, hnode, ite_self]
  | some state =>
    have hplaced : (w.mapNodes (·.place node (·.face heading))).nodes.look f id = w.nodes.look f id :=
      congrFun (Arena.look_place hf _ _ _) id
    obtain hnothing | ⟨placed, grow, rfl, -, ⟨-, hworld, -⟩ | ⟨symbol, -, hworld, -⟩⟩ :=
      branch_eq hcore hheading shape hnode baked
    · rw [hnothing]
    · rw [hworld, hplaced]
    · have hlt : id < (w.mapNodes (·.place node (·.face heading))).nodes.size :=
        (Arena.size_modify _ _ _).symm ▸ h
      rw [hworld, look_attachTip hf _ _ _ _ _ hlt, hplaced]

end

/-- Recording an outline draws at one node, and no branch there. -/
theorem look_record (unfolding : Unfolding H) (w : World H) (blade : Option Blade)
    (h : id ≠ unfolding.node ∨ ∀ state blade, f { state with blade } = f state) :
    (unfolding.record w blade).nodes.look f id = w.nodes.look f id := by
  rcases h with hne | hblind
  · exact Arena.look_modify_of_ne hne _ _
  · exact congrFun (Arena.look_modify _ _ fun state => hblind state blade) id

/-- **A leaf draws at its own node**, and no branch there. -/
theorem look_leaf (hf : Node.Draws f) (w : World H) (shape : LeafShape) (node : NodeId)
    (bundle : Bundle H) (baked : Bool)
    (h : id ≠ node ∨ ∀ state blade, f { state with blade } = f state) :
    (w.leaf shape node bundle baked).world.nodes.look f id = w.nodes.look f id := by
  have hfacing (heading : Vec3) (warnings : Array Warning) :
      (w.facing node heading warnings).nodes.look f id = w.nodes.look f id :=
    congrFun (Arena.look_place hf w.nodes node _) id
  have hunfolds := w.unfolds_leaf shape node bundle baked
  generalize w.leaf shape node bundle baked = effect at hunfolds ⊢
  cases hunfolds with
  | nothing _ _ => rfl
  | @bakes heading warnings unfolding blade later hbuds hblade =>
    have hnodes := nodes_bakedOutline (w.facing node heading warnings) unfolding
    rw [hblade] at hnodes
    refine (look_record _ _ _ (hbuds.node ▸ h)).trans ?_
    rw [hnodes]
    exact hfacing heading warnings
  | ripe hbuds => exact (look_record _ _ _ (hbuds.node ▸ h)).trans (hfacing _ _)
  | begins _ => exact hfacing _ _

end World

/-- Handlers other than leaves draw nothing. -/
theorem Handler.look_call_of_ne_leaf (hf : Node.Draws f) {w : World Empty} {handler : Handler Empty}
    (hhandler : ∀ shape, handler ≠ .leaf shape) (node : NodeId) (bundle : Bundle Empty) (baked : Bool)
    (hlt : id < w.nodes.size) :
    (handler.call w node bundle baked).2.world.nodes.look f id = w.nodes.look f id := by
  cases handler with
  | fork closing => exact congrFun (World.look_fork hf w closing node bundle) id
  | pause minSeconds maxSeconds =>
    exact congrFun (World.look_pause hf w minSeconds maxSeconds node bundle baked) id
  | turnRotation eulerMin eulerMax =>
    exact congrArg (Arena.look f · id) (w.nodes_turnRotation eulerMin eulerMax node bundle)
  | turnHeading axis angleMin angleMax =>
    exact congrArg (Arena.look f · id) (w.nodes_turnHeading axis angleMin angleMax node bundle)
  | move distanceMin distanceMax =>
    exact congrFun (World.look_move hf w distanceMin distanceMax node bundle) id
  | branch shape => exact World.look_branch hf shape node baked hlt
  | leaf shape => exact absurd rfl (hhandler shape)
  | seed planted =>
    cases baked with
    | true => exact World.look_seedBaked hf planted node bundle hlt
    | false => exact congrArg (Arena.look f · id) (w.nodes_seedLive planted node bundle)
  | host foreign => exact foreign.elim

/-- **A handler draws no more than a leaf at its own node.** -/
theorem Handler.look_call (hf : Node.Draws f) {w : World Empty} (handler : Handler Empty) (node : NodeId)
    (bundle : Bundle Empty) (baked : Bool) (hlt : id < w.nodes.size)
    (h : id ≠ node ∨ ∀ state blade, f { state with blade } = f state) :
    (handler.call w node bundle baked).2.world.nodes.look f id = w.nodes.look f id := by
  cases handler with
  | leaf shape => exact World.look_leaf hf w shape node bundle baked h
  | _ => exact look_call_of_ne_leaf hf (fun shape heq => by cases heq) node bundle baked hlt

end Handlers

/-! ## Nested work -/

namespace Elongation

theorem look_carryTip (hf : Node.Draws f) (growth : Elongation Empty) (w : World Empty) :
    (growth.carryTip w).nodes.look f = w.nodes.look f := by
  unfold carryTip
  split
  · exact Arena.look_place hf _ _ _
  · rfl

/-- Recording the dimensions of a branch and telling them draws no leaf. -/
theorem blade_report (growth : Elongation Empty) (w : World Empty) (distance : Float) :
    (growth.tellRadius (growth.measure w distance)).nodes.look Node.blade = w.nodes.look Node.blade := by
  have hmeasured : (growth.measure w distance).nodes.look Node.blade = w.nodes.look Node.blade :=
    Arena.look_modify _ _ fun _ => rfl
  unfold tellRadius
  split
  next callback _ =>
    cases callback with
    | topRadius node factor =>
      refine (Arena.look_modify _ node fun _ => ?_).trans hmeasured
      rfl
    | host callback => exact callback.elim
  next => exact hmeasured

theorem blade_finish (growth : Elongation Empty) (w : World Empty) :
    (growth.finish w).world.nodes.look Node.blade = w.nodes.look Node.blade :=
  ({ growth with bottomRadius := growth.radius }.blade_report (growth.carryTip w) _).trans
    (growth.look_carryTip Node.draws_blade w)

theorem blade_ripen (growth : Elongation Empty) (w : World Empty) :
    (growth.ripen w).1.nodes.look Node.blade = w.nodes.look Node.blade :=
  (growth.blade_finish _).trans (Arena.look_place Node.draws_blade w.nodes growth.node _)

end Elongation

namespace World

variable {w later : World Empty} {task : Task Empty} {tasks left : List (Task Empty)} {id : NodeId}
  {blade : Option Blade}

theorem look_dispatch (hf : Node.Draws f) (node : NodeId) (symbol : Char) (prototype : Prototype Empty)
    (s : Sentence) (bundle : Bundle Empty) (baked : Bool) (h : id < w.nodes.size) :
    (w.dispatch node symbol prototype s bundle baked).1.nodes.look f id = w.nodes.look f id := by
  by_cases htakes : bundle.Takes Key.sentence .sentence
  · rw [dispatch_of_takes htakes]
    exact Arena.look_addNode hf _ h
  · rw [dispatch_of_not_takes htakes]
    rfl

theorem look_search (hf : Node.Draws f) (node : NodeId) (chain : Chain Empty) (baked : Bool)
    (h : id < w.nodes.size) : (w.search node chain baked).1.nodes.look f id = w.nodes.look f id := by
  have hfinds := w.finds_search node chain baked
  generalize w.search node chain baked = next at hfinds ⊢
  cases hfinds with
  | found _ _ => exact look_dispatch hf _ _ _ _ _ _ h
  | _ => rfl

theorem look_carryOn (f : Node → α) (w : World Empty) (node : NodeId) (chain : Chain Empty) :
    (w.carryOn node chain).1.nodes.look f = w.nodes.look f := by
  rcases w.carryOn_cases node chain with ⟨heq, -⟩ | ⟨heq, -⟩
  · rw [heq]
  · rw [heq]
    rfl

/-- **A task draws no leaf at an old node**, unless it is a call of a handler there. -/
theorem blade_perform (h : id < w.nodes.size)
    (hcall : ∀ handler bundle baked, task ≠ .call handler id bundle baked) :
    (w.perform task).1.nodes.look Node.blade id = w.nodes.look Node.blade id := by
  cases task with
  | advance node chain baked => exact congrArg (Arena.look _ ·.nodes id) (w.fst_advance node chain baked)
  | search node chain baked => exact look_search Node.draws_blade node chain baked h
  | call handler node bundle baked =>
    refine Handler.look_call Node.draws_blade handler node bundle baked h (Or.inl fun heq => ?_)
    exact hcall handler bundle baked (heq ▸ rfl)
  | carryOn node chain => exact congrFun (look_carryOn _ w node chain) id
  | destroy node => exact congrFun (Arena.look_destroy Node.draws_blade _ _) id
  | park work => rfl
  | carryTip growth => exact congrFun (growth.look_carryTip Node.draws_blade w) id
  | ripen growth => exact congrFun (growth.blade_ripen w) id
  | publish prefab => exact look_publish Node.draws_blade prefab h

/-- New calls are at new nodes. -/
theorem not_mem_perform (h : id < w.nodes.size) (handler : Handler Empty) (bundle : Bundle Empty)
    (baked : Bool) : .call handler id bundle baked ∉ (w.perform task).2 := by
  intro hmem
  rcases w.spawns_perform task.not_isForeign with hnone | ⟨_, _, _, call, others, -, htasks, hothers, hmade⟩
  · exact hnone _ hmem trivial
  · rw [htasks] at hmem
    rcases List.mem_cons.mp hmem with rfl | hother
    · obtain ⟨made, heq⟩ := hmade.call
      cases heq
      exact Nat.lt_irrefl _ h
    · exact hothers _ hother trivial

/-- **A leaf stays in any run that calls no handler at its node.** -/
theorem blade_of_comes (hcomes : Comes w tasks later left)
    (h : w.nodes.look Node.blade id = some blade)
    (hcalls : ∀ handler bundle baked, .call handler id bundle baked ∉ tasks) :
    later.nodes.look Node.blade id = some blade := by
  refine (hcomes.invariant (P := fun w tasks => w.nodes.look Node.blade id = some blade ∧
    ∀ handler bundle baked, .call handler id bundle baked ∉ tasks) ?_ ⟨h, hcalls⟩).1
  rintro w task rest - ⟨hblade, hcalls⟩
  have hlt := Arena.lt_size_of_look hblade
  refine ⟨(blade_perform hlt fun handler bundle baked heq => ?_).trans hblade,
    fun handler bundle baked hmem => ?_⟩
  · exact hcalls handler bundle baked (heq ▸ List.mem_cons_self)
  · rcases List.mem_append.mp hmem with hnew | hold
    · exact not_mem_perform hlt handler bundle baked hnew
    · exact hcalls handler bundle baked (List.mem_cons_of_mem task hold)

end World

end PlantGrowth
