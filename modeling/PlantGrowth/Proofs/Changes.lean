import PlantGrowth.Proofs.Leaves
import PlantGrowth.Proofs.Stages

/-!
# What a step changes

Most of what growth does to a node that is there already is to redraw it: to move and to turn it, and
to record its branch or its leaf. The *bare* node is what is left of a node without all this, and a
call of a handler leaves bare nodes alone (`Handler.bare?_call`).

So a step changes the nodes in few ways, which `World.Alters` lists: it redraws some, it destroys one
or makes one, it places an instance of a prototype, or it publishes a prototype. At most one instance
begins to grow in by it.
-/

namespace PlantGrowth

/-! ## Bare nodes -/

/-- The node without what is redrawn of it: where it lies, how it is turned, its branch and its leaf. -/
def Node.bare (node : Node) : Node :=
  { node with
    transform := { Transform.identity with scale := node.transform.scale }
    segment := none
    blade := none }

namespace Arena

/-- The bare node of a name. -/
def bare? (a : Arena) (id : NodeId) : Option Node := (a.get? id).map Node.bare

variable {a b : Arena} {id : NodeId} {node : Node}

theorem bare?_of_get? (h : a.get? id = some node) : a.bare? id = some node.bare := by
  rw [bare?, h, Option.map_some]

theorem bare?_modify (a : Arena) (id : NodeId) {change : Node → Node}
    (h : ∀ node, (change node).bare = node.bare) : (a.modify id change).bare? = a.bare? := by
  funext other
  rw [bare?, bare?, get?_modify]
  split
  · cases a.get? other with
    | none => rfl
    | some node => exact congrArg some (h node)
  · rfl

theorem bare?_place (a : Arena) (id : NodeId) {change : Transform → Transform}
    (h : ∀ t, (change t).scale = t.scale) : (a.place id change).bare? = a.bare? := by
  refine bare?_modify a id fun node => ?_
  simp only [Node.bare, h]

/-- The node of a bare node. -/
theorem exists_of_bare?_eq (h : b.bare? = a.bare?) {later : Node} (hlater : b.get? id = some later) :
    ∃ node, a.get? id = some node ∧ later.bare = node.bare := by
  have hbare := congrFun h id
  rw [bare?_of_get? hlater] at hbare
  obtain ⟨node, hnode, heq⟩ := Option.map_eq_some_iff.mp hbare.symm
  exact ⟨node, hnode, heq.symm⟩

end Arena

/-! ## Handlers -/

section Handlers

variable {H : Type}

theorem Unfolding.bare?_record (unfolding : Unfolding H) (w : World H) (blade : Option Blade) :
    (unfolding.record w blade).nodes.bare? = w.nodes.bare? :=
  w.nodes.bare?_modify unfolding.node fun _ => rfl

namespace World

theorem nodes_bakedOutline (w : World H) (unfolding : Unfolding H) :
    (w.bakedOutline unfolding).2.nodes = w.nodes := by
  unfold bakedOutline
  split
  · rfl
  · split
    · rfl
    · split
      · rfl
      · rfl

theorem nodes_coreOrWarn (w : World H) (handler : String) (node : NodeId) (bundle : Bundle H) :
    (w.coreOrWarn handler node bundle).2.nodes = w.nodes := by
  unfold coreOrWarn
  split
  · rfl
  · rfl

theorem nodes_carryOnOrWarn (w : World H) (handler : String) (node : NodeId)
    (core : Except MissingEntry (Core H)) (bundle : Bundle H) :
    (w.carryOnOrWarn handler node core bundle).world.nodes = w.nodes := by
  unfold carryOnOrWarn
  split
  · rfl
  · rfl

/-- Turns change the bundle only. -/
theorem nodes_turnRotation (w : World H) (eulerMin eulerMax : Vec3) (node : NodeId)
    (bundle : Bundle H) : (w.turnRotation eulerMin eulerMax node bundle).world.nodes = w.nodes := by
  unfold turnRotation andDestroy
  dsimp only
  split
  · rw [nodes_carryOnOrWarn]
    rfl
  · rw [nodes_carryOnOrWarn]
    rfl

theorem nodes_turnHeading (w : World H) (axis : Vec3) (angleMin angleMax : Float) (node : NodeId)
    (bundle : Bundle H) :
    (w.turnHeading axis angleMin angleMax node bundle).world.nodes = w.nodes := by
  unfold turnHeading andDestroy
  dsimp only
  split
  · rw [nodes_carryOnOrWarn]
    rfl
  · rw [nodes_carryOnOrWarn]
    rfl

theorem bare?_move (w : World H) (distanceMin distanceMax : Float) (node : NodeId)
    (bundle : Bundle H) :
    (w.move distanceMin distanceMax node bundle).world.nodes.bare? = w.nodes.bare? := by
  unfold move
  dsimp only
  split
  · rw [nodes_carryOnOrWarn]
    exact w.nodes.bare?_place node fun _ => rfl
  · rw [nodes_carryOnOrWarn]
    rfl

/-- A pause that did not give up. -/
theorem nodes_pause {w : World H} {node : NodeId} {bundle : Bundle H} {core : Core H}
    (h : bundle.core = .ok core) (minSeconds maxSeconds : Float) (baked : Bool) :
    (w.pause minSeconds maxSeconds node bundle baked).world.nodes = w.nodes := by
  unfold pause coreOrWarn
  rw [h]
  cases baked with
  | true => rfl
  | false => rfl

theorem bare?_leaf (w : World H) (shape : LeafShape) (node : NodeId) (bundle : Bundle H)
    (baked : Bool) : (w.leaf shape node bundle baked).world.nodes.bare? = w.nodes.bare? := by
  have hfacing (heading : Vec3) (warnings : Array Warning) :
      (w.facing node heading warnings).nodes.bare? = w.nodes.bare? :=
    w.nodes.bare?_place node fun _ => rfl
  have hunfolds := w.unfolds_leaf shape node bundle baked
  generalize w.leaf shape node bundle baked = effect at hunfolds ⊢
  cases hunfolds with
  | nothing _ _ => rfl
  | @bakes heading warnings unfolding blade later _ hblade =>
    have hnodes := nodes_bakedOutline (w.facing node heading warnings) unfolding
    rw [hblade] at hnodes
    refine (Unfolding.bare?_record _ _ _).trans ?_
    rw [hnodes]
    exact hfacing heading warnings
  | ripe _ => exact (Unfolding.bare?_record _ _ _).trans (hfacing _ _)
  | begins _ => exact hfacing _ _

end World

/-- **A handler that hands its chain on leaves bare nodes alone.** -/
theorem Handler.bare?_call [Host H] {handler : Handler H} {gone : Bool}
    (hhandler : handler.handsOn? = some gone) {bundle : Bundle H} {core : Core H}
    (hcore : bundle.core = .ok core) (w : World H) (node : NodeId) (baked : Bool) :
    (handler.call w node bundle baked).2.world.nodes.bare? = w.nodes.bare? := by
  cases handler with
  | pause minSeconds maxSeconds =>
    exact congrArg Arena.bare? (World.nodes_pause hcore minSeconds maxSeconds baked)
  | turnRotation eulerMin eulerMax =>
    exact congrArg Arena.bare? (w.nodes_turnRotation eulerMin eulerMax node bundle)
  | turnHeading axis angleMin angleMax =>
    exact congrArg Arena.bare? (w.nodes_turnHeading axis angleMin angleMax node bundle)
  | move distanceMin distanceMax => exact w.bare?_move distanceMin distanceMax node bundle
  | leaf shape => exact w.bare?_leaf shape node bundle baked
  | fork closing => cases hhandler
  | branch shape => cases hhandler
  | seed planted => cases hhandler
  | host foreign => cases hhandler

end Handlers

/-! ## Branches and continuations -/

namespace Elongation

theorem bare?_carryTip (growth : Elongation Empty) (w : World Empty) :
    (growth.carryTip w).nodes.bare? = w.nodes.bare? := by
  unfold carryTip
  split
  next tip _ _ _ => exact w.nodes.bare?_place tip fun _ => rfl
  next => rfl

/-- Recording the dimensions of a branch and telling them. -/
theorem bare?_report (growth : Elongation Empty) (w : World Empty) (distance : Float) :
    (growth.tellRadius (growth.measure w distance)).nodes.bare? = w.nodes.bare? := by
  have hmeasured : (growth.measure w distance).nodes.bare? = w.nodes.bare? :=
    w.nodes.bare?_modify growth.node fun _ => rfl
  unfold tellRadius
  split
  next callback _ =>
    cases callback with
    | topRadius node factor =>
      refine (Arena.bare?_modify _ node fun _ => ?_).trans hmeasured
      rfl
    | host callback => exact callback.elim
  next => exact hmeasured

theorem bare?_finish (growth : Elongation Empty) (w : World Empty) :
    (growth.finish w).world.nodes.bare? = w.nodes.bare? :=
  ({ growth with bottomRadius := growth.radius }.bare?_report (growth.carryTip w) _).trans
    (growth.bare?_carryTip w)

theorem bare?_ripen (growth : Elongation Empty) (w : World Empty) :
    (growth.ripen w).1.nodes.bare? = w.nodes.bare? :=
  (growth.bare?_finish _).trans (w.nodes.bare?_place growth.node fun _ => rfl)

end Elongation

/-- The instance that a continuation lets grow in. -/
def Continuation.emergence? {H : Type} : Continuation H → Option Emergence
  | .emergence scaling => some scaling
  | _ => none

/-- **A continuation leaves bare nodes alone**, unless it lets an instance grow in. -/
theorem Continuation.bare?_resume {work : Continuation Empty} (h : work.emergence? = none)
    (w : World Empty) : (work.resume w).world.nodes.bare? = w.nodes.bare? := by
  have hresumes := work.resumes w
  generalize work.resume w = resumption at hresumes ⊢
  cases hresumes with
  | grown growth => exact growth.bare?_finish w
  | grows growth radius distance offset =>
    have hreport := Elongation.bare?_report { growth with bottomRadius := radius }
    exact ((hreport _ _).trans (growth.bare?_carryTip _)).trans
      (w.nodes.bare?_place growth.node fun _ => rfl)
  | unfolds unfolding elapsed blade => exact Unfolding.bare?_record _ w blade
  | unfolded unfolding blade => exact unfolding.bare?_record w blade
  | emerges scaling done elapsed scale => cases h
  | host work => exact work.elim
  | _ => rfl

/-! ## Steps -/

namespace World

/-- The instances that will grow in from the next tick on. -/
def emergences {H : Type} (w : World H) : List Emergence :=
  w.parked.toList.filterMap Continuation.emergence?

variable {w later : World Empty}

theorem emergences_of_parked (h : later.parked = w.parked) : later.emergences = w.emergences := by
  rw [emergences, h]
  rfl

theorem emergences_park (w : World Empty) (work : Continuation Empty) :
    (w.park work).emergences = w.emergences ++ work.emergence?.toList := by
  rw [emergences, park, Array.toList_push, List.filterMap_append]
  congr 1

/-- What doing a task can do to the nodes, and to the instances that grow in. -/
inductive Alters (w : World Empty) : Task Empty → World Empty → Prop where
  /-- Nodes are redrawn, if anything is done to them. -/
  | redraws {task : Task Empty} {later : World Empty} (bare : later.nodes.bare? = w.nodes.bare?)
      (emergences : later.emergences = w.emergences) : Alters w task later
  | parks {work : Continuation Empty} : Alters w (.park work) (w.park work)
  | destroys {task : Task Empty} {later : World Empty} {node : NodeId}
      (nodes : later.nodes = w.nodes.destroy node) (emergences : later.emergences = w.emergences) :
      Alters w task later
  /-- A node is made, and lives or is dead from the beginning. -/
  | makes {task : Task Empty} {later : World Empty} {drawn : Arena} {draft : NodeDraft}
      (bare : drawn.bare? = w.nodes.bare?) (fits : drawn.Fits draft)
      (nodes : later.nodes = (drawn.addNode draft).2 ∨
        later.nodes = (drawn.addNode draft).2.kill drawn.size)
      (emergences : later.emergences = w.emergences) : Alters w task later
  /-- An instance is placed, and may grow in. -/
  | places {planted : Seed Empty} {node : NodeId} {bundle : Bundle Empty} {placed : World Empty}
      {root : NodeId} {parent : Option NodeId} {variation : Variation}
      (copied : w.nodes.Copied placed.nodes root parent)
      (gains : w.nodes.Gains placed.nodes w.nodes.size) (emergences : placed.emergences = w.emergences) :
      Alters w (.call (.seed planted) node bundle true) (placed.emerge variation w.nodes.size)
  /-- A prototype is published, and its first instance may grow in. -/
  | publishes {prefab : Prefab} {state : Node} (ripe : w.nodes.Ripe prefab.node state)
      (anchor : prefab.anchor = state.previous) :
      Alters w (.publish prefab) ((w.registered prefab).emerge prefab.variation w.nodes.size)

namespace Orderly

variable {task : Task Empty} {rest : List (Task Empty)} {works : List (Continuation Empty)}
  {node : NodeId} {chain : Chain Empty} {bundle : Bundle Empty} {baked : Bool}

theorem alters_search (h : w.Orderly (.search node chain baked :: rest) works)
    (hobeys : chain.Obeys Law.planned) :
    w.Alters (.search node chain baked) (w.search node chain baked).1 := by
  have hfinds := w.finds_search node chain baked
  generalize w.search node chain baked = next at hfinds ⊢
  cases hfinds with
  | last _ _ => exact .redraws rfl rfl
  | blank _ _ => exact .redraws rfl rfl
  | ended _ _ => exact .redraws rfl rfl
  | exhausted _ _ _ => exact .redraws rfl rfl
  | found hcurrent hreading =>
    obtain ⟨-, -, -, -, -, heq⟩ :=
      Law.sound_planned.dispatch_of_found hobeys hcurrent hreading node baked
    rw [heq]
    refine .makes rfl ?_ (Or.inl rfl) rfl
    exact (h.head_open node List.mem_cons_self).fits_nearestAnchor h.scene rfl

/-- A tip can be made after the node of a branch that has been turned. -/
theorem fits_tip {shape : BranchShape} (h : w.Orderly (.call (.branch shape) node bundle baked :: rest) works)
    (change : Transform → Transform) (prototype : Prototype Empty) (symbol : Char) :
    (w.nodes.place node change).Fits (prototype.tipDraft symbol node baked) := by
  obtain ⟨state, hserves, -⟩ := h.call _ _ _ _ _ rfl
  rintro p hp
  obtain rfl : node = p := Option.some.inj hp
  have hshown := shown_of_open (h.head_open node List.mem_cons_self) hserves.get?
  refine ⟨{ state with transform := change state.transform }, ?_, hserves.ethereal, hshown⟩
  rw [Arena.get?_place, hserves.get?, Option.map_some, if_pos rfl]

theorem alters_branch {seed : Seed Empty} {s : Sentence} {shape : BranchShape}
    (h : w.Orderly (.call (.branch shape) node bundle baked :: rest) works)
    (hfollows : bundle.Follows seed) (hs : bundle.find? Key.sentence = some (.sentence s)) :
    w.Alters (.call (.branch shape) node bundle baked) (w.branch shape node bundle baked).world := by
  obtain ⟨state, hserves, -⟩ := h.call _ _ _ _ _ rfl
  obtain ⟨heading, hheading⟩ := hfollows.heading
  rcases World.branch_eq (hfollows.core_eq hs) (Bundle.vec3?_of_find? hheading) shape hserves.get? baked
    with hnothing | ⟨placed, grow, rfl, -, ⟨-, hworld, -⟩ | ⟨symbol, -, hworld, -⟩⟩
  · rw [hnothing]
    exact .redraws rfl rfl
  · rw [hworld]
    exact .redraws (w.nodes.bare?_place node fun _ => rfl) rfl
  have hbare : (w.nodes.place node (·.face heading)).bare? = w.nodes.bare? :=
    w.nodes.bare?_place node fun _ => rfl
  rw [hworld]
  cases hfind : seed.registry.find? symbol with
  | none =>
    rw [World.attachTip_of_none hfind]
    exact .redraws hbare rfl
  | some prototype =>
    rw [World.attachTip_of_some hfind]
    exact .makes hbare (h.fits_tip _ prototype symbol) (Or.inr rfl) rfl

theorem alters_seed {planted : Seed Empty}
    (h : w.Orderly (.call (.seed planted) node bundle baked :: rest) works) :
    w.Alters (.call (.seed planted) node bundle baked)
      (w.perform (.call (.seed planted) node bundle baked)).1 := by
  cases baked with
  | false =>
    show w.Alters _ (w.seedLive planted node bundle).2.world
    unfold seedLive
    split
    · exact .redraws rfl rfl
    · exact .redraws rfl rfl
  | true =>
    obtain ⟨state, hserves, -⟩ := h.call _ _ _ _ _ rfl
    have hbakes := planted.bakes_seedBaked hserves.get? bundle
    show w.Alters _ (w.seedBaked planted node bundle).2.world
    generalize (w.seedBaked planted node bundle).2 = effect at hbakes
    cases hbakes with
    | dead _ => exact .redraws rfl rfl
    | unshared _ _ => exact .redraws rfl rfl
    | within _ _ _ hsame =>
      exact .redraws (congrArg Arena.bare? hsame.nodes) (emergences_of_parked hsame.parked)
    | @hit identifier root placement later _ _ hfind hsame =>
      have hfits := h.fits_instance hserves.get?
      have hprototype := h.ready identifier root hfind
      have scene := h.scene
      rw [← hsame.nodes] at hprototype hfits scene
      obtain ⟨copied, hcopied, hgains, heq⟩ := exists_placeInstance scene hprototype hfits identifier
        placement planted.traits.variation
      rw [hsame.nodes] at hcopied hgains heq
      dsimp only
      rw [heq]
      exact .places hcopied hgains (emergences_of_parked hsame.parked)
    | miss _ _ _ _ _ hnodes hparked _ =>
      exact .redraws (congrArg Arena.bare? hnodes) (emergences_of_parked hparked)

/-- **Doing a task alters the nodes in one of these ways.** -/
theorem alters (h : w.Orderly (task :: rest) works) (hheads : Law.planned.Heads w task) :
    w.Alters task (w.perform task).1 := by
  rcases hheads with hobeys | ⟨handler, node, bundle, baked, rfl, hcalls⟩
  · cases task with
    | advance node chain baked =>
      show w.Alters _ (w.advance node chain baked).1
      rw [World.fst_advance]
      exact .redraws rfl rfl
    | search node chain baked => exact h.alters_search hobeys
    | call handler node bundle baked => exact hobeys.elim
    | carryOn node chain =>
      have hparked : (w.parkNext node chain).emergences = w.emergences := by
        rw [World.parkNext, emergences_park]
        exact List.append_nil _
      show w.Alters _ (w.carryOn node chain).1
      rcases w.carryOn_cases node chain with ⟨heq, -⟩ | ⟨heq, -⟩
      · rw [heq]
        exact .redraws rfl rfl
      · rw [heq]
        exact .redraws rfl hparked
    | destroy node => exact .destroys rfl rfl
    | park work => exact .parks
    | carryTip growth =>
      exact .redraws (growth.bare?_carryTip w) (emergences_of_parked (growth.redraws_carryTip w).parked)
    | ripen growth =>
      exact .redraws (growth.bare?_ripen w) (emergences_of_parked (growth.redraws_ripen w).parked)
    | publish prefab =>
      obtain ⟨state, hripe, hanchor⟩ := h.ripe
      have hclaimed : w.prefabs.find? prefab.identifier = some .claimed :=
        (h.claimed _).mpr (List.mem_filterMap.mpr ⟨_, List.mem_cons_self, rfl⟩)
      have heq := publish_eq hripe hanchor hclaimed
      show w.Alters _ (w.publish prefab)
      rw [heq]
      exact .publishes hripe hanchor
  · cases hcalls with
    | root _ _ => exact h.alters_seed
    | @bound seed symbol prototype s state _ hfollows hs _ _ hnode _ =>
      generalize prototype.handler = handler at h
      rcases handler.handsOn_or with
        ⟨gone, hgone⟩ | ⟨closing, rfl⟩ | ⟨shape, rfl⟩ | ⟨planted, rfl⟩
      · have hcore := hfollows.core_eq hs
        exact .redraws (handler.bare?_call hgone hcore w node baked)
          (emergences_of_parked (handler.redraws_call hgone hcore w node baked).parked)
      · show w.Alters _ (w.fork closing node bundle).world
        rw [World.fork_eq hfollows hs closing (congrArg (Option.map (·.symbol)) hnode)]
        split
        · exact .redraws rfl rfl
        · exact .destroys rfl rfl
      · exact h.alters_branch hfollows hs
      · exact h.alters_seed

end Orderly

end World
end PlantGrowth
