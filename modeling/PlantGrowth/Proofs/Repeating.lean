import PlantGrowth.Proofs.Drawings

/-!
# Leaves that are repeated

Only leaves draw outlines and store them. Whatever else is done in a step, an outline that is seen
afterwards was seen before, at the same node or at the one that the new node is a copy of, and in the
same mode and under the same identifier; and what is stored is the same.

* `Arena.Repeats`: everything drawn was drawn before.
* `World.Alters.exists_of_new`: new nodes show nothing, or what they are copies of.
* `World.Orderly.repeats_perform`, `World.sharedBlades_perform`: **no step but that of a leaf draws or
  stores anything new.**
-/

namespace PlantGrowth

variable {H : Type}

/-- A task lets a leaf act or not. -/
theorem Task.eq_leaf_or (task : Task H) :
    (∃ shape node bundle baked, task = .call (.leaf shape) node bundle baked) ∨
      ∀ shape node bundle baked, task ≠ .call (.leaf shape) node bundle baked := by
  simp only [← not_exists]
  exact em _

/-- A continuation is that of a leaf or not. -/
theorem Continuation.eq_leaf_or (work : Continuation H) :
    (∃ unfolding, work = .leaf unfolding) ∨ ∀ unfolding, work ≠ .leaf unfolding := by
  simp only [← not_exists]
  exact em _

/-! ## Stored outlines -/

namespace World

section

variable (w : World H)

theorem sharedBlades_emerge (variation : Variation) (node : NodeId) :
    (w.emerge variation node).sharedBlades = w.sharedBlades := by
  unfold emerge
  split
  · rfl
  · split
    · rfl
    · rfl

theorem sharedBlades_placeInstance (identifier : String) (prototype : NodeId)
    (parent : Option NodeId) (placement : Transform) (variation : Variation) :
    (w.placeInstance identifier prototype parent placement variation).sharedBlades =
      w.sharedBlades := by
  unfold placeInstance
  split
  · rfl
  · exact sharedBlades_emerge _ _ _

theorem sharedBlades_publish (prefab : Prefab) :
    (w.publish prefab).sharedBlades = w.sharedBlades := by
  rw [publish]
  generalize (w.nodes.moveToOrigin prefab.node).copySubtree prefab.node prefab.anchor
    prefab.placement = copied
  generalize w.prefabs.register prefab.identifier prefab.node = registration
  obtain ⟨copy, nodes⟩ := copied
  obtain ⟨registered, prefabs⟩ := registration
  cases registered with
  | ok _ =>
    cases copy with
    | none => rfl
    | some root =>
      simp only [sharedBlades_emerge, mapNodes]
  | error cause =>
    cases copy with
    | none => rfl
    | some root =>
      simp only [sharedBlades_emerge, mapNodes, warn]

theorem sharedBlades_seedBaked (planted : Seed H) (node : NodeId) (bundle : Bundle H) :
    (w.seedBaked planted node bundle).2.world.sharedBlades = w.sharedBlades := by
  rw [seedBaked]
  split
  · rfl
  · split
    · rfl
    · split
      · rfl
      · dsimp only
        split
        · exact sharedBlades_placeInstance _ _ _ _ _ _
        · rfl
        · rfl

theorem sharedBlades_seedLive (planted : Seed H) (node : NodeId) (bundle : Bundle H) :
    (w.seedLive planted node bundle).2.world.sharedBlades = w.sharedBlades := by
  rw [seedLive]
  split
  · rfl
  · rfl

theorem sharedBlades_fork (closing : Char) (node : NodeId) (bundle : Bundle H) :
    (w.fork closing node bundle).world.sharedBlades = w.sharedBlades := by
  rw [fork, coreOrWarn]
  cases bundle.core with
  | error missing => rfl
  | ok core =>
    dsimp only
    split
    · rfl
    · rfl

theorem sharedBlades_pause (minSeconds maxSeconds : Float) (node : NodeId) (bundle : Bundle H)
    (baked : Bool) :
    (w.pause minSeconds maxSeconds node bundle baked).world.sharedBlades = w.sharedBlades := by
  rw [pause, coreOrWarn]
  cases bundle.core with
  | error missing => rfl
  | ok core =>
    cases baked with
    | true => rfl
    | false => rfl

theorem sharedBlades_turnRotation (eulerMin eulerMax : Vec3) (node : NodeId) (bundle : Bundle H) :
    (w.turnRotation eulerMin eulerMax node bundle).world.sharedBlades = w.sharedBlades := by
  rw [turnRotation]
  cases bundle.rotation? Key.rotation <;> cases bundle.core <;> rfl

theorem sharedBlades_turnHeading (axis : Vec3) (angleMin angleMax : Float) (node : NodeId)
    (bundle : Bundle H) :
    (w.turnHeading axis angleMin angleMax node bundle).world.sharedBlades = w.sharedBlades := by
  rw [turnHeading]
  cases bundle.vec3? Key.heading <;> cases bundle.core <;> rfl

theorem sharedBlades_move (distanceMin distanceMax : Float) (node : NodeId) (bundle : Bundle H) :
    (w.move distanceMin distanceMax node bundle).world.sharedBlades = w.sharedBlades := by
  rw [move]
  cases bundle.vec3? Key.heading <;> cases bundle.core <;> rfl

theorem sharedBlades_attachTip (owner : NodeId) (registry : Registry H) (symbol : Char)
    (bundle : Bundle H) (baked : Bool) :
    (w.attachTip owner registry symbol bundle baked).2.1.sharedBlades = w.sharedBlades := by
  rw [attachTip]
  cases registry.find? symbol with
  | none => rfl
  | some prototype => rfl

theorem sharedBlades_branch (shape : BranchShape) (node : NodeId) (bundle : Bundle H)
    (baked : Bool) :
    (w.branch shape node bundle baked).world.sharedBlades = w.sharedBlades := by
  rw [branch, coreOrWarn]
  cases bundle.core with
  | error missing => rfl
  | ok core =>
    dsimp only
    split
    · rfl
    · split
      · rfl
      · split
        · rfl
        · cases shape.tipSymbol with
          | none => cases baked <;> rfl
          | some symbol =>
            cases baked <;> exact sharedBlades_attachTip _ _ _ _ _ _

end

end World

namespace Elongation

theorem sharedBlades_carryTip (growth : Elongation H) (w : World H) :
    (growth.carryTip w).sharedBlades = w.sharedBlades := by
  unfold carryTip
  split
  · rfl
  · rfl

theorem sharedBlades_tellRadius (growth : Elongation Empty) (w : World Empty) :
    (growth.tellRadius w).sharedBlades = w.sharedBlades := by
  unfold tellRadius
  split
  next callback _ =>
    cases callback with
    | topRadius node factor => rfl
    | host callback => exact callback.elim
  next => rfl

theorem sharedBlades_finish (growth : Elongation Empty) (w : World Empty) :
    (growth.finish w).world.sharedBlades = w.sharedBlades :=
  (sharedBlades_tellRadius _ _).trans (growth.sharedBlades_carryTip w)

end Elongation

/-! ## Drawings that are repeated -/

/-- What is drawn at a node of `b` is drawn at one of `a`, in the same mode and under the same
identifier. -/
def Arena.Repeats (a b : Arena) : Prop :=
  ∀ ⦃id later⦄, b.get? id = some later → later.blade = none ∨ ∃ other node, a.get? other = some node ∧
    node.blade = later.blade ∧ node.baked = later.baked ∧ node.prefab = later.prefab

namespace Arena

variable {a b : Arena} {id : NodeId} {node : Node}

theorem Repeats.refl (a : Arena) : a.Repeats a :=
  fun id node hnode => Or.inr ⟨id, node, hnode, rfl, rfl, rfl⟩

/-- Nodes that are there later on, with the same leaves, and new ones that show nothing new. -/
theorem Repeats.of_extends (hext : a.Extends b)
    (hlook : ∀ id < a.size, b.look Node.blade id = a.look Node.blade id)
    (hnew : ∀ id later, a.size ≤ id → b.get? id = some later → later.blade = none ∨
      ∃ other node, a.get? other = some node ∧ node.Resembles later) : a.Repeats b := by
  intro id later hlater
  by_cases hlt : id < a.size
  · obtain ⟨node, hnode⟩ := exists_get? hlt
    obtain ⟨after, hafter, houtlives⟩ := hext hnode
    obtain rfl : after = later := Option.some.inj (hafter.symm.trans hlater)
    have hblade := hlook id hlt
    rw [look_of_get? hlater, look_of_get? hnode] at hblade
    exact Or.inr ⟨id, node, hnode, (Option.some.inj hblade).symm, houtlives.baked.symm,
      houtlives.prefab.symm⟩
  · rcases hnew id later (Nat.le_of_not_lt hlt) hlater with hnone | ⟨other, node, hnode, hresembles⟩
    · exact Or.inl hnone
    · exact Or.inr ⟨other, node, hnode, hresembles.blade.symm, hresembles.baked.symm,
        hresembles.prefab.symm⟩

theorem Repeats.of_modify (a : Arena) (id : NodeId) {change : Node → Node}
    (h : ∀ node, (change node).blade = node.blade ∧ (change node).baked = node.baked ∧
      (change node).prefab = node.prefab) : a.Repeats (a.modify id change) := by
  intro other later hlater
  rw [get?_modify] at hlater
  split at hlater
  · obtain ⟨node, hnode, rfl⟩ := Option.map_eq_some_iff.mp hlater
    obtain ⟨hblade, hbaked, hprefab⟩ := h node
    exact Or.inr ⟨other, node, hnode, hblade.symm, hbaked.symm, hprefab.symm⟩
  · exact Or.inr ⟨other, later, hlater, rfl, rfl, rfl⟩

/-- The new nodes of a publication are copies. -/
theorem Ripe.exists_of_published {root : NodeId} {state later : Node} (h : a.Ripe root state)
    {placement : Transform} {name copyName : String} (hlarge : a.size ≤ id)
    (hlater : (a.published root state.previous placement name copyName).get? id = some later) :
    ∃ other node, a.get? other = some node ∧ node.Resembles later := by
  obtain ⟨moved, hmoved, -⟩ := h.moveToOrigin
  have hlt : ∀ p, state.previous = some p → p < (a.moveToOrigin root).size := fun p hp => by
    rw [size_moveToOrigin]
    exact Nat.lt_trans (h.scene.previous h.get? hp).1 (lt_size_of_get? h.get?)
  have hcopied := hmoved.scene.copied_copySubtree hmoved.isPresent hlt placement
  have hdup := h.duplicates placement
  obtain ⟨before, hripe⟩ := hdup.ripe h
  have hseals := hdup.scene.seals_freeze hripe.isPresent name
  have hget := (hdup.sealed h hseals).get?_finishCopy copyName id
  rw [hdup.get?_of_seals hseals h.scene (lt_size_of_get? h.get?) hlarge, if_pos hlarge] at hget
  obtain ⟨copy, hcopy, heq⟩ := Option.map_eq_some_iff.mp (hget.symm.trans hlater)
  rcases hcopied.cases_get? hmoved.scene hcopy with
    ⟨old, hold, -⟩ | ⟨other, source, -, -, hsource, hlinks⟩
  · have hsmall := lt_size_of_get? hold
    rw [size_moveToOrigin] at hsmall
    exact absurd hsmall (Nat.not_lt_of_le hlarge)
  · have hother := lt_size_of_get? hsource
    rw [size_moveToOrigin] at hother
    obtain ⟨node, hnode⟩ := exists_get? hother
    obtain ⟨transform, htransform, -⟩ := h.scene.exists_of_moveToOrigin h.isPresent hnode
    obtain rfl := Option.some.inj (htransform.symm.trans hsource)
    refine ⟨other, node, hnode, ?_⟩
    have hcopy' : node.Resembles copy :=
      ⟨hlinks.resembles.symbol, hlinks.resembles.ethereal, hlinks.resembles.baked,
        hlinks.resembles.prefab, hlinks.resembles.segment, hlinks.resembles.blade⟩
    refine hcopy'.trans ?_
    rw [← heq]
    split
    · exact ⟨rfl, rfl, rfl, rfl, rfl, rfl⟩
    · exact ⟨rfl, rfl, rfl, rfl, rfl, rfl⟩

end Arena

namespace World

variable {w later : World Empty} {task : Task Empty} {id : NodeId}

/-- Letting an instance grow in changes no more of its node than its placement. -/
theorem exists_of_emerge (w : World H) (variation : Variation) (first : NodeId) {node : Node}
    (h : (w.emerge variation first).nodes.get? id = some node) :
    ∃ before, w.nodes.get? id = some before ∧ before.Resembles node := by
  rcases w.emerge_cases variation first with heq | ⟨-, scaling, state, -, -, -, heq⟩
  · rw [heq] at h
    exact ⟨node, h, ⟨rfl, rfl, rfl, rfl, rfl, rfl⟩⟩
  · rw [heq] at h
    replace h : (w.nodes.place first _).get? id = some node := h
    rw [Arena.get?_place] at h
    obtain ⟨before, hbefore, rfl⟩ := Option.map_eq_some_iff.mp h
    refine ⟨before, hbefore, ?_⟩
    split
    · exact ⟨rfl, rfl, rfl, rfl, rfl, rfl⟩
    · exact ⟨rfl, rfl, rfl, rfl, rfl, rfl⟩

/-- **New nodes show nothing, or what they are copies of.** -/
theorem Alters.exists_of_new (h : w.Alters task later) (scene : w.nodes.Scene) {node : Node}
    (hlarge : w.nodes.size ≤ id) (hnode : later.nodes.get? id = some node) :
    node.blade = none ∨ ∃ other source, w.nodes.get? other = some source ∧ source.Resembles node := by
  have hold {state : Node} (hstate : w.nodes.get? id = some state) : False :=
    Nat.not_lt_of_le hlarge (Arena.lt_size_of_get? hstate)
  cases h with
  | redraws hbare _ =>
    obtain ⟨state, hstate, -⟩ := Arena.exists_of_bare?_eq hbare hnode
    exact (hold hstate).elim
  | parks => exact (hold hnode).elim
  | destroys hnodes _ =>
    rw [hnodes, Arena.destroy, Arena.get?_modify] at hnode
    split at hnode
    · obtain ⟨state, hstate, -⟩ := Option.map_eq_some_iff.mp hnode
      exact (hold hstate).elim
    · exact (hold hnode).elim
  | @makes _ _ drawn draft hbare hfits hnodes _ =>
    refine Or.inl ?_
    have hlook : later.nodes.look Node.blade = (drawn.addNode draft).2.look Node.blade := by
      rcases hnodes with hnodes | hnodes
      · rw [hnodes]
      · rw [hnodes, Arena.look_kill Node.draws_blade]
    have hid := (Arena.look_of_get? hnode).symm.trans (congrFun hlook id)
    obtain ⟨made, hmade, hblade⟩ := Option.map_eq_some_iff.mp hid.symm
    rw [← hblade]
    rcases Arena.cases_addNode hfits hmade with ⟨-, rfl⟩ | ⟨state, hstate, -⟩
    · rfl
    · obtain ⟨before, hbefore, -⟩ := Arena.exists_of_bare?_eq hbare hstate
      exact (hold hbefore).elim
  | places hcopied _ _ =>
    obtain ⟨placed, hplaced, hresembles⟩ := exists_of_emerge _ _ _ hnode
    rcases hcopied.cases_get? scene hplaced with
      ⟨state, hstate, -⟩ | ⟨other, source, -, -, hsource, hlinks⟩
    · exact (hold hstate).elim
    · exact Or.inr ⟨other, source, hsource, hlinks.resembles.trans hresembles⟩
  | publishes hripe hanchor =>
    obtain ⟨placed, hplaced, hresembles⟩ := exists_of_emerge _ _ _ hnode
    rw [nodes_registered, hanchor] at hplaced
    obtain ⟨other, source, hsource, hcopy⟩ := hripe.exists_of_published hlarge hplaced
    exact Or.inr ⟨other, source, hsource, hcopy.trans hresembles⟩

/-- **No step draws anything new**, unless a leaf acts. -/
theorem Orderly.repeats_perform {rest : List (Task Empty)} {works : List (Continuation Empty)}
    (h : w.Orderly (task :: rest) works) (hstage : Law.planned.Stage w (task :: rest))
    (hleaf : ∀ shape node bundle baked, task ≠ .call (.leaf shape) node bundle baked) :
    w.nodes.Repeats (w.perform task).1.nodes := by
  obtain ⟨hkeeps, -⟩ := h.perform hstage.1 hstage.2
  refine .of_extends hkeeps.extended (fun id hlt => ?_) fun id later hlarge hlater =>
    (h.alters hstage.1).exists_of_new h.scene hlarge hlater
  by_cases hcall : task.IsCall
  · cases task with
    | call handler node bundle baked =>
      refine Handler.look_call_of_ne_leaf Node.draws_blade (fun shape heq => ?_) node bundle baked hlt
      exact hleaf shape node bundle baked (congrArg (Task.call · node bundle baked) heq)
    | _ => exact hcall.elim
  · refine blade_perform hlt fun handler bundle baked heq => hcall ?_
    rw [heq]
    trivial

/-- **No step stores an outline**, unless a leaf acts. -/
theorem sharedBlades_perform (w : World Empty)
    (hleaf : ∀ shape node bundle baked, task ≠ .call (.leaf shape) node bundle baked) :
    (w.perform task).1.sharedBlades = w.sharedBlades := by
  cases task with
  | advance node chain baked => exact congrArg sharedBlades (w.fst_advance node chain baked)
  | search node chain baked =>
    show (w.search node chain baked).1.sharedBlades = _
    have hfinds := w.finds_search node chain baked
    generalize w.search node chain baked = next at hfinds ⊢
    cases hfinds with
    | @found current symbol prototype s _ _ =>
      by_cases htakes : current.bundle.Takes Key.sentence .sentence
      · rw [dispatch_of_takes htakes]
        rfl
      · rw [dispatch_of_not_takes htakes]
        rfl
    | _ => rfl
  | call handler node bundle baked =>
    cases handler with
    | fork closing => exact w.sharedBlades_fork closing node bundle
    | pause minSeconds maxSeconds =>
      exact w.sharedBlades_pause minSeconds maxSeconds node bundle baked
    | turnRotation eulerMin eulerMax =>
      exact w.sharedBlades_turnRotation eulerMin eulerMax node bundle
    | turnHeading axis angleMin angleMax =>
      exact w.sharedBlades_turnHeading axis angleMin angleMax node bundle
    | move distanceMin distanceMax => exact w.sharedBlades_move distanceMin distanceMax node bundle
    | branch shape => exact w.sharedBlades_branch shape node bundle baked
    | leaf shape => exact absurd rfl (hleaf shape node bundle baked)
    | seed planted =>
      cases baked with
      | true => exact w.sharedBlades_seedBaked planted node bundle
      | false => exact w.sharedBlades_seedLive planted node bundle
    | host foreign => exact foreign.elim
  | carryOn node chain =>
    show (w.carryOn node chain).1.sharedBlades = _
    rcases w.carryOn_cases node chain with ⟨heq, -⟩ | ⟨heq, -⟩
    · rw [heq]
    · rw [heq]
      rfl
  | destroy node => rfl
  | park work => rfl
  | carryTip growth => exact growth.sharedBlades_carryTip w
  | ripen growth => exact growth.sharedBlades_finish _
  | publish prefab => exact w.sharedBlades_publish prefab

end World

namespace Continuation

variable {work : Continuation Empty}

/-- No continuation but that of a leaf draws a leaf or stores one. -/
theorem blade_resume (hleaf : ∀ unfolding, work ≠ .leaf unfolding) (w : World Empty) :
    (work.resume w).world.nodes.look Node.blade = w.nodes.look Node.blade ∧
      (work.resume w).world.sharedBlades = w.sharedBlades := by
  have hresumes := work.resumes w
  generalize work.resume w = resumption at hresumes ⊢
  cases hresumes with
  | grown growth => exact ⟨growth.blade_finish w, growth.sharedBlades_finish w⟩
  | grows growth radius distance offset =>
    refine ⟨?_, (Elongation.sharedBlades_tellRadius _ _).trans (growth.sharedBlades_carryTip _)⟩
    refine (Elongation.blade_report { growth with bottomRadius := radius } _ distance).trans ?_
    exact (growth.look_carryTip Node.draws_blade _).trans
      (Arena.look_place Node.draws_blade w.nodes growth.node _)
  | emerges scaling done elapsed scale =>
    exact ⟨Arena.look_place Node.draws_blade w.nodes scaling.node _, rfl⟩
  | lostLeaf unfolding => exact absurd rfl (hleaf unfolding)
  | unfolds unfolding elapsed blade => exact absurd rfl (hleaf unfolding)
  | unfolded unfolding blade => exact absurd rfl (hleaf unfolding)
  | host work => exact work.elim
  | _ => exact ⟨rfl, rfl⟩

/-- A leaf stores nothing when it is resumed. -/
theorem sharedBlades_resume (work : Continuation Empty) (w : World Empty) :
    (work.resume w).world.sharedBlades = w.sharedBlades := by
  rcases work.eq_leaf_or with ⟨unfolding, rfl⟩ | hleaf
  · have hresumes := (Continuation.leaf unfolding).resumes w
    generalize (Continuation.leaf unfolding).resume w = resumption at hresumes ⊢
    cases hresumes with
    | lostLeaf => rfl
    | unfolds => rfl
    | unfolded => rfl
  · exact (blade_resume hleaf w).2

end Continuation
end PlantGrowth
