import PlantGrowth.Proofs.Changes
import PlantGrowth.Proofs.Parking

/-!
# Instances that begin to grow in

The size of a node is changed in few ways: it is set when the node is placed and when a prototype is
published, and otherwise it is a continuation that lets the node grow in which changes it.

Such continuations come from nowhere but from placing an instance. What a step would have placed
without that can be told by doing the step with growing in switched off (`Task.still`): the instance
has then the size that it is going to have in the end (`World.Orderly.emergences_perform`).
-/

namespace PlantGrowth

/-! ## Sizes -/

namespace Arena

/-- How large the node of a name is. -/
def scale? (a : Arena) (id : NodeId) : Option Float := (a.get? id).map (·.transform.scale)

variable {a b : Arena} {id root : NodeId} {parent : Option NodeId} {draft : NodeDraft} {state : Node}

theorem scale?_of_get? (h : a.get? id = some state) : a.scale? id = some state.transform.scale := by
  rw [scale?, h, Option.map_some]

theorem scale?_of_bare? (h : b.bare? = a.bare?) : b.scale? = a.scale? := by
  have hbare (c : Arena) (id : NodeId) : c.scale? id = (c.bare? id).map (·.transform.scale) := by
    rw [bare?, Option.map_map]
    rfl
  funext id
  rw [hbare, hbare, h]

theorem scale?_modify (a : Arena) (id : NodeId) {change : Node → Node}
    (h : ∀ node, (change node).transform.scale = node.transform.scale) :
    (a.modify id change).scale? = a.scale? := by
  funext other
  rw [scale?, scale?, get?_modify]
  split
  · cases a.get? other with
    | none => rfl
    | some node => exact congrArg some (h node)
  · rfl

theorem scale?_modifyAll (a : Arena) (ids : List NodeId) {change : Node → Node}
    (h : ∀ node, (change node).transform.scale = node.transform.scale) :
    (a.modifyAll ids change).scale? = a.scale? := by
  unfold modifyAll
  induction ids generalizing a with
  | nil => rfl
  | cons first ids ih => rw [List.foldl_cons, ih, scale?_modify a first h]

theorem scale?_hang (a : Arena) (id : NodeId) (parent : Option NodeId) :
    (a.hang id parent).scale? = a.scale? := by
  funext other
  rw [scale?, scale?, get?_hang, Option.map_map]
  rfl

theorem scale?_destroy (a : Arena) (id : NodeId) : (a.destroy id).scale? = a.scale? :=
  scale?_modify a id fun _ => rfl

theorem scale?_kill (a : Arena) (id : NodeId) : (a.kill id).scale? = a.scale? :=
  scale?_modify a id fun _ => rfl

theorem scale?_rename (a : Arena) (id : NodeId) (name : String) :
    (a.rename id name).scale? = a.scale? :=
  scale?_modify a id fun _ => rfl

theorem scale?_freeze (a : Arena) (root : NodeId) : (a.freeze root).scale? = a.scale? := by
  unfold freeze
  dsimp only
  rw [scale?_modifyAll, scale?_hang]
  exact fun _ => rfl

theorem scale?_finishCopy (a : Arena) (first : NodeId) (name : String) :
    (a.finishCopy first name).scale? = a.scale? :=
  (scale?_rename _ first name).trans (a.scale?_modifyAll _ fun _ => rfl)

/-- Only the node that is placed can be resized by that. -/
theorem scale?_place_of_ne {other : NodeId} (h : other ≠ id) (change : Transform → Transform) :
    (a.place id change).scale? other = a.scale? other := by
  rw [scale?, scale?, place, get?_modify, if_neg (Ne.symm h)]

theorem scale?_place_self (h : id < a.size) (change : Transform → Transform) (scale : Float)
    (hscale : ∀ t, (change t).scale = scale) : (a.place id change).scale? id = some scale := by
  obtain ⟨node, hnode⟩ := exists_get? h
  rw [scale?, place, get?_modify, if_pos rfl, hnode]
  exact congrArg some (hscale node.transform)

theorem Fits.scale?_addNode (h : a.Fits draft) (hlt : id < a.size) :
    (a.addNode draft).2.scale? id = a.scale? id := by
  obtain ⟨node, hnode⟩ := exists_get? hlt
  rw [scale?, scale?, get?_addNode_of_get? h hnode, hnode]
  rfl

theorem Copied.scale?_eq (h : a.Copied b root parent) (hlt : id < a.size) :
    b.scale? id = a.scale? id := by
  obtain ⟨node, hnode⟩ := exists_get? hlt
  rw [scale?, scale?, h.kept hnode, hnode]
  rfl

/-- The nodes below the root keep their sizes when a subtree is moved to the origin. -/
theorem scale?_moveToOrigin (a : Arena) (h : id ≠ root) :
    (a.moveToOrigin root).scale? id = a.scale? id := by
  unfold moveToOrigin
  split
  · rfl
  next state _ =>
    rw [scale?_place_of_ne h, scale?_modifyAll a _ fun _ => ?_]
    rfl

/-- **Publishing resizes no node that was there** but the root of the prototype. -/
theorem Ripe.scale?_published (h : a.Ripe root state) (placement : Transform) (name copyName : String)
    (hlt : id < a.size) (hne : id ≠ root) :
    (a.published root state.previous placement name copyName).scale? id = a.scale? id := by
  obtain ⟨later, hmoved, -⟩ := h.moveToOrigin
  have hsize := size_moveToOrigin a root
  have hparent : ∀ p, state.previous = some p → p < (a.moveToOrigin root).size := fun p hp => by
    rw [hsize]
    exact Nat.lt_trans (h.scene.previous h.get? hp).1 (lt_size_of_get? h.get?)
  have hcopied := hmoved.scene.copied_copySubtree hmoved.isPresent hparent placement
  unfold published
  dsimp only
  rw [scale?_finishCopy, scale?_rename, scale?_freeze, hcopied.scale?_eq (hsize.symm ▸ hlt), scale?_moveToOrigin a hne]

end Arena

/-! ## Tasks -/

/-- The instance that a task is going to let grow in. -/
def Task.emergence? {H : Type} : Task H → Option Emergence
  | .park work => work.emergence?
  | _ => none

namespace World

variable {w later : World Empty} {task : Task Empty} {id : NodeId}

theorem scale?_emerge (w : World Empty) (variation : Variation) {other : NodeId} (h : other ≠ id) :
    (w.emerge variation id).nodes.scale? other = w.nodes.scale? other := by
  rcases w.emerge_cases variation id with heq | ⟨-, scaling, state, -, -, -, heq⟩
  · rw [heq]
  · rw [heq]
    exact Arena.scale?_place_of_ne h _

/-- **A task resizes no node that was there**, except that it may publish it. -/
theorem Alters.scale? (h : w.Alters task later) (hlt : id < w.nodes.size)
    (hpublish : ∀ prefab, task = .publish prefab → id ≠ prefab.node) :
    later.nodes.scale? id = w.nodes.scale? id := by
  cases h with
  | redraws hbare _ => rw [Arena.scale?_of_bare? hbare]
  | parks => rfl
  | destroys hnodes _ =>
    rw [hnodes, Arena.scale?_destroy]
  | @makes _ _ drawn _ hbare hfits hnodes _ =>
    have hdrawn := congrFun (Arena.scale?_of_bare? hbare) id
    obtain ⟨node, hnode⟩ := Arena.exists_get? hlt
    have hlt' : id < drawn.size := by
      rw [Arena.scale?_of_get? hnode] at hdrawn
      obtain ⟨state, hget, -⟩ := Option.map_eq_some_iff.mp hdrawn
      exact Arena.lt_size_of_get? hget
    rcases hnodes with hnodes | hnodes
    · rw [hnodes, hfits.scale?_addNode hlt', hdrawn]
    · rw [hnodes, Arena.scale?_kill, hfits.scale?_addNode hlt', hdrawn]
  | places hcopied _ _ =>
    rw [scale?_emerge _ _ (Nat.ne_of_lt hlt), hcopied.scale?_eq hlt]
  | @publishes prefab state hripe hanchor =>
    rw [scale?_emerge _ _ (Nat.ne_of_lt hlt), nodes_registered, hanchor,
      hripe.scale?_published _ _ _ hlt (hpublish prefab rfl)]

/-- **No task that growth sets off lets an instance grow in.** Instances begin to do so when they are
placed. -/
theorem emergence?_perform {task : Task Empty} (hheads : Law.planned.Heads w task) :
    ∀ other ∈ (w.perform task).2, other.emergence? = none := by
  intro other hother
  cases other with
  | park work =>
    obtain ⟨handler, node, bundle, -, hanchor⟩ := left_perform Law.sound_planned hheads hother
    cases work with
    | emergence scaling => cases hanchor
    | _ => rfl
  | _ => rfl

/-! ### Growing in switched off -/

end World

/-- The variation without growing in. -/
def Variation.still (variation : Variation) : Variation := { variation with scaleOnSpawn := false }

/-- The seed whose instances do not grow in. -/
def Seed.still {H : Type} (planted : Seed H) : Seed H :=
  { planted with traits := { planted.traits with variation := planted.traits.variation.still } }

/-- The prefab whose first instance does not grow in. -/
def Prefab.still (prefab : Prefab) : Prefab := { prefab with variation := prefab.variation.still }

/-- The task with growing in switched off. -/
def Task.still {H : Type} : Task H → Task H
  | .call (.seed planted) node bundle baked => .call (.seed planted.still) node bundle baked
  | .publish prefab => .publish prefab.still
  | task => task

namespace World

/-- Nothing has happened from one world to the other but that an instance began to grow in, if that. -/
def Emerged (placed later : World Empty) : Prop :=
  later = placed ∨ ∃ variation id, later = placed.emerge variation id

theorem emerge_still (w : World Empty) (variation : Variation) (id : NodeId) :
    w.emerge variation.still id = w := by
  have hstill : (!variation.still.scaleOnSpawn || w.prefabs.isGrowing) = true := rfl
  rw [emerge, if_pos hstill]

/-- **An instance that begins to grow in** is reset, and is going to have the size that it had. -/
theorem emergences_emerge (w : World Empty) (variation : Variation) (id : NodeId) :
    w.emerge variation id = w ∨ ∃ scaling : Emergence, scaling.node = id ∧
      (w.emerge variation id).emergences = w.emergences ++ [scaling] ∧
      w.nodes.scale? id = some scaling.endScale ∧
      (w.emerge variation id).nodes.scale? id = some 0 := by
  rcases w.emerge_cases variation id with heq | ⟨-, scaling, state, hnode, hstate, hscale, heq⟩
  · exact Or.inl heq
  · refine Or.inr ⟨scaling, hnode, ?_, ?_, ?_⟩
    · rw [heq, emergences_park]
      rfl
    · rw [hscale]
      exact Arena.scale?_of_get? hstate
    · rw [heq]
      exact Arena.scale?_place_self (Arena.lt_size_of_get? hstate) _ 0 fun _ => rfl

/-- An instance that is there grows in, if it is to and no prototype is being grown. -/
theorem emerge_ne {w : World Empty} {variation : Variation} {id : NodeId}
    (hscale : variation.scaleOnSpawn = true) (hidle : w.prefabs.isGrowing = false)
    (h : id < w.nodes.size) : w.emerge variation id ≠ w := by
  obtain ⟨state, hstate⟩ := Arena.exists_get? h
  intro heq
  have hsize := congrArg (fun later : World Empty => later.parked.size) heq
  unfold emerge at hsize
  simp [hscale, hidle, hstate, park, mapNodes] at hsize

theorem still_placeInstance (w : World Empty) (identifier : String) (root : NodeId)
    (parent : Option NodeId) (placement : Transform) (variation : Variation) :
    (w.placeInstance identifier root parent placement variation.still).parked = w.parked ∧
      (w.placeInstance identifier root parent placement variation.still).Emerged
        (w.placeInstance identifier root parent placement variation) := by
  unfold placeInstance
  split
  · exact ⟨rfl, Or.inl rfl⟩
  · rw [emerge_still]
    exact ⟨rfl, Or.inr ⟨_, _, rfl⟩⟩

theorem still_seedBaked (w : World Empty) (planted : Seed Empty) (node : NodeId)
    (bundle : Bundle Empty) :
    (w.seedBaked planted.still node bundle).2.world.parked = w.parked ∧
      (w.seedBaked planted.still node bundle).2.world.Emerged
        (w.seedBaked planted node bundle).2.world := by
  unfold seedBaked
  split
  · exact ⟨rfl, Or.inl rfl⟩
  next state _ =>
    split
    · exact ⟨rfl, Or.inl rfl⟩
    · split
      · exact ⟨rfl, Or.inl rfl⟩
      next identifier _ =>
        have hplacement (position heading : Vec3) :
            w.placement planted.still.traits.variation position heading =
              w.placement planted.traits.variation position heading := rfl
        have hparked (position heading : Vec3) :
            (w.placement planted.traits.variation position heading).2.parked = w.parked := rfl
        dsimp only
        rw [hplacement]
        generalize hdrawn : w.placement planted.traits.variation _ _ = drawn
        have hdrawn' : drawn.2.parked = w.parked := hdrawn ▸ hparked _ _
        obtain ⟨placement, later⟩ := drawn
        dsimp only at hdrawn' ⊢
        generalize later.prefabs.lookup identifier = found
        obtain ⟨found, prefabs⟩ := found
        cases found with
        | hit root =>
          have hplaced := still_placeInstance { later with prefabs } identifier root
            (state.previous.or (some node)) placement planted.traits.variation
          exact ⟨hplaced.1.trans hdrawn', hplaced.2⟩
        | inProgress => exact ⟨hdrawn', Or.inl rfl⟩
        | miss => exact ⟨hdrawn', Or.inl rfl⟩

theorem still_publish {w : World Empty} {prefab : Prefab} {rest : List (Task Empty)}
    {works : List (Continuation Empty)} (h : w.Orderly (.publish prefab :: rest) works) :
    (w.publish prefab.still).parked = w.parked ∧
      (w.publish prefab.still).Emerged (w.publish prefab) := by
  obtain ⟨state, hripe, hanchor⟩ := h.ripe
  have hclaimed : w.prefabs.find? prefab.identifier = some .claimed :=
    (h.claimed _).mpr (List.mem_filterMap.mpr ⟨_, List.mem_cons_self, rfl⟩)
  have hstill := @publish_eq Empty w prefab.still state hripe hanchor hclaimed
  have hplaced : w.publish prefab.still = w.registered prefab := hstill.trans (emerge_still _ _ _)
  rw [hplaced]
  exact ⟨w.parked_registered prefab, Or.inr ⟨_, _, publish_eq hripe hanchor hclaimed⟩⟩

/-! ### Steps -/

variable {w placed later : World Empty}

/-- One instance begins to grow in: it is new, it has the size that it was placed with in the world
where nothing grows in, and none in the other. -/
structure Begins (w placed later : World Empty) (scaling : Emergence) : Prop where
  emergences : later.emergences = w.emergences ++ [scaling]
  new : scaling.node = w.nodes.size
  solid : ∃ node, later.nodes.get? scaling.node = some node ∧ node.ethereal = false
  full : placed.nodes.scale? scaling.node = some scaling.endScale
  reset : later.nodes.scale? scaling.node = some 0

/-- An instance of solid nodes begins to grow in as one. -/
theorem Emerges.begins {bound : NodeId} {variation : Variation}
    (h : Emerges w.nodes bound placed (placed.emerge variation w.nodes.size))
    (hplaced : placed.emergences = w.emergences) :
    (placed.emerge variation w.nodes.size).emergences = w.emergences ∨
      ∃ scaling, w.Begins placed (placed.emerge variation w.nodes.size) scaling := by
  rcases placed.emergences_emerge variation w.nodes.size with
    heq | ⟨scaling, hnode, hadded, hfull, hreset⟩
  · exact Or.inl (heq.symm ▸ hplaced)
  · obtain ⟨state, hstate, -⟩ := Arena.present_iff.mp h.gains.present
    refine Or.inr ⟨scaling, hplaced ▸ hadded, hnode, ⟨state, ?_, ?_⟩, ?_, ?_⟩
    · rw [hnode, hstate]
    · exact (h.gains.new (Nat.le_refl _) hstate).1
    · rw [hnode, hfull]
    · rw [hnode, hreset]

/-- The world in which the instance was placed can be any that comes to the same. -/
theorem Begins.of_emerged {other : World Empty} {scaling : Emergence} (h : w.Begins placed later scaling)
    (hemerged : other.Emerged later) (hother : other.emergences = w.emergences) :
    w.Begins other later scaling := by
  have hadded := h.emergences
  rcases hemerged with rfl | ⟨variation, id, rfl⟩
  · rw [hother] at hadded
    exact absurd hadded (by simp)
  · rcases other.emergences_emerge variation id with heq | ⟨scaling', hnode, hadded', hfull, hreset⟩
    · rw [heq, hother] at hadded
      exact absurd hadded (by simp)
    · rw [hadded', hother, List.append_cancel_left_eq, List.cons.injEq] at hadded
      obtain ⟨rfl, -⟩ := hadded
      exact { h with full := hnode ▸ hfull }

namespace Orderly

variable {task : Task Empty} {rest : List (Task Empty)} {works : List (Continuation Empty)}

/-- **Growing in switched off, a task does the same** but that no instance begins to grow in. -/
theorem emerged_perform (h : w.Orderly (task :: rest) works) :
    (w.perform task.still).1.Emerged (w.perform task).1 := by
  cases task with
  | call handler node bundle baked =>
    cases handler with
    | seed planted =>
      cases baked with
      | true => exact (w.still_seedBaked planted node bundle).2
      | false =>
        show (w.seedLive planted.still node bundle).2.world.Emerged
          (w.seedLive planted node bundle).2.world
        unfold seedLive
        split
        · exact Or.inl rfl
        · exact Or.inl rfl
    | _ => exact Or.inl rfl
  | publish prefab => exact (still_publish h).2
  | _ => exact Or.inl rfl

/-- **A task lets one new instance grow in**, if any. -/
theorem begins_perform (h : w.Orderly (task :: rest) works) (hheads : Law.planned.Heads w task)
    (hplain : task.emergence? = none) :
    (w.perform task).1.emergences = w.emergences ∨
      ∃ scaling, w.Begins (w.perform task.still).1 (w.perform task).1 scaling := by
  have halters := h.alters hheads
  have hemerged := h.emerged_perform
  generalize hlater : (w.perform task).1 = later at halters hemerged ⊢
  cases halters with
  | redraws _ hsame => exact Or.inl hsame
  | @parks work =>
    left
    rw [emergences_park, show work.emergence? = none from hplain]
    exact List.append_nil _
  | destroys _ hsame => exact Or.inl hsame
  | makes _ _ _ hsame => exact Or.inl hsame
  | @places planted node bundle placed root parent variation hcopied hgains hplaced =>
    refine (emerges_emerge hgains variation).begins hplaced |>.imp_right ?_
    rintro ⟨scaling, hbegins⟩
    exact ⟨scaling, hbegins.of_emerged hemerged
      (emergences_of_parked (w.still_seedBaked planted node bundle).1)⟩
  | @publishes prefab state hripe hanchor =>
    have hemerges := h.publication.emerges
    rw [show w.publish prefab = _ from hlater] at hemerges
    refine hemerges.begins (emergences_of_parked (w.parked_registered prefab)) |>.imp_right ?_
    rintro ⟨scaling, hbegins⟩
    exact ⟨scaling, hbegins.of_emerged hemerged (emergences_of_parked (still_publish h).1)⟩

/-- **The first instance of a prototype grows in**, if it is to and no other prototype is being grown. -/
theorem grows_publish {prefab : Prefab} (h : w.Orderly [.publish prefab] works) (hscale : prefab.variation.scaleOnSpawn = true) :
    ∃ scaling, w.Begins (w.publish prefab.still) (w.publish prefab) scaling := by
  obtain ⟨state, hripe, hanchor⟩ := h.ripe
  have hclaimed : w.prefabs.find? prefab.identifier = some .claimed :=
    (h.claimed _).mpr (List.mem_filterMap.mpr ⟨_, List.mem_cons_self, rfl⟩)
  have heq := publish_eq hripe hanchor hclaimed
  obtain ⟨-, new, -, hlater⟩ := h.perform (Or.inl trivial) fun other hother => (by cases hother)
  have hidle : (w.registered prefab).prefabs.isGrowing = false := by
    rw [← h.publication.emerges.prefabs, Bool.eq_false_iff, Ne, PrefabStore.isGrowing_iff]
    rintro ⟨identifier, hfind⟩
    cases (hlater.claimed identifier).mp hfind
  have hlt : w.nodes.size < (w.registered prefab).nodes.size := by
    obtain ⟨copy, hcopy, -⟩ := h.publication.first
    exact Arena.lt_size_of_get? hcopy
  rcases h.begins_perform (Or.inl trivial) rfl with hsame | hbegins
  · rcases (w.registered prefab).emergences_emerge prefab.variation w.nodes.size with
      hnothing | ⟨scaling, -, hadded, -⟩
    · exact absurd hnothing (emerge_ne hscale hidle hlt)
    · replace hsame : (w.publish prefab).emergences = w.emergences := hsame
      rw [heq, hadded, emergences_of_parked (w.parked_registered prefab)] at hsame
      exact absurd hsame (by simp)
  · exact hbegins

end Orderly

end World
end PlantGrowth
