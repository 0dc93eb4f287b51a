import PlantGrowth.Proofs.Mentions
import PlantGrowth.Proofs.Scene

/-!
# Work that redraws

Most of what pending work does is to change how nodes look: where they lie, how long and thick their
branches are, the outline of their leaves. `World.Redraws` says of which nodes, and these are always
nodes that the work names.
-/

namespace PlantGrowth

variable {H : Type}

namespace World

/-- Nothing but the looks of the given nodes has changed in the scene. -/
structure Redraws (ids : List NodeId) (w later : World H) : Prop where
  size : later.nodes.size = w.nodes.size
  node : ∀ {id node}, w.nodes.get? id = some node → ∃ transform segment blade,
    later.nodes.get? id = some { node with transform, segment, blade } ∧
      (id ∉ ids → { node with transform, segment, blade } = node)
  prefabs : later.prefabs = w.prefabs
  parked : later.parked = w.parked

namespace Redraws

variable {ids : List NodeId} {w mid later : World H}

theorem of_eq (hnodes : later.nodes = w.nodes) (hprefabs : later.prefabs = w.prefabs)
    (hparked : later.parked = w.parked) : Redraws ids w later := by
  refine ⟨by rw [hnodes], fun {id node} hnode => ?_, hprefabs, hparked⟩
  rw [hnodes]
  exact ⟨node.transform, node.segment, node.blade, hnode, fun _ => rfl⟩

theorem refl (ids : List NodeId) (w : World H) : Redraws ids w w := of_eq rfl rfl rfl

theorem trans (h : Redraws ids w mid) (h' : Redraws ids mid later) : Redraws ids w later := by
  refine ⟨h'.size.trans h.size, fun {id node} hnode => ?_, h'.prefabs.trans h.prefabs,
    h'.parked.trans h.parked⟩
  obtain ⟨transform, segment, blade, hmid, hkept⟩ := h.node hnode
  obtain ⟨transform', segment', blade', hlater, hkept'⟩ := h'.node hmid
  exact ⟨transform', segment', blade', hlater, fun hid => (hkept' hid).trans (hkept hid)⟩

theorem mono {more : List NodeId} (h : Redraws ids w later) (hsubset : ids ⊆ more) :
    Redraws more w later := by
  refine ⟨h.size, fun {id node} hnode => ?_, h.prefabs, h.parked⟩
  obtain ⟨transform, segment, blade, hlater, hkept⟩ := h.node hnode
  exact ⟨transform, segment, blade, hlater, fun hid => hkept fun hmem => hid (hsubset hmem)⟩

theorem modify {node : NodeId} (h : node ∈ ids) {change : Node → Node}
    (hchange : ∀ state, ∃ transform segment blade,
      change state = { state with transform, segment, blade }) (w : World H) :
    Redraws ids w (w.mapNodes (·.modify node change)) := by
  refine ⟨Arena.size_modify _ _ _, fun {id state} hstate => ?_, rfl, rfl⟩
  show ∃ transform segment blade, (w.nodes.modify node change).get? id = _ ∧ _
  rw [Arena.get?_modify]
  by_cases hid : node = id
  · subst hid
    obtain ⟨transform, segment, blade, heq⟩ := hchange state
    rw [if_pos rfl, hstate, Option.map_some, heq]
    exact ⟨transform, segment, blade, rfl, fun hout => absurd h hout⟩
  · rw [if_neg hid]
    exact ⟨state.transform, state.segment, state.blade, hstate, fun _ => rfl⟩

theorem place {node : NodeId} (h : node ∈ ids) (change : Transform → Transform) (w : World H) :
    Redraws ids w (w.mapNodes (·.place node change)) :=
  modify h (fun state => ⟨_, state.segment, state.blade, rfl⟩) w

/-- **What is shown stays in its place when it is redrawn.** -/
theorem stays (h : Redraws ids w later)
    (hshown : ∀ id ∈ ids, ∀ node, w.nodes.get? id = some node → node.hidden = false) :
    w.nodes.Stays later.nodes := by
  refine ⟨h.size, fun {id node} hnode => ?_⟩
  obtain ⟨transform, segment, blade, hlater, hkept⟩ := h.node hnode
  refine ⟨_, hlater, ⟨rfl, rfl, rfl, rfl, rfl, fun _ => rfl, fun h => h, fun h => h,
    fun hhidden => hkept fun hid => ?_⟩, rfl, rfl, rfl, fun h => Or.inl h⟩
  rw [hshown id hid node hnode] at hhidden
  cases hhidden

end Redraws

/-! ## Calls -/

theorem redraws_bakedOutline (ids : List NodeId) (w : World H) (unfolding : Unfolding H) :
    Redraws ids w (w.bakedOutline unfolding).2 := by
  unfold bakedOutline
  split
  · exact Redraws.refl ids w
  · split
    · exact Redraws.refl ids w
    · split
      · exact Redraws.of_eq rfl rfl rfl
      · exact Redraws.refl ids w

theorem redraws_carryOnOrWarn (ids : List NodeId) (w : World H) (handler : String) (node : NodeId)
    (core : Except MissingEntry (Core H)) (bundle : Bundle H) :
    Redraws ids w (w.carryOnOrWarn handler node core bundle).world := by
  unfold carryOnOrWarn
  split
  · exact Redraws.refl ids w
  · exact Redraws.of_eq rfl rfl rfl

theorem redraws_record {unfolding : Unfolding H} {ids : List NodeId} (h : unfolding.node ∈ ids)
    (w : World H) (blade : Option Blade) : Redraws ids w (unfolding.record w blade) :=
  Redraws.modify h (fun state => ⟨state.transform, state.segment, _, rfl⟩) w

theorem redraws_leaf (w : World H) (shape : LeafShape) (node : NodeId) (bundle : Bundle H)
    (baked : Bool) : Redraws [node] w (w.leaf shape node bundle baked).world := by
  have hnode : node ∈ [node] := List.mem_singleton.mpr rfl
  have hfacing (heading : Vec3) (warnings : Array Warning) :
      Redraws [node] w (w.facing node heading warnings) :=
    (Redraws.place hnode (·.face heading) w).trans (Redraws.of_eq rfl rfl rfl)
  have hunfolds := w.unfolds_leaf shape node bundle baked
  generalize w.leaf shape node bundle baked = effect at hunfolds ⊢
  cases hunfolds with
  | nothing _ _ => exact Redraws.of_eq rfl rfl rfl
  | @bakes heading warnings unfolding blade later hbuds hblade =>
    have hbaked := redraws_bakedOutline [node] (w.facing node heading warnings) unfolding
    rw [hblade] at hbaked
    exact ((hfacing _ _).trans hbaked).trans (redraws_record (hbuds.node ▸ hnode) _ _)
  | ripe hbuds => exact (hfacing _ _).trans (redraws_record (hbuds.node ▸ hnode) _ _)
  | begins _ => exact hfacing _ _

/-- A pause that did not give up. -/
theorem redraws_pause {w : World H} {node : NodeId} {bundle : Bundle H} {core : Core H}
    (h : bundle.core = .ok core) (minSeconds maxSeconds : Float) (baked : Bool) :
    Redraws [node] w (w.pause minSeconds maxSeconds node bundle baked).world := by
  unfold pause coreOrWarn
  rw [h]
  cases baked with
  | true => exact Redraws.refl _ _
  | false => exact Redraws.of_eq rfl rfl rfl

theorem redraws_turnRotation (w : World H) (eulerMin eulerMax : Vec3) (node : NodeId)
    (bundle : Bundle H) : Redraws [node] w (w.turnRotation eulerMin eulerMax node bundle).world := by
  unfold turnRotation andDestroy
  dsimp only
  split
  · refine Redraws.trans ?_ (redraws_carryOnOrWarn _ _ _ _ _ _)
    exact Redraws.of_eq rfl rfl rfl
  · refine Redraws.trans ?_ (redraws_carryOnOrWarn _ _ _ _ _ _)
    exact Redraws.of_eq rfl rfl rfl

theorem redraws_turnHeading (w : World H) (axis : Vec3) (angleMin angleMax : Float) (node : NodeId)
    (bundle : Bundle H) :
    Redraws [node] w (w.turnHeading axis angleMin angleMax node bundle).world := by
  unfold turnHeading andDestroy
  dsimp only
  split
  · refine Redraws.trans ?_ (redraws_carryOnOrWarn _ _ _ _ _ _)
    exact Redraws.of_eq rfl rfl rfl
  · refine Redraws.trans ?_ (redraws_carryOnOrWarn _ _ _ _ _ _)
    exact Redraws.of_eq rfl rfl rfl

theorem redraws_move (w : World H) (distanceMin distanceMax : Float) (node : NodeId)
    (bundle : Bundle H) :
    Redraws [node] w (w.move distanceMin distanceMax node bundle).world := by
  unfold move
  dsimp only
  split
  · refine Redraws.trans (Redraws.trans ?_ (Redraws.place (List.mem_singleton.mpr rfl) _ _))
      (redraws_carryOnOrWarn _ _ _ _ _ _)
    exact Redraws.of_eq rfl rfl rfl
  · refine Redraws.trans ?_ (redraws_carryOnOrWarn _ _ _ _ _ _)
    exact Redraws.of_eq rfl rfl rfl

end World

/-- **A handler that hands its chain on redraws its own node**, at most. -/
theorem Handler.redraws_call [Host H] {handler : Handler H} {gone : Bool}
    (hhandler : handler.handsOn? = some gone) {bundle : Bundle H} {core : Core H}
    (hcore : bundle.core = .ok core) (w : World H) (node : NodeId) (baked : Bool) :
    World.Redraws [node] w (handler.call w node bundle baked).2.world := by
  cases handler with
  | pause minSeconds maxSeconds => exact World.redraws_pause hcore minSeconds maxSeconds baked
  | turnRotation eulerMin eulerMax => exact w.redraws_turnRotation eulerMin eulerMax node bundle
  | turnHeading axis angleMin angleMax => exact w.redraws_turnHeading axis angleMin angleMax node bundle
  | move distanceMin distanceMax => exact w.redraws_move distanceMin distanceMax node bundle
  | leaf shape => exact w.redraws_leaf shape node bundle baked
  | fork closing => cases hhandler
  | branch shape => cases hhandler
  | seed planted => cases hhandler
  | host foreign => cases hhandler

/-! ## Branches -/

namespace Elongation

theorem redraws_carryTip (growth : Elongation H) (w : World H) :
    World.Redraws growth.mentioned w (growth.carryTip w) := by
  unfold carryTip
  split
  next tip state htip _ => exact World.Redraws.place (tip_mem_mentioned htip) _ w
  next => exact World.Redraws.refl _ w

theorem redraws_measure (growth : Elongation H) (w : World H) (distance : Float) :
    World.Redraws growth.mentioned w (growth.measure w distance) :=
  World.Redraws.modify node_mem_mentioned (fun state => ⟨state.transform, _, state.blade, rfl⟩) w

/-- Without parts of a host, a branch tells its radius to a node that it names. -/
theorem redraws_tellRadius (growth : Elongation Empty) (w : World Empty) :
    World.Redraws growth.mentioned w (growth.tellRadius w) := by
  unfold tellRadius
  split
  next callback hcallback =>
    cases callback with
    | topRadius node factor =>
      exact World.Redraws.modify (callback_mem_mentioned hcallback (List.mem_singleton.mpr rfl))
        (fun state => ⟨state.transform, _, state.blade, rfl⟩) w
    | host callback => exact callback.elim
  next => exact World.Redraws.refl _ w

/-- Recording the dimensions of a branch and telling them. -/
theorem redraws_report (growth : Elongation Empty) (w : World Empty) (distance : Float) :
    World.Redraws growth.mentioned w (growth.tellRadius (growth.measure w distance)) :=
  (growth.redraws_measure w distance).trans (growth.redraws_tellRadius _)

theorem redraws_finish (growth : Elongation Empty) (w : World Empty) :
    World.Redraws growth.mentioned w (growth.finish w).world :=
  (growth.redraws_carryTip w).trans
    ({ growth with bottomRadius := growth.radius }.redraws_report (growth.carryTip w) _)

theorem redraws_ripen (growth : Elongation Empty) (w : World Empty) :
    World.Redraws growth.mentioned w (growth.ripen w).1 :=
  (World.Redraws.place node_mem_mentioned _ w).trans (growth.redraws_finish _)

end Elongation

/-! ## Resuming -/

/-- **A continuation redraws nodes that it names**, and does nothing else to the scene. -/
theorem Continuation.redraws_resume (work : Continuation Empty) (w : World Empty) :
    World.Redraws work.mentioned w (work.resume w).world := by
  have hresumes := work.resumes w
  generalize work.resume w = resumption at hresumes ⊢
  cases hresumes with
  | grown growth => exact growth.redraws_finish w
  | grows growth radius distance offset =>
    have hreport := Elongation.redraws_report { growth with bottomRadius := radius }
    exact ((World.Redraws.place Elongation.node_mem_mentioned _ w).trans
      (growth.redraws_carryTip _)).trans (hreport _ _)
  | unfolds unfolding elapsed blade => exact World.redraws_record List.mem_cons_self w blade
  | unfolded unfolding blade => exact World.redraws_record List.mem_cons_self w blade
  | emerges scaling done elapsed scale =>
    exact World.Redraws.place (List.mem_singleton.mpr rfl) _ w
  | host work => exact work.elim
  | _ => exact World.Redraws.refl _ w

end PlantGrowth
