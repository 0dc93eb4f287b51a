import PlantGrowth.Proofs.Changes
import PlantGrowth.Proofs.Moments

/-!
# What the host is shown

Between ticks the host is given the visible nodes. A node drops out of the view when it is destroyed,
and with a whole tree when it becomes part of a prototype; other nodes may keep links to it. Still the
view is a forest without loose ends, and parents come first (`Garden.view_closed`).

What is destroyed is ethereal, so nothing was made after it. For what is hidden the reason is another
one: a node hangs from the node that it was made after for as long as it is shown (`Arena.Hangs`),
because only the root of a prototype is ever taken from where it hangs. A tree is hidden as a whole or
not at all, so neither link of a node that is shown leads to one that is hidden.
-/

namespace PlantGrowth
namespace Arena

/-- What is shown hangs from the node that it was made after. -/
def Hangs (a : Arena) : Prop :=
  ∀ ⦃id node⦄, a.get? id = some node → node.hidden = false → node.parent = node.previous

namespace Hangs

variable {a b : Arena} {root : NodeId} {parent : Option NodeId} {draft : NodeDraft} {state : Node}

/-- Links that stay. -/
theorem of_kept (hangs : a.Hangs) (h : ∀ {id later}, b.get? id = some later → ∃ node,
    a.get? id = some node ∧ later.parent = node.parent ∧ later.previous = node.previous ∧
      later.hidden = node.hidden) : b.Hangs := by
  intro id later hlater hshown
  obtain ⟨node, hnode, hparent, hprevious, hhidden⟩ := h hlater
  rw [hparent, hprevious]
  exact hangs hnode (hhidden.symm.trans hshown)

theorem of_bare? (hangs : a.Hangs) (h : b.bare? = a.bare?) : b.Hangs := by
  refine hangs.of_kept fun hlater => ?_
  obtain ⟨node, hnode, hbare⟩ := exists_of_bare?_eq h hlater
  exact ⟨node, hnode, (congrArg Node.parent hbare :), (congrArg Node.previous hbare :),
    (congrArg Node.hidden hbare :)⟩

theorem of_stays (hangs : a.Hangs) (h : a.Stays b) : b.Hangs := by
  refine hangs.of_kept fun hlater => ?_
  obtain ⟨node, hnode, hstays⟩ := h.exists_before hlater
  exact ⟨node, hnode, hstays.parent, hstays.previous, hstays.hidden⟩

theorem modify (hangs : a.Hangs) {id : NodeId} {change : Node → Node}
    (h : ∀ node, (change node).parent = node.parent ∧ (change node).previous = node.previous ∧
      (change node).hidden = node.hidden) : (a.modify id change).Hangs := by
  refine hangs.of_kept fun {other later} hlater => ?_
  rw [get?_modify] at hlater
  split at hlater
  · obtain ⟨node, hnode, rfl⟩ := Option.map_eq_some_iff.mp hlater
    exact ⟨node, hnode, h node⟩
  · exact ⟨later, hlater, rfl, rfl, rfl⟩

theorem addNode (hangs : a.Hangs) (h : a.Fits draft) : (a.addNode draft).2.Hangs := by
  intro id later hlater hshown
  rcases cases_addNode h hlater with ⟨-, rfl⟩ | ⟨node, hnode, rfl⟩
  · rfl
  · exact (hangs hnode hshown :)

theorem copied (hangs : a.Hangs) (h : a.Copied b root parent) (scene : a.Scene) : b.Hangs := by
  intro id later hlater hshown
  rcases h.cases_get? scene hlater with ⟨node, hnode, rfl⟩ | ⟨before, source, -, -, -, hlinks⟩
  · exact (hangs hnode hshown :)
  · exact hlinks.previous.symm

/-- The root of a prototype is hidden, and all others hang where they hung. -/
theorem seals (hangs : a.Hangs) (h : a.Seals b root) : b.Hangs := by
  intro id later hlater hshown
  obtain ⟨node, hnode, ⟨-, hhidden, -⟩ | ⟨-, rfl⟩⟩ := h.cases_get? hlater
  · rw [hshown] at hhidden
    cases hhidden
  · exact (hangs hnode hshown :)

/-- **Publishing takes nothing that is shown from where it hangs.** -/
theorem published (hangs : a.Hangs) (h : a.Ripe root state) (placement : Transform)
    (name copyName : String) : (a.published root state.previous placement name copyName).Hangs := by
  have hmove := h.scene.stays_moveToOrigin h.get? h.isPresent h.shown
  obtain ⟨later, hmoved, -⟩ := h.moveToOrigin
  have hlt : ∀ p, state.previous = some p → p < (a.moveToOrigin root).size := fun p hp => by
    rw [size_moveToOrigin]
    exact Nat.lt_trans (h.scene.previous h.get? hp).1 (lt_size_of_get? h.get?)
  have hcopied := hmoved.scene.copied_copySubtree hmoved.isPresent hlt placement
  have hdup := h.duplicates placement
  obtain ⟨before, hripe⟩ := hdup.ripe h
  have hseals := hdup.scene.seals_freeze hripe.isPresent name
  have hsealed := ((hangs.of_stays hmove).copied hcopied hmoved.scene).seals hseals
  exact hsealed.of_stays ((hdup.sealed h hseals).stays_finishCopy copyName)

end Hangs
end Arena

namespace World

variable {w later : World Empty} {task : Task Empty}

theorem hangs_emerge (h : w.nodes.Hangs) (variation : Variation) (id : NodeId) :
    (w.emerge variation id).nodes.Hangs := by
  rcases w.emerge_cases variation id with heq | ⟨-, scaling, state, -, -, -, heq⟩
  · rw [heq]
    exact h
  · rw [heq]
    exact h.modify fun _ => ⟨rfl, rfl, rfl⟩

/-- **A task leaves what is shown where it hangs.** -/
theorem Alters.hangs (h : w.Alters task later) (scene : w.nodes.Scene) (hangs : w.nodes.Hangs) :
    later.nodes.Hangs := by
  cases h with
  | redraws hbare _ => exact hangs.of_bare? hbare
  | parks => exact hangs
  | destroys hnodes _ =>
    rw [hnodes]
    exact hangs.modify fun _ => ⟨rfl, rfl, rfl⟩
  | makes hbare hfits hnodes _ =>
    have hmade := (hangs.of_bare? hbare).addNode hfits
    rcases hnodes with hnodes | hnodes
    · rw [hnodes]
      exact hmade
    · rw [hnodes]
      exact hmade.modify fun _ => ⟨rfl, rfl, rfl⟩
  | places hcopied _ _ => exact hangs_emerge (hangs.copied hcopied scene) _ _
  | @publishes prefab state hripe hanchor =>
    refine hangs_emerge ?_ _ _
    rw [nodes_registered, hanchor]
    exact hangs.published hripe _ _ _

end World

namespace Garden

/-- Growth is orderly, and what is shown hangs from the node that it was made after. -/
structure Hung (w : World Empty) (tasks : List (Task Empty)) (waiting : List (Continuation Empty)) :
    Prop where
  ordered : Ordered w tasks waiting
  hangs : w.nodes.Hangs

theorem hung_invariant : Invariant Hung where
  perform := fun h => ⟨orderly_invariant.perform h.ordered,
    (h.ordered.orderly.alters h.ordered.governs.tasks.1).hangs h.ordered.orderly.scene h.hangs⟩
  resume := by
    intro w work waiting h
    refine ⟨orderly_invariant.resume h.ordered, h.hangs.of_kept fun {id later} hlater => ?_⟩
    have hredraws := work.redraws_resume w
    obtain ⟨node, hnode⟩ := Arena.exists_get? (hredraws.size ▸ Arena.lt_size_of_get? hlater)
    obtain ⟨transform, segment, blade, hget, -⟩ := hredraws.node hnode
    rw [← Option.some.inj (hget.symm.trans hlater)]
    exact ⟨node, hnode, rfl, rfl, rfl⟩
  reorder := fun hperm h => ⟨orderly_invariant.reorder hperm h.ordered, h.hangs⟩
  unpark := fun h => ⟨orderly_invariant.unpark h.ordered, h.hangs⟩
  elapse := fun seconds h => ⟨orderly_invariant.elapse seconds h.ordered, h.hangs⟩

theorem hangs_seedbed (plan : PlantPlan) (settings : Settings) :
    (seedbed plan settings).nodes.Hangs := by
  intro id node hnode _
  rw [get?_seedbed] at hnode
  split at hnode
  · rw [← Option.some.inj hnode]
    rfl
  · cases hnode

variable {plan : PlantPlan} {settings : Settings} {garden : Garden} {view : NodeView}

theorem Reached.hangs (h : Reached plan settings garden) : garden.world.nodes.Hangs :=
  (hung_invariant.of_reached
    (fun _ hseed => ⟨ordered_seedbed hseed settings, hangs_seedbed plan settings⟩) h).hangs

/-- The nodes in the view. -/
theorem mem_view : view ∈ garden.view ↔ ∃ node, garden.world.nodes.get? view.id = some node ∧
    node.visible = true ∧ view = NodeView.ofNode view.id node := by
  unfold Garden.view
  rw [List.mem_filterMap]
  constructor
  · rintro ⟨⟨node, id⟩, hmem, hview⟩
    dsimp only at hview
    split at hview
    next hvisible =>
      obtain rfl := Option.some.inj hview
      have hnode : garden.world.nodes.nodes.toList[id]? = some node :=
        List.mem_zipIdx_iff_getElem?.mp hmem
      rw [Array.getElem?_toList] at hnode
      exact ⟨node, hnode, hvisible, rfl⟩
    next => cases hview
  · rintro ⟨node, hnode, hvisible, hview⟩
    refine ⟨(node, view.id), List.mem_zipIdx_iff_getElem?.mpr ?_, ?_⟩
    · rw [Array.getElem?_toList]
      exact hnode
    · dsimp only
      rw [if_pos hvisible, ← hview]

/-- The view lists older nodes first. -/
theorem sorted_view (garden : Garden) : (garden.view.map (·.id)).Pairwise (· < ·) := by
  unfold Garden.view
  rw [List.pairwise_map, List.pairwise_filterMap]
  have hids : (garden.world.nodes.nodes.toList.zipIdx.map (·.2)).Pairwise (· < ·) := by
    rw [List.zipIdx_map_snd]
    exact List.pairwise_lt_range'
  refine (List.pairwise_map.mp hids).imp ?_
  rintro ⟨node, id⟩ ⟨other, later⟩ hlt first hfirst second hsecond
  dsimp only at hfirst hsecond hlt
  split at hfirst
  · split at hsecond
    · rw [← Option.some.inj hfirst, ← Option.some.inj hsecond]
      exact hlt
    · cases hsecond
  · cases hfirst

/-- What the host is shown is a forest without loose ends, and parents come first. -/
structure Closed (garden : Garden) : Prop where
  sorted : (garden.view.map (·.id)).Pairwise (· < ·)
  previous : ∀ view ∈ garden.view, ∀ p, view.previous = some p →
    p < view.id ∧ ∃ above ∈ garden.view, above.id = p
  parent : ∀ view ∈ garden.view, ∀ p, view.parent = some p →
    p < view.id ∧ ∃ above ∈ garden.view, above.id = p
  /-- The parent lists the node once among its children. -/
  children : ∀ view ∈ garden.view, ∀ p, view.parent = some p →
    ∃ above, garden.world.nodes.get? p = some above ∧ above.children.count view.id = 1

/-- **The view is closed** in every garden that is reached, whatever the plan and the settings are. -/
theorem view_closed (h : Reached plan settings garden) : garden.Closed := by
  have scene := h.orderly.scene
  have hprevious : ∀ view ∈ garden.view, ∀ p, view.previous = some p →
      p < view.id ∧ ∃ above ∈ garden.view, above.id = p := by
    intro view hview p hp
    obtain ⟨node, hnode, hvisible, heq⟩ := mem_view.mp hview
    rw [heq] at hp
    replace hp : node.previous = some p := hp
    simp only [Node.visible, Bool.and_eq_true, Bool.not_eq_true'] at hvisible
    obtain ⟨hlt, above, habove, hsolid⟩ := scene.previous hnode hp
    have hpresent : above.destroyed = false := by
      cases hgone : above.destroyed with
      | false => rfl
      | true => exact absurd (scene.gone habove hgone) (by simp [hsolid])
    have hparent : node.parent = some p := (h.hangs hnode hvisible.2).trans hp
    have hshown : above.hidden = false := by
      rcases scene.shown hnode hparent habove with hgone | hhidden
      · exact absurd hgone (by simp [hvisible.1])
      · exact hhidden.symm.trans hvisible.2
    refine ⟨hlt, NodeView.ofNode p above, mem_view.mpr ⟨above, habove, ?_, rfl⟩, rfl⟩
    simp [Node.visible, hpresent, hshown]
  refine ⟨sorted_view garden, hprevious, fun view hview p hp => ?_, fun view hview p hp => ?_⟩
  · obtain ⟨node, hnode, -, heq⟩ := mem_view.mp hview
    rw [heq] at hp
    refine hprevious view hview p ?_
    rw [heq]
    exact scene.parent hnode hp
  · obtain ⟨node, hnode, -, heq⟩ := mem_view.mp hview
    rw [heq] at hp
    replace hp : node.parent = some p := hp
    obtain ⟨-, above, habove, -⟩ := scene.previous hnode (scene.parent hnode hp)
    refine ⟨above, habove, List.count_eq_one_of_mem (scene.nodup_children habove) ?_⟩
    exact (scene.mem_children habove).mpr ⟨node, hnode, hp⟩

/-- Both instances of the shoot are listed. The prototype, of the nodes 2 and 3, is not, and the fork is
gone; nothing that is listed was made after them. -/
theorem hedge_closed : ∃ garden, Reached hedge {} garden ∧
    garden.view.map (fun view => (view.id, view.previous, view.parent)) =
      [(0, none, none), (4, some 0, some 0), (5, some 4, some 4), (6, some 0, some 0),
        (7, some 0, some 0), (8, some 7, some 7)] ∧
    (∀ id ∈ [2, 3], ∃ node ∈ garden.world.nodes.get? id, node.hidden = true) ∧ garden.Closed := by
  obtain ⟨garden, hgarden, hview, hhidden⟩ : ∃ garden ∈ grown? hedge {} 30 0,
      garden.view.map (fun view => (view.id, view.previous, view.parent)) =
        [(0, none, none), (4, some 0, some 0), (5, some 4, some 4), (6, some 0, some 0),
          (7, some 0, some 0), (8, some 7, some 7)] ∧
      ∀ id ∈ [2, 3], ∃ node ∈ garden.world.nodes.get? id, node.hidden = true := by decide +kernel
  have hreached : Reached hedge {} garden := .of_grown? hgarden
  exact ⟨garden, hreached, hview, hhidden, view_closed hreached⟩

end Garden
end PlantGrowth
