import PlantGrowth.Proofs.Hanging

/-!
# The scene of a garden

In a garden every node hangs from the node that it was made after, or from none, so parents are older
than their children and the scene is a forest. `Arena.Scene` says this and what else holds of the
links all the time: nothing comes after or hangs from an ethereal node, a node that is drawn is
hidden exactly if its parent is, and what is hidden is dead and solid.

## What a node keeps

`Node.Outlives` joins a node to the same node later on. Its origin never changes, it is never revived
and never comes back, and once it is hidden it does not change at all: hidden nodes belong to
prototypes, which are what all copies are made from.
-/

namespace PlantGrowth

/-! ## Two states of a node -/

/-- The node, and the same node later on. -/
structure Node.Outlives (node later : Node) : Prop where
  symbol : later.symbol = node.symbol
  previous : later.previous = node.previous
  ethereal : later.ethereal = node.ethereal
  baked : later.baked = node.baked
  prefab : later.prefab = node.prefab
  /-- Only solid nodes are renamed. -/
  name : node.ethereal = true → later.name = node.name
  dead : node.dead = true → later.dead = true
  destroyed : node.destroyed = true → later.destroyed = true
  /-- What is hidden stays as it is. -/
  frozen : node.hidden = true → later = node

/-- The node, and the same node later on, in the same place of the scene. Only an ethereal node can
be gone by then. -/
structure Node.Stays (node later : Node) : Prop extends Node.Outlives node later where
  parent : later.parent = node.parent
  children : later.children = node.children
  hidden : later.hidden = node.hidden
  gone : later.destroyed = true → node.destroyed = true ∨ later.ethereal = true

theorem Node.Outlives.refl (node : Node) : node.Outlives node :=
  ⟨rfl, rfl, rfl, rfl, rfl, fun _ => rfl, fun h => h, fun h => h, fun _ => rfl⟩

theorem Node.Stays.refl (node : Node) : node.Stays node :=
  ⟨Node.Outlives.refl node, rfl, rfl, rfl, fun h => Or.inl h⟩

theorem Node.Outlives.trans {node mid later : Node} (h : node.Outlives mid)
    (h' : mid.Outlives later) : node.Outlives later where
  symbol := h'.symbol.trans h.symbol
  previous := h'.previous.trans h.previous
  ethereal := h'.ethereal.trans h.ethereal
  baked := h'.baked.trans h.baked
  prefab := h'.prefab.trans h.prefab
  name := fun hethereal => (h'.name (h.ethereal.trans hethereal)).trans (h.name hethereal)
  dead := fun hdead => h'.dead (h.dead hdead)
  destroyed := fun hgone => h'.destroyed (h.destroyed hgone)
  frozen := by
    intro hhidden
    obtain rfl := h.frozen hhidden
    exact h'.frozen hhidden

namespace Arena

variable {a b c : Arena} {id other : NodeId} {node : Node}

/-! ## Nodes that are open -/

/-- The node is there and not hidden, nor is the node that it was made after. -/
def Open (a : Arena) (id : NodeId) : Prop :=
  ∃ node, a.get? id = some node ∧ node.hidden = false ∧
    ∀ p previous, node.previous = some p → a.get? p = some previous → previous.hidden = false

theorem Open.lt_size (h : a.Open id) : id < a.size := by
  obtain ⟨node, hnode, -⟩ := h
  exact lt_size_of_get? hnode

/-! ## The scene -/

/-- What holds of the links in a garden all the time. -/
structure Scene (a : Arena) : Prop where
  mem_children : ∀ {id node child}, a.get? id = some node →
    (child ∈ node.children ↔ ∃ state, a.get? child = some state ∧ state.parent = some id)
  nodup_children : ∀ {id node}, a.get? id = some node → node.children.Nodup
  previous : ∀ {id node p}, a.get? id = some node → node.previous = some p →
    p < id ∧ ∃ state, a.get? p = some state ∧ state.ethereal = false
  parent : ∀ {id node p}, a.get? id = some node → node.parent = some p → node.previous = some p
  /-- What hangs from a prototype is part of it. -/
  shown : ∀ {id node p state}, a.get? id = some node → node.parent = some p →
    a.get? p = some state → node.destroyed = true ∨ node.hidden = state.hidden
  sealed : ∀ {id node}, a.get? id = some node → node.hidden = true →
    node.dead = true ∧ node.ethereal = false
  gone : ∀ {id node}, a.get? id = some node → node.destroyed = true → node.ethereal = true

namespace Scene

theorem parent_lt (scene : a.Scene) {p : NodeId} (h : a.get? id = some node)
    (hparent : node.parent = some p) : p < id :=
  (scene.previous h (scene.parent h hparent)).1

/-- The links of the scene agree. -/
theorem joined (scene : a.Scene) : a.Joined :=
  Joined.of_get? scene.mem_children scene.nodup_children fun hnode hparent =>
    Nat.lt_trans (scene.parent_lt hnode hparent) (lt_size_of_get? hnode)

/-- Parents are older than their children, so there is no cycle. -/
theorem forest (scene : a.Scene) : a.Forest fun id => a.size - id where
  mem_children := scene.mem_children
  nodup_children := scene.nodup_children
  rank_lt := by
    intro id state parent h hparent
    have hlt := scene.parent_lt h hparent
    exact Nat.sub_lt_sub_left (Nat.lt_trans hlt (lt_size_of_get? h)) hlt
  rank_le := fun id => Nat.sub_le a.size id

/-- A subtree has no nodes that are older than its root. -/
theorem le_of_mem_subtree (scene : a.Scene) {root : NodeId} (h : other ∈ a.subtree root) :
    root ≤ other := by
  induction root using scene.forest.induction with
  | h root ih =>
    obtain ⟨-, rfl | ⟨child, hchild, hother⟩⟩ := scene.forest.mem_subtree_iff.mp h
    · exact Nat.le_refl _
    · obtain ⟨state, hstate, hparent⟩ := scene.forest.parent_of_mem_branches hchild
      have hlt := scene.parent_lt hstate hparent
      have hle := ih child hchild hother
      exact Nat.le_of_lt (Nat.lt_of_lt_of_le hlt hle)

/-- **A subtree is hidden as a whole or not at all.** -/
theorem hidden_of_mem_subtree (scene : a.Scene) {root : NodeId} {state : Node}
    (hroot : a.get? root = some state) (h : other ∈ a.subtree root) (hnode : a.get? other = some node) :
    node.hidden = state.hidden ∧ node.destroyed = false := by
  induction root using scene.forest.induction generalizing state with
  | h root ih =>
    obtain ⟨hpresent, rfl | ⟨child, hchild, hother⟩⟩ := scene.forest.mem_subtree_iff.mp h
    · obtain rfl : state = node := Option.some.inj (hroot.symm.trans hnode)
      obtain ⟨state', hstate', hstays⟩ := present_iff.mp hpresent
      obtain rfl : state = state' := Option.some.inj (hroot.symm.trans hstate')
      exact ⟨rfl, hstays⟩
    · obtain ⟨below, hbelow, hparent⟩ := scene.forest.parent_of_mem_branches hchild
      obtain ⟨below', hbelow', hstays⟩ := present_iff.mp (mem_branches.mp hchild).1
      obtain rfl : below = below' := Option.some.inj (hbelow.symm.trans hbelow')
      obtain ⟨hhidden, hpresent'⟩ := ih child hchild hbelow hother
      refine ⟨hhidden.trans ?_, hpresent'⟩
      rcases scene.shown hbelow hparent hroot with hgone | heq
      · rw [hstays] at hgone
        cases hgone
      · exact heq

end Scene

/-! ## Two states of an arena -/

/-- Every node is there later on, and outlives. -/
def Extends (a b : Arena) : Prop :=
  ∀ ⦃id node⦄, a.get? id = some node → ∃ later, b.get? id = some later ∧ node.Outlives later

/-- The same nodes are there later on, with the same links; some may be gone. -/
structure Ties (a b : Arena) : Prop where
  size : b.size = a.size
  node : ∀ {id node}, a.get? id = some node → ∃ later, b.get? id = some later ∧
    later.previous = node.previous ∧ later.parent = node.parent ∧ later.children = node.children ∧
    later.ethereal = node.ethereal ∧ (node.destroyed = true → later.destroyed = true) ∧
    (later.destroyed = true → later.ethereal = true)

/-- The same nodes are there later on, each in its place. -/
structure Stays (a b : Arena) : Prop where
  size : b.size = a.size
  node : ∀ {id node}, a.get? id = some node → ∃ later, b.get? id = some later ∧ node.Stays later

/-- No node older than `bound` is hidden or shown again. -/
def Shows (a b : Arena) (bound : NodeId) : Prop :=
  ∀ ⦃id node later⦄, id < bound → a.get? id = some node → b.get? id = some later →
    later.hidden = node.hidden

theorem Extends.refl (a : Arena) : a.Extends a := fun _ _ h => ⟨_, h, Node.Outlives.refl _⟩

theorem Extends.trans (h : a.Extends b) (h' : b.Extends c) : a.Extends c := by
  intro id node hnode
  obtain ⟨mid, hmid, houtlives⟩ := h hnode
  obtain ⟨later, hlater, houtlives'⟩ := h' hmid
  exact ⟨later, hlater, houtlives.trans houtlives'⟩

theorem Extends.size_le (h : a.Extends b) : a.size ≤ b.size := by
  by_contra hlt
  obtain ⟨node, hnode⟩ := exists_get? (Nat.lt_of_not_le hlt)
  obtain ⟨later, hlater, -⟩ := h hnode
  exact absurd (lt_size_of_get? hlater) (Nat.lt_irrefl _)

/-- A hidden node is the same later on. -/
theorem Extends.get?_of_hidden (h : a.Extends b) (hnode : a.get? id = some node)
    (hhidden : node.hidden = true) : b.get? id = some node := by
  obtain ⟨later, hlater, houtlives⟩ := h hnode
  rw [hlater, houtlives.frozen hhidden]

/-- **A node stays open** as long as it and what it was made after are not hidden. -/
theorem Open.of_extends {bound : NodeId} (h : a.Open id) (scene : a.Scene) (hext : a.Extends b)
    (hshows : a.Shows b bound) (hlt : id < bound) : b.Open id := by
  obtain ⟨node, hnode, hhidden, hprevious⟩ := h
  obtain ⟨later, hlater, houtlives⟩ := hext hnode
  refine ⟨later, hlater, (hshows hlt hnode hlater).trans hhidden, fun p state hp hstate => ?_⟩
  rw [houtlives.previous] at hp
  obtain ⟨holder, before, hbefore, -⟩ := scene.previous hnode hp
  exact (hshows (Nat.lt_trans holder hlt) hbefore hstate).trans (hprevious p before hp hbefore)

/-- **With the same links the scene is the same**, as far as what is hidden allows. -/
theorem Ties.scene (h : a.Ties b) (scene : a.Scene)
    (shown : ∀ {id node p state}, b.get? id = some node → node.parent = some p →
      b.get? p = some state → node.destroyed = true ∨ node.hidden = state.hidden)
    (sealed : ∀ {id node}, b.get? id = some node → node.hidden = true →
      node.dead = true ∧ node.ethereal = false) : b.Scene := by
  have hbefore : ∀ {id later}, b.get? id = some later → ∃ node, a.get? id = some node ∧
      later.previous = node.previous ∧ later.parent = node.parent ∧
      later.children = node.children ∧ (later.destroyed = true → later.ethereal = true) := by
    intro id later hlater
    have hlt := lt_size_of_get? hlater
    rw [h.size] at hlt
    obtain ⟨node, hnode⟩ := exists_get? hlt
    obtain ⟨later', hlater', hprevious, hparent, hchildren, -, -, hgone⟩ := h.node hnode
    obtain rfl : later' = later := Option.some.inj (hlater'.symm.trans hlater)
    exact ⟨node, hnode, hprevious, hparent, hchildren, hgone⟩
  refine ⟨?_, ?_, ?_, ?_, shown, sealed, ?_⟩
  · intro id later child hlater
    obtain ⟨node, hnode, -, -, hchildren, -⟩ := hbefore hlater
    rw [hchildren, scene.mem_children hnode]
    constructor
    · rintro ⟨state, hstate, hup⟩
      obtain ⟨state', hstate', -, hparent, -⟩ := h.node hstate
      exact ⟨state', hstate', hparent.trans hup⟩
    · rintro ⟨state', hstate', hup⟩
      obtain ⟨state, hstate, -, hparent, -⟩ := hbefore hstate'
      exact ⟨state, hstate, hparent.symm.trans hup⟩
  · intro id later hlater
    obtain ⟨node, hnode, -, -, hchildren, -⟩ := hbefore hlater
    rw [hchildren]
    exact scene.nodup_children hnode
  · intro id later p hlater hp
    obtain ⟨node, hnode, hprevious, -⟩ := hbefore hlater
    obtain ⟨hlt, state, hstate, hsolid⟩ := scene.previous hnode (hprevious.symm.trans hp)
    obtain ⟨state', hstate', -, -, -, hethereal, -⟩ := h.node hstate
    exact ⟨hlt, state', hstate', hethereal.trans hsolid⟩
  · intro id later p hlater hp
    obtain ⟨node, hnode, hprevious, hparent, -⟩ := hbefore hlater
    rw [hprevious]
    exact scene.parent hnode (hparent.symm.trans hp)
  · intro id later hlater
    obtain ⟨node, hnode, -, -, -, hgone⟩ := hbefore hlater
    exact hgone

namespace Stays

theorem refl (a : Arena) : a.Stays a := ⟨rfl, fun h => ⟨_, h, Node.Stays.refl _⟩⟩

theorem extended (h : a.Stays b) : a.Extends b := by
  intro id node hnode
  obtain ⟨later, hlater, hstays⟩ := h.node hnode
  exact ⟨later, hlater, hstays.toOutlives⟩

theorem shows (h : a.Stays b) (bound : NodeId) : a.Shows b bound := by
  intro id node later _ hnode hlater
  obtain ⟨later', hlater', hstays⟩ := h.node hnode
  obtain rfl : later' = later := Option.some.inj (hlater'.symm.trans hlater)
  exact hstays.hidden

/-- The node of which this is the later state. -/
theorem exists_before (h : a.Stays b) {later : Node} (hlater : b.get? id = some later) :
    ∃ node, a.get? id = some node ∧ node.Stays later := by
  have hlt := lt_size_of_get? hlater
  rw [h.size] at hlt
  obtain ⟨node, hnode⟩ := exists_get? hlt
  obtain ⟨later', hlater', hstays⟩ := h.node hnode
  obtain rfl : later' = later := Option.some.inj (hlater'.symm.trans hlater)
  exact ⟨node, hnode, hstays⟩

theorem ties (h : a.Stays b) (scene : a.Scene) : a.Ties b := by
  refine ⟨h.size, fun {id node} hnode => ?_⟩
  obtain ⟨later, hlater, hstays⟩ := h.node hnode
  refine ⟨later, hlater, hstays.previous, hstays.parent, hstays.children, hstays.ethereal,
    hstays.destroyed, fun hgone => ?_⟩
  rcases hstays.gone hgone with hbefore | hethereal
  · exact hstays.ethereal.trans (scene.gone hnode hbefore)
  · exact hethereal

/-- **The scene stays as it is.** -/
theorem scene (h : a.Stays b) (scene : a.Scene) : b.Scene := by
  refine (h.ties scene).scene scene (fun {id later p state'} hlater hp hstate' => ?_)
    fun {id later} hlater hhidden => ?_
  · obtain ⟨node, hnode, hstays⟩ := h.exists_before hlater
    obtain ⟨state, hstate, hstays'⟩ := h.exists_before hstate'
    rw [hstays.hidden, hstays'.hidden]
    rcases scene.shown hnode (hstays.parent.symm.trans hp) hstate with hgone | heq
    · exact Or.inl (hstays.destroyed hgone)
    · exact Or.inr heq
  · obtain ⟨node, hnode, hstays⟩ := h.exists_before hlater
    obtain ⟨hdead, hsolid⟩ := scene.sealed hnode (hstays.hidden.symm.trans hhidden)
    exact ⟨hstays.dead hdead, hstays.ethereal.trans hsolid⟩

end Stays

/-! ## Making a node -/

section Making

variable {draft : NodeDraft}

/-- What a draft needs for its node to have a place in the scene. -/
def Fits (a : Arena) (draft : NodeDraft) : Prop :=
  ∀ p, draft.previous = some p →
    ∃ state, a.get? p = some state ∧ state.ethereal = false ∧ state.hidden = false

theorem Fits.lt_size (h : a.Fits draft) : ∀ p, draft.previous = some p → p < a.size := by
  intro p hp
  obtain ⟨state, hstate, -⟩ := h p hp
  exact lt_size_of_get? hstate

/-- A node that was there before, after the making. -/
theorem get?_addNode_of_get? (h : a.Fits draft) (hnode : a.get? id = some node) :
    (a.addNode draft).2.get? id = some { node with
      children := node.children ++ (if draft.previous = some id then [a.size] else []) } := by
  have hne : id ≠ a.size := Nat.ne_of_lt (lt_size_of_get? hnode)
  rw [get?_addNode h.lt_size, if_neg hne, hnode, Option.map_some]

theorem get?_addNode_self (h : a.Fits draft) :
    (a.addNode draft).2.get? a.size = some (a.made draft) := by
  rw [get?_addNode h.lt_size, if_pos rfl]

/-- The nodes after the making: those before it, and the new one. -/
theorem cases_addNode (h : a.Fits draft) {later : Node} (hlater : (a.addNode draft).2.get? id = some later) :
    (id = a.size ∧ later = a.made draft) ∨
      ∃ node, a.get? id = some node ∧ later = { node with
        children := node.children ++ (if draft.previous = some id then [a.size] else []) } := by
  rw [get?_addNode h.lt_size] at hlater
  split at hlater
  next heq => exact Or.inl ⟨heq, (Option.some.inj hlater).symm⟩
  next =>
    obtain ⟨node, hnode, rfl⟩ := Option.map_eq_some_iff.mp hlater
    exact Or.inr ⟨node, hnode, rfl⟩

theorem extends_addNode (h : a.Fits draft) : a.Extends (a.addNode draft).2 := by
  intro id node hnode
  refine ⟨_, get?_addNode_of_get? h hnode, rfl, rfl, rfl, rfl, rfl, fun _ => rfl, fun h => h,
    fun h => h, fun hhidden => ?_⟩
  have hother : ¬ draft.previous = some id := by
    intro hp
    obtain ⟨state, hstate, -, hshown⟩ := h id hp
    obtain rfl : state = node := Option.some.inj (hstate.symm.trans hnode)
    rw [hhidden] at hshown
    cases hshown
  rw [if_neg hother, List.append_nil]

theorem shows_addNode (h : a.Fits draft) (bound : NodeId) : a.Shows (a.addNode draft).2 bound := by
  intro id node later _ hnode hlater
  rw [get?_addNode_of_get? h hnode] at hlater
  rw [← Option.some.inj hlater]

/-- **A node can be added to the scene.** -/
theorem Scene.addNode (scene : a.Scene) (h : a.Fits draft) : (a.addNode draft).2.Scene where
  mem_children := (scene.joined.addNode draft).mem_children
  nodup_children := (scene.joined.addNode draft).nodup_children
  previous := by
    intro id later p hlater hp
    have hkept : ∀ {state}, a.get? p = some state → state.ethereal = false →
        ∃ state, (a.addNode draft).2.get? p = some state ∧ state.ethereal = false :=
      fun hstate hsolid => ⟨_, get?_addNode_of_get? h hstate, hsolid⟩
    rcases cases_addNode h hlater with ⟨rfl, rfl⟩ | ⟨node, hnode, rfl⟩
    · obtain ⟨state, hstate, hsolid, -⟩ := h p hp
      exact ⟨lt_size_of_get? hstate, hkept hstate hsolid⟩
    · obtain ⟨hlt, state, hstate, hsolid⟩ := scene.previous hnode hp
      exact ⟨hlt, hkept hstate hsolid⟩
  parent := by
    intro id later p hlater hp
    rcases cases_addNode h hlater with ⟨rfl, rfl⟩ | ⟨node, hnode, rfl⟩
    · exact hp
    · exact (scene.parent hnode hp :)
  shown := by
    intro id later p state hlater hp hstate
    rcases cases_addNode h hlater with ⟨rfl, rfl⟩ | ⟨node, hnode, rfl⟩
    · obtain ⟨before, hbefore, -, hshown⟩ := h p hp
      rw [get?_addNode_of_get? h hbefore] at hstate
      rw [← Option.some.inj hstate]
      exact Or.inr hshown.symm
    · obtain ⟨-, before, hbefore, -⟩ := scene.previous hnode (scene.parent hnode hp)
      rw [get?_addNode_of_get? h hbefore] at hstate
      rw [← Option.some.inj hstate]
      exact (scene.shown hnode hp hbefore :)
  sealed := by
    intro id later hlater hhidden
    rcases cases_addNode h hlater with ⟨rfl, rfl⟩ | ⟨node, hnode, rfl⟩
    · cases hhidden
    · exact (scene.sealed hnode hhidden :)
  gone := by
    intro id later hlater hgone
    rcases cases_addNode h hlater with ⟨rfl, rfl⟩ | ⟨node, hnode, rfl⟩
    · cases hgone
    · exact (scene.gone hnode hgone :)

/-- The new node is open. -/
theorem open_addNode (h : a.Fits draft) : (a.addNode draft).2.Open a.size := by
  refine ⟨_, get?_addNode_self h, rfl, fun p state hp hstate => ?_⟩
  obtain ⟨before, hbefore, -, hshown⟩ := h p hp
  rw [get?_addNode_of_get? h hbefore] at hstate
  rw [← Option.some.inj hstate]
  exact hshown

end Making

/-! ## Anchors -/

/-- **What follows an open node can be anchored there.** -/
theorem Open.fits_nearestAnchor (h : a.Open id) (scene : a.Scene) {draft : NodeDraft}
    (hprevious : draft.previous = a.nearestAnchor id) : a.Fits draft := by
  obtain ⟨node, hnode, hhidden, hback⟩ := h
  intro p hp
  rw [hprevious] at hp
  unfold nearestAnchor anchorWithin at hp
  simp only [hnode] at hp
  split at hp
  · -- An ethereal node was made after a solid one, if after any.
    split at hp
    next previous hpreviousNode =>
      obtain ⟨hlt, state, hstate, hsolid⟩ := scene.previous hnode hpreviousNode
      have hsize := lt_size_of_get? hstate
      obtain ⟨less, hless⟩ := Nat.exists_eq_succ_of_ne_zero (Nat.ne_of_gt (Nat.zero_lt_of_lt hsize))
      rw [hless] at hp
      unfold anchorWithin at hp
      simp only [hstate, hsolid, Bool.false_eq_true, if_false] at hp
      split at hp
      · cases hp
      · obtain rfl : previous = p := Option.some.inj hp
        exact ⟨state, hstate, hsolid, hback previous state hpreviousNode hstate⟩
    next => cases hp
  next hsolid =>
    split at hp
    · cases hp
    · obtain rfl : id = p := Option.some.inj hp
      exact ⟨node, hnode, by simpa using hsolid, hhidden⟩

/-! ## Killing and destroying -/

/-- A change of one node that stays. -/
theorem stays_modify {change : Node → Node}
    (h : ∀ node, a.get? id = some node → node.Stays (change node)) : a.Stays (a.modify id change) := by
  refine ⟨size_modify a id change, fun {other node} hnode => ?_⟩
  rw [get?_modify]
  by_cases heq : id = other
  · subst heq
    rw [if_pos rfl, hnode, Option.map_some]
    exact ⟨_, rfl, h node hnode⟩
  · rw [if_neg heq]
    exact ⟨node, hnode, Node.Stays.refl node⟩

theorem stays_kill (h : ∀ node, a.get? id = some node → node.hidden = false) :
    a.Stays (a.kill id) := by
  refine stays_modify fun node hnode => ⟨⟨rfl, rfl, rfl, rfl, rfl, fun _ => rfl, fun _ => rfl,
    fun h => h, fun hhidden => ?_⟩, rfl, rfl, rfl, fun h => Or.inl h⟩
  rw [h node hnode] at hhidden
  cases hhidden

/-- Only an ethereal node may be destroyed. -/
theorem stays_destroy (h : ∀ node, a.get? id = some node → node.hidden = false ∧ node.ethereal = true) :
    a.Stays (a.destroy id) := by
  refine stays_modify fun node hnode => ⟨⟨rfl, rfl, rfl, rfl, rfl, fun _ => rfl, fun h => h,
    fun _ => rfl, fun hhidden => ?_⟩, rfl, rfl, rfl, fun _ => Or.inr (h node hnode).2⟩
  rw [(h node hnode).1] at hhidden
  cases hhidden

end Arena
end PlantGrowth
