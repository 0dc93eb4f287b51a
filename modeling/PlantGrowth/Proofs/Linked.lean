import PlantGrowth.Proofs.Copies
import PlantGrowth.Proofs.Following

/-!
# Arenas that anything was done to

A garden hangs its nodes below older ones and leaves them there. A program that uses an arena on its
own may hang a node anywhere, make copies of what it has moved and move the copies again, and a node
may then have been made after one with a larger name. So what keeps the loops of an arena finite is
not the age of nodes: it is that no operation closes a cycle of links (`Arena.Linked`).

* `Edit`: what can be done to the links of an arena. `Edit.Proper` asks that the nodes it names are
  there, and that a node is not hung below itself.
* `Linked.edit`: every proper edit keeps an arena linked.
* `Anchors`, `Walks`: what the loop along the previous nodes, and the loop with a stack of nodes still
  to visit, come to. Both are without any limit on their turns, and both relations hold only of loops
  that end.
* `Arena.stays_linked`: in all arenas that proper edits lead to the links agree, there is no cycle,
  and both loops end at every node.
-/

namespace PlantGrowth
namespace Arena

variable {a b : Arena} {id child root : NodeId} {parent : Option NodeId}

/-! ## Edits -/

/-- An operation on an arena, with its arguments. -/
inductive Edit where
  | addNode (draft : NodeDraft)
  | hang (id : NodeId) (parent : Option NodeId)
  | kill (id : NodeId)
  | destroy (id : NodeId)
  | copySubtree (root : NodeId) (parent : Option NodeId) (placement : Transform)

/-- The arena after an edit. -/
def edit (a : Arena) : Edit → Arena
  | .addNode draft => (a.addNode draft).2
  | .hang id parent => a.hang id parent
  | .kill id => a.kill id
  | .destroy id => a.destroy id
  | .copySubtree root parent placement => (a.copySubtree root parent placement).2

/-- What an edit may ask for: nodes are made after, and copies hang from, nodes that are there; a node
that is given a parent is there, and does not lie above that parent. -/
def Edit.Proper (a : Arena) : Edit → Prop
  | .addNode draft => ∀ p, draft.previous = some p → p < a.size
  | .hang id parent => ∀ p, parent = some p → p < a.size →
      id < a.size ∧ ¬ Relation.ReflTransGen (Links a.parent?) p id
  | .kill _ => True
  | .destroy _ => True
  | .copySubtree _ parent _ => ∀ p, parent = some p → p < a.size

/-- An arena that proper edits lead to from the one without nodes. -/
inductive Edited : Arena → Prop where
  | new : Edited {}
  | edit {a : Arena} (h : Edited a) (edit : Edit) (hproper : edit.Proper a) : Edited (a.edit edit)

/-! ## Linked arenas -/

/-- The links of the scene agree, and neither they nor those along which nodes were made have a
cycle. -/
structure Linked (a : Arena) : Prop extends Joined a where
  parents_end : ∀ id, Ends a.parent? id
  previous_lt : ∀ {id p}, a.previous? id = some p → p < a.size
  previous_ends : ∀ id, Ends a.previous? id

/-- The number of nodes below a node ranks the nodes of the scene. -/
theorem Joined.forest (h : a.Joined) (hends : ∀ id, Ends a.parent? id) :
    a.Forest (height (fun p child => a.parent? child = some p) a.size) where
  mem_children := h.mem_children
  nodup_children := h.nodup_children
  rank_lt := by
    intro id state p hstate hup
    refine height_lt (fun id hcycle => ?_) ?_ (lt_size_of_get? hstate)
    · exact (hends id).not_cycle (Relation.transGen_swap.mp hcycle)
    · rw [parent?_of_get? hstate, hup]
  rank_le := fun id => height_le _ _ id

/-- The node that a copy was made of. -/
theorem exists_source (a : Arena) (root : NodeId) :
    ∃ source : NodeId → NodeId, ∀ id ∈ a.subtree root, source (a.copyName root id) = id := by
  refine ⟨fun id => ((a.subtree root)[id - a.size]?).getD root, fun id hid => ?_⟩
  have hlt := List.idxOf_lt_length_iff.mpr hid
  simp [copyName, hlt]

/-- **The links of a copy end**, since they mirror those of the copied nodes or lead to a node that was
there before. -/
theorem Grafted.parents_end (hgraft : a.Grafted b root parent) (h : a.Joined)
    (hends : ∀ id, Ends a.parent? id) (hpresent : a.present root = true)
    (hparent : ∀ p, parent = some p → p < a.size) (id : NodeId) : Ends b.parent? id := by
  have forest := h.forest hends
  obtain ⟨source, hsource⟩ := exists_source a root
  refine ends_of_mirror a.size source hends (fun id p hup => h.parent_lt hup)
    (fun id hlt => (hgraft.kept hlt).1) (fun id p hle hp => ?_) id
  rw [hgraft.parent?_iff h forest hpresent] at hp
  rcases hp with hold | ⟨hp, -⟩ | ⟨above, habove, below, hbelow, rfl, rfl⟩
  · exact absurd (lt_size_of_parent? hold) (Nat.not_lt_of_le hle)
  · exact Or.inl (hparent p hp)
  · have hmem := forest.mem_subtree_of_mem_branches habove hbelow
    refine Or.inr ⟨le_copyName a root above, ?_⟩
    rw [hsource below hmem, hsource above habove]
    exact (h.mem_branches_iff.mp hbelow).2

namespace Linked

theorem new : Linked {} := by
  have hlinks : ∀ id, ({} : Arena).parent? id = none ∧ ({} : Arena).previous? id = none ∧
      ({} : Arena).childrenOf id = [] := fun id => links_of_size_le (Nat.zero_le id)
  refine ⟨⟨fun {child id} => ?_, fun id => ?_⟩, fun id => ?_, fun {id p} h => ?_, fun id => ?_⟩
  · simp [(hlinks id).2.2, (hlinks child).1]
  · simp [(hlinks id).2.2]
  · exact ends_iff.mpr fun p hp => by simp [(hlinks id).1] at hp
  · simp [(hlinks id).2.1] at h
  · exact ends_iff.mpr fun p hp => by simp [(hlinks id).2.1] at hp

variable (h : a.Linked)
include h

theorem forest : a.Forest (height (fun p child => a.parent? child = some p) a.size) :=
  h.toJoined.forest h.parents_end

/-! ## One edit -/

/-- An arena with the same links. -/
theorem of_same (hparent : ∀ id, b.parent? id = a.parent? id)
    (hprevious : ∀ id, b.previous? id = a.previous? id)
    (hchildren : ∀ id, b.childrenOf id = a.childrenOf id) (hsize : b.size = a.size) : b.Linked := by
  have hup : b.parent? = a.parent? := funext hparent
  have hback : b.previous? = a.previous? := funext hprevious
  refine ⟨⟨fun {child id} => ?_, fun id => ?_⟩, fun id => ?_, fun {id p} hp => ?_, fun id => ?_⟩
  · rw [hchildren, hparent, h.mem_childrenOf]
  · rw [hchildren]
    exact h.nodup_childrenOf id
  · rw [hup]
    exact h.parents_end id
  · rw [hprevious] at hp
    rw [hsize]
    exact h.previous_lt hp
  · rw [hback]
    exact h.previous_ends id

/-- A change of one node that leaves its links alone. -/
theorem modify (id : NodeId) (change : Node → Node) (hparent : ∀ node, (change node).parent = node.parent)
    (hprevious : ∀ node, (change node).previous = node.previous)
    (hchildren : ∀ node, (change node).children = node.children) :
    (a.modify id change).Linked := by
  refine h.of_same (fun other => ?_) (fun other => ?_) (fun other => ?_) (size_modify a id change)
  · unfold parent?
    rw [get?_modify]
    by_cases heq : id = other <;> cases a.get? other <;> simp [heq, hparent]
  · unfold previous?
    rw [get?_modify]
    by_cases heq : id = other <;> cases a.get? other <;> simp [heq, hprevious]
  · unfold childrenOf
    rw [get?_modify]
    by_cases heq : id = other <;> cases a.get? other <;> simp [heq, hchildren]

theorem addNode {draft : NodeDraft} (hdraft : ∀ p, draft.previous = some p → p < a.size) :
    (a.addNode draft).2.Linked := by
  have hends : ∀ {next later : NodeId → Option NodeId}, (∀ id, Ends next id) →
      (∀ id p, next id = some p → p < a.size) →
      (∀ id, later id = if id = a.size then draft.previous else next id) →
      (∀ id, a.size ≤ id → next id = none) → ∀ id, Ends later id := by
    -- The new node leads to one that was there before, so its source does not matter.
    intro next later hends hinside hlater hmissing
    refine ends_of_mirror a.size (fun id => id) hends hinside
      (fun id hlt => ?_) fun id other hle hlink => Or.inl ?_
    · rw [hlater, if_neg (Nat.ne_of_lt hlt)]
    · rw [hlater] at hlink
      split at hlink
      · exact hdraft other hlink
      · simp [hmissing id hle] at hlink
  refine ⟨h.toJoined.addNode draft, ?_, fun {id p} hp => ?_, ?_⟩
  · exact hends h.parents_end (fun id p hup => h.parent_lt hup) (parent?_addNode hdraft)
      fun id hle => (links_of_size_le hle).1
  · rw [previous?_addNode hdraft] at hp
    rw [size_addNode]
    split at hp
    · exact Nat.lt_succ_of_lt (hdraft p hp)
    · exact Nat.lt_succ_of_lt (h.previous_lt hp)
  · exact hends h.previous_ends (fun id p hback => h.previous_lt hback) (previous?_addNode hdraft)
      fun id hle => (links_of_size_le hle).2.1

/-- **A node may be hung below any node that does not lie below it.** -/
theorem hang (hplace : ∀ p, parent = some p → p < a.size →
      id < a.size ∧ ¬ Relation.ReflTransGen (Links a.parent?) p id) : (a.hang id parent).Linked := by
  have hfilter : ∀ p, parent.filter a.contains = some p →
      id < a.size ∧ ¬ Relation.ReflTransGen (Links a.parent?) p id := by
    intro p hp
    obtain ⟨hparent, hcontains⟩ := Option.filter_eq_some_iff.mp hp
    exact hplace p hparent (by simpa [contains] using hcontains)
  refine ⟨h.toJoined.hang fun p hp => (hfilter p hp).1, ?_, fun {other p} hp => ?_, ?_⟩
  · refine ends_of_redirect id h.parents_end (fun other hne => ?_) fun p hp => ?_
    · rw [parent?_hang, if_neg fun hboth => hne hboth.1.symm]
    · rw [parent?_hang] at hp
      split at hp
      · exact (hfilter p hp).2
      next hmissing =>
        have hlt := lt_size_of_parent? hp
        exact absurd ⟨rfl, hlt⟩ hmissing
  · rw [previous?_hang] at hp
    rw [size_hang]
    exact h.previous_lt hp
  · have hback : (a.hang id parent).previous? = a.previous? := funext (previous?_hang a id parent)
    rw [hback]
    exact h.previous_ends

/-- A copy was made after what the copied node was made after, or after its copy, or after the node
that the copies hang from. -/
theorem previous?_copySubtree {placement : Transform} {p : NodeId} (hpresent : a.present root = true)
    (hparent : ∀ p, parent = some p → p < a.size) (hle : a.size ≤ id)
    (hp : (a.copySubtree root parent placement).2.previous? id = some p) :
    p < a.size ∨ ∃ above ∈ a.subtree root, ∃ below ∈ a.subtree root,
      a.previous? below = some above ∧ id = a.copyName root below ∧ p = a.copyName root above := by
  have hgraft := h.toJoined.grafted_copySubtree h.forest hpresent hparent placement
  rcases hgraft.cases_id h.forest id with hlt | ⟨below, hbelow, rfl⟩ | hmissing
  · exact absurd hlt (Nat.not_lt_of_le hle)
  · rw [previous?_copySubtree_copyName h.forest hparent placement hbelow,
      Option.or_eq_some_iff] at hp
    rcases hp with hcopied | ⟨-, hp⟩
    · obtain ⟨above, hback, hname⟩ := Option.bind_eq_some_iff.mp hcopied
      by_cases habove : above ∈ a.subtree root
      · rw [copyOf_of_mem habove] at hname
        exact Or.inr ⟨above, habove, below, hbelow, hback, rfl, (Option.some.inj hname).symm⟩
      · simp [copyOf_of_not_mem habove] at hname
    · exact Or.inl (hparent p hp)
  · simp [(links_of_size_le hmissing).2.1] at hp

/-- **A subtree may be copied to anywhere**, also to a place within itself. -/
theorem copySubtree (hparent : ∀ p, parent = some p → p < a.size) (placement : Transform) :
    (a.copySubtree root parent placement).2.Linked := by
  by_cases hpresent : a.present root = true
  · have hgraft := h.toJoined.grafted_copySubtree h.forest hpresent hparent placement
    obtain ⟨source, hsource⟩ := exists_source a root
    refine ⟨hgraft.joined_graft h.toJoined h.forest hpresent hparent,
      hgraft.parents_end h.toJoined h.parents_end hpresent hparent, fun {id p} hp => ?_, ?_⟩
    · rw [hgraft.size]
      by_cases hlt : id < a.size
      · rw [previous?_copySubtree_of_lt h.forest hpresent hparent placement hlt] at hp
        exact Nat.lt_add_right _ (h.previous_lt hp)
      · rcases h.previous?_copySubtree hpresent hparent (Nat.le_of_not_lt hlt) hp with
          hold | ⟨above, habove, -, -, -, -, rfl⟩
        · exact Nat.lt_add_right _ hold
        · rw [← hgraft.size]
          exact hgraft.copyName_lt_size habove
    · refine ends_of_mirror a.size source h.previous_ends
        (fun id p hback => h.previous_lt hback)
        (fun id hlt => previous?_copySubtree_of_lt h.forest hpresent hparent placement hlt)
        fun id p hle hp => ?_
      rcases h.previous?_copySubtree hpresent hparent hle hp with
        hold | ⟨above, habove, below, hbelow, hback, rfl, rfl⟩
      · exact Or.inl hold
      · refine Or.inr ⟨le_copyName a root above, ?_⟩
        rw [hsource below hbelow, hsource above habove, hback]
  · have hnone : a.subtree root = [] := by rw [h.forest.subtree_eq, if_neg hpresent]
    have hsame : (a.copySubtree root parent placement).2 = a := by simp [Arena.copySubtree, hnone]
    rwa [hsame]

/-- **Every proper edit keeps an arena linked.** -/
theorem edit (edit : Edit) (hproper : edit.Proper a) : (a.edit edit).Linked := by
  cases edit with
  | addNode draft => exact h.addNode hproper
  | hang id parent => exact h.hang hproper
  | kill id => exact h.modify id _ (fun _ => rfl) (fun _ => rfl) fun _ => rfl
  | destroy id => exact h.modify id _ (fun _ => rfl) (fun _ => rfl) fun _ => rfl
  | copySubtree root parent placement => exact h.copySubtree hproper placement

end Linked

theorem Edited.linked (h : a.Edited) : a.Linked := by
  induction h with
  | new => exact Linked.new
  | edit _ edit hproper ih => exact ih.edit edit hproper

/-! ## The two loops -/

/-- The loop from a node back along the previous nodes ends, and comes to this anchor. -/
inductive Anchors (a : Arena) : NodeId → Option NodeId → Prop where
  | missing {id : NodeId} (h : a.get? id = none) : Anchors a id none
  | solid {id : NodeId} {node : Node} (h : a.get? id = some node) (hsolid : node.ethereal = false)
      (hstays : node.destroyed = false) : Anchors a id (some id)
  | gone {id : NodeId} {node : Node} (h : a.get? id = some node) (hsolid : node.ethereal = false)
      (hgone : node.destroyed = true) : Anchors a id none
  | first {id : NodeId} {node : Node} (h : a.get? id = some node)
      (hethereal : node.ethereal = true) (hfirst : node.previous = none) : Anchors a id none
  | back {id p : NodeId} {node : Node} {anchor : Option NodeId} (h : a.get? id = some node)
      (hethereal : node.ethereal = true) (hback : node.previous = some p)
      (hrest : Anchors a p anchor) : Anchors a id anchor

/-- The loop with a stack of nodes, the next one first, ends, and lists these nodes. -/
inductive Walks (a : Arena) : List NodeId → List NodeId → Prop where
  | done : Walks a [] []
  | missing {id : NodeId} {stack listed : List NodeId} (h : a.get? id = none)
      (hrest : Walks a stack listed) : Walks a (id :: stack) listed
  | gone {id : NodeId} {node : Node} {stack listed : List NodeId} (h : a.get? id = some node)
      (hgone : node.destroyed = true) (hrest : Walks a stack listed) : Walks a (id :: stack) listed
  | visit {id : NodeId} {node : Node} {stack listed : List NodeId} (h : a.get? id = some node)
      (hstays : node.destroyed = false) (hrest : Walks a (node.children ++ stack) listed) :
      Walks a (id :: stack) (id :: listed)

/-- **A way back that meets no node twice is at its end after as many turns as there are nodes.** -/
theorem Linked.anchors_anchorWithin (h : a.Linked) {limit : Nat} (id : NodeId)
    (hlimit : height (Links a.previous?) a.size id < limit) :
    a.Anchors id (a.anchorWithin limit id) := by
  induction limit generalizing id with
  | zero => exact absurd hlimit (Nat.not_lt_zero _)
  | succ limit ih =>
    rw [anchorWithin]
    cases hnode : a.get? id with
    | none => exact Anchors.missing hnode
    | some node =>
      by_cases hethereal : node.ethereal = true
      · simp only [hethereal, if_true]
        cases hback : node.previous with
        | none => exact Anchors.first hnode hethereal hback
        | some p =>
          have hlink : Links a.previous? id p := by
            rw [Links, previous?_of_get? hnode, hback]
          have hfall := height_lt (fun id => (h.previous_ends id).not_cycle) hlink
            (h.previous_lt hlink)
          exact Anchors.back hnode hethereal hback (ih p (by omega))
      · simp only [hethereal, if_false, Bool.false_eq_true]
        by_cases hgone : node.destroyed = true
        · simp only [hgone, if_true]
          exact Anchors.gone hnode (by simpa using hethereal) hgone
        · simp only [hgone, if_false, Bool.false_eq_true]
          exact Anchors.solid hnode (by simpa using hethereal) (by simpa using hgone)

theorem Linked.anchors_nearestAnchor (h : a.Linked) (id : NodeId) :
    a.Anchors id (a.nearestAnchor id) :=
  h.anchors_anchorWithin id (Nat.lt_succ_of_le (height_le _ _ id))

/-- **The walk lists a subtree in front of what the rest of its stack leads to.** -/
theorem Forest.walks_cons {rank : NodeId → Nat} (forest : a.Forest rank) (id : NodeId)
    {stack listed : List NodeId} (hrest : a.Walks stack listed) :
    a.Walks (id :: stack) (a.subtree id ++ listed) := by
  induction hrank : rank id using Nat.strongRecOn generalizing id stack listed with
  | ind height ih =>
    subst hrank
    cases hnode : a.get? id with
    | none =>
      have habsent : ¬ a.present id = true := by simp [present, hnode]
      rw [forest.subtree_eq, if_neg habsent, List.nil_append]
      exact Walks.missing hnode hrest
    | some node =>
      by_cases hgone : node.destroyed = true
      · have habsent : ¬ a.present id = true := by simp [present, hnode, hgone]
        rw [forest.subtree_eq, if_neg habsent, List.nil_append]
        exact Walks.gone hnode hgone hrest
      · have hstays : node.destroyed = false := by simpa using hgone
        -- The children are listed one after the other, those that are gone with nothing below them.
        have hchildren : ∀ ids : List NodeId, (∀ child ∈ ids, rank child < rank id) →
            a.Walks (ids ++ stack) (ids.flatMap a.subtree ++ listed) := by
          intro ids hids
          induction ids with
          | nil => exact hrest
          | cons child ids ihids =>
            rw [List.forall_mem_cons] at hids
            rw [List.flatMap_cons, List.append_assoc, List.cons_append]
            exact ih (rank child) hids.1 child (ihids hids.2) rfl
        rw [forest.subtree_of_children hnode hstays, List.cons_append]
        exact Walks.visit hnode hstays (hchildren node.children fun child hchild =>
          forest.rank_lt_of_mem_children hnode hchild)

/-! ## All edits -/

/-- **Whatever is properly done to an arena, its links are in order**: child lists and parents agree
and list nothing twice, no node lies above itself, every node that another one was made after is
there, and following those nodes comes to the first of them. So the search for an anchor and the walk
of a subtree end at every node, with the results that the arena gives. -/
theorem stays_linked (h : a.Edited) :
    (∀ child p, child ∈ a.childrenOf p ↔ a.parent? child = some p) ∧
      (∀ p, (a.childrenOf p).Nodup) ∧
      (∀ id, ¬ Relation.TransGen (Links a.parent?) id id) ∧
      (∀ id p, a.previous? id = some p → ∃ node, a.get? p = some node) ∧
      (∀ id, ∃ count, follow a.previous? count id = none) ∧
      ∀ id, a.Anchors id (a.nearestAnchor id) ∧ a.Walks [id] (a.subtree id) := by
  have hlinked := h.linked
  refine ⟨fun child p => hlinked.mem_childrenOf, hlinked.nodup_childrenOf,
    fun id => (hlinked.parents_end id).not_cycle, fun id p hback => ?_,
    fun id => (hlinked.previous_ends id).exists_follow, fun id => ⟨?_, ?_⟩⟩
  · exact exists_get? (hlinked.previous_lt hback)
  · exact hlinked.anchors_nearestAnchor id
  · have hwalks := hlinked.forest.walks_cons id Walks.done
    rwa [List.append_nil] at hwalks

/-- A shoot of which the upper node was made after the lower one. -/
def upturned : Arena :=
  [Edit.addNode {}, .addNode { previous := some 0 }, .addNode { previous := some 1 },
    .hang 2 (some 0), .hang 1 (some 2)].foldl edit {}

theorem edited_upturned : upturned.Edited := by
  -- Nothing lies above the first node, so whatever else hangs below it may be hung elsewhere.
  have hroot : ∀ {arena : Arena} {id : NodeId}, arena.parent? 0 = none → 0 ≠ id →
      ¬ Relation.ReflTransGen (Links arena.parent?) 0 id := by
    intro arena id hnone hne hpath
    rcases hpath.cases_head with heq | ⟨p, hlink, -⟩
    · exact hne heq
    · simp [Links, hnone] at hlink
  have hmade : ([Edit.addNode {}, .addNode { previous := some 0 },
      .addNode { previous := some 1 }].foldl edit {}).Edited :=
    ((Edited.new.edit (.addNode {}) (by simp [Edit.Proper])).edit (.addNode { previous := some 0 })
      (by simp [Edit.Proper, Arena.edit])).edit (.addNode { previous := some 1 })
      (by simp [Edit.Proper, Arena.edit])
  have hmoved := hmade.edit (.hang 2 (some 0)) fun p hp _ => by
    cases hp
    exact ⟨by decide, hroot (by decide) (by decide)⟩
  refine hmoved.edit (.hang 1 (some 2)) fun p hp _ => ?_
  cases hp
  refine ⟨by decide, fun hpath => ?_⟩
  rcases hpath.cases_head with heq | ⟨p, hlink, hrest⟩
  · exact absurd heq (by decide)
  · have hp : p = 0 := Option.some.inj (hlink.symm.trans (by decide))
    subst hp
    exact hroot (by decide) (by decide) hrest

/-- In the copy of an upturned shoot the upper node leads back to the lower one, which has the larger
name. -/
theorem upturned_copy_linked :
    let a := upturned.edit (.copySubtree 2 (some 0) Transform.identity)
    a.previous? 3 = some 4 ∧ a.parent? 4 = some 3 ∧
      (∀ child p, child ∈ a.childrenOf p ↔ a.parent? child = some p) ∧
      (∀ p, (a.childrenOf p).Nodup) ∧
      (∀ id, ¬ Relation.TransGen (Links a.parent?) id id) ∧
      (∀ id p, a.previous? id = some p → ∃ node, a.get? p = some node) ∧
      (∀ id, ∃ count, follow a.previous? count id = none) ∧
      ∀ id, a.Anchors id (a.nearestAnchor id) ∧ a.Walks [id] (a.subtree id) := by
  have hedited := edited_upturned.edit (.copySubtree 2 (some 0) Transform.identity)
    fun p hp => by cases hp; decide
  exact ⟨by decide, by decide, stays_linked hedited⟩

end Arena
end PlantGrowth
