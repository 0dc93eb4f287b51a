import PlantGrowth.Arena.Subtree
import Mathlib.Algebra.GroupWithZero.Nat
import Mathlib.Data.List.Nodup

/-!
# What a subtree lists

A subtree is listed by a walk with a stack, and how far the walk may go is computed beforehand. In a
scene whose links agree and have no cycle the walk lists what one expects: a node that is present and
then, child by child, the subtrees of its children that are present (`Forest.subtree_eq`). All else
about subtrees follows from this equation by induction along the branches.

## Ranks

That there is no cycle is said by a *rank*, which falls from a node to its children and is at most
the size of the arena. Where children are younger than their parents, as they are in a garden, the
rank of a node is the number of nodes that are not older.
-/

namespace PlantGrowth
namespace Arena

variable {a b : Arena} {rank : NodeId → Nat} {id other root child : NodeId} {node : Node}

/-! ## Nodes that are present -/

/-- Is the node there, and not gone? -/
def present (a : Arena) (id : NodeId) : Bool := (a.get? id).any fun node => !node.destroyed

/-- The children that are drawn. -/
def branches (a : Arena) (id : NodeId) : List NodeId :=
  match a.get? id with
  | some node => node.children.filter a.present
  | none => []

theorem present_iff : a.present id = true ↔ ∃ node, a.get? id = some node ∧ node.destroyed = false := by
  unfold present
  cases a.get? id with
  | none => simp
  | some node => simp

theorem absent_iff : a.present id = false ↔
    a.get? id = none ∨ ∃ node, a.get? id = some node ∧ node.destroyed = true := by
  unfold present
  cases a.get? id with
  | none => simp
  | some node => simp

theorem branches_eq (h : a.get? id = some node) :
    a.branches id = node.children.filter a.present := by
  unfold branches
  rw [h]

theorem mem_branches :
    child ∈ a.branches id ↔ a.present child = true ∧ ∃ node, a.get? id = some node ∧ child ∈ node.children := by
  unfold branches
  cases hnode : a.get? id with
  | none => simp
  | some node => simp [and_comm]

/-- The links of the scene agree, and there is no cycle. -/
structure Forest (a : Arena) (rank : NodeId → Nat) : Prop where
  mem_children : ∀ {id node child}, a.get? id = some node →
    (child ∈ node.children ↔ ∃ state, a.get? child = some state ∧ state.parent = some id)
  nodup_children : ∀ {id node}, a.get? id = some node → node.children.Nodup
  rank_lt : ∀ {id state parent}, a.get? id = some state → state.parent = some parent →
    rank id < rank parent
  rank_le : ∀ id, rank id ≤ a.size

/-! ## The walk -/

/-- The nodes under a node in pre-order, down to a depth. -/
def preorder (a : Arena) : Nat → NodeId → List NodeId
  | 0, _ => []
  | depth + 1, id =>
    if a.present id then id :: (a.branches id).flatMap (preorder a depth) else []

theorem walk_of_absent (h : a.present id = false) (limit : Nat) (stack : List NodeId) :
    a.walk (limit + 1) (id :: stack) = a.walk limit stack := by
  rw [walk]
  rcases absent_iff.mp h with hnone | ⟨node, hnode, hgone⟩
  · rw [hnone]
  · simp only [hnode, hgone, if_true]

theorem walk_of_present (hnode : a.get? id = some node) (h : node.destroyed = false) (limit : Nat)
    (stack : List NodeId) :
    a.walk (limit + 1) (id :: stack) = id :: a.walk limit (node.children ++ stack) := by
  rw [walk]
  simp only [hnode, h, Bool.false_eq_true, if_false]

theorem visits_succ (a : Arena) (depth : Nat) (id : NodeId) : a.visits (depth + 1) id =
    match a.get? id with
    | some node => if node.destroyed then 1 else 1 + (node.children.map (a.visits depth)).sum
    | none => 1 := rfl

theorem visits_of_absent (h : a.present id = false) (depth : Nat) : a.visits (depth + 1) id = 1 := by
  rw [visits_succ]
  rcases absent_iff.mp h with hnone | ⟨node, hnode, hgone⟩
  · rw [hnone]
  · simp only [hnode, hgone, if_true]

theorem visits_of_present (hnode : a.get? id = some node) (h : node.destroyed = false)
    (depth : Nat) : a.visits (depth + 1) id = 1 + (node.children.map (a.visits depth)).sum := by
  rw [visits_succ]
  simp only [hnode, h, Bool.false_eq_true, if_false]

/-- Children that are not drawn may be left out of what is listed child by child. -/
theorem flatMap_filter_present {f : NodeId → List NodeId}
    (h : ∀ child, a.present child = false → f child = []) (ids : List NodeId) :
    (ids.filter a.present).flatMap f = ids.flatMap f := by
  induction ids with
  | nil => rfl
  | cons child ids ih =>
    by_cases hchild : a.present child = true
    · rw [List.filter_cons_of_pos hchild, List.flatMap_cons, List.flatMap_cons, ih]
    · rw [List.filter_cons_of_neg hchild, List.flatMap_cons, h child (by simpa using hchild),
        List.nil_append, ih]

/-- Children that are not drawn add nothing to the pre-order. -/
theorem preorder_of_present (hnode : a.get? id = some node) (h : node.destroyed = false)
    (depth : Nat) :
    a.preorder (depth + 1) id = id :: node.children.flatMap (a.preorder depth) := by
  have hpresent : a.present id = true := present_iff.mpr ⟨node, hnode, h⟩
  rw [preorder, if_pos hpresent, branches_eq hnode, flatMap_filter_present fun child hchild => ?_]
  cases depth with
  | zero => rfl
  | succ depth => rw [preorder, if_neg (by simp [hchild])]

namespace Forest

variable (forest : a.Forest rank)
include forest

theorem rank_lt_of_mem_children (h : a.get? id = some node) (hchild : child ∈ node.children) :
    rank child < rank id := by
  obtain ⟨state, hstate, hparent⟩ := (forest.mem_children h).mp hchild
  exact forest.rank_lt hstate hparent

theorem rank_lt_of_mem_branches (h : child ∈ a.branches id) : rank child < rank id := by
  obtain ⟨-, node, hnode, hchild⟩ := mem_branches.mp h
  exact forest.rank_lt_of_mem_children hnode hchild

theorem parent_of_mem_branches (h : child ∈ a.branches id) :
    ∃ state, a.get? child = some state ∧ state.parent = some id := by
  obtain ⟨-, node, hnode, hchild⟩ := mem_branches.mp h
  exact (forest.mem_children hnode).mp hchild

theorem nodup_branches (id : NodeId) : (a.branches id).Nodup := by
  unfold branches
  cases hnode : a.get? id with
  | none => exact List.nodup_nil
  | some node => exact (forest.nodup_children hnode).filter _

/-- **The walk lists what is in front of its stack in pre-order** before it goes on. -/
theorem walk_eq {depth : Nat} (h : rank id < depth) (more : Nat) (stack : List NodeId) :
    a.walk (a.visits depth id + more) (id :: stack) = a.preorder depth id ++ a.walk more stack := by
  induction depth generalizing id more stack with
  | zero => omega
  | succ depth ih =>
    -- The induction hypothesis, for all children of a node at once.
    have hall : ∀ ids : List NodeId, (∀ child ∈ ids, rank child < depth) → ∀ more stack,
        a.walk ((ids.map (a.visits depth)).sum + more) (ids ++ stack) =
          ids.flatMap (a.preorder depth) ++ a.walk more stack := by
      intro ids hids
      induction ids with
      | nil => simp
      | cons child ids ihids =>
        intro more stack
        rw [List.map_cons, List.sum_cons, Nat.add_assoc, List.cons_append,
          ih (hids child List.mem_cons_self),
          ihids (fun other hother => hids other (List.mem_cons_of_mem child hother)),
          List.flatMap_cons, List.append_assoc]
    cases hpresent : a.present id with
    | false =>
      rw [visits_of_absent hpresent, Nat.add_comm, walk_of_absent hpresent, preorder,
        if_neg (by simp [hpresent]), List.nil_append]
    | true =>
      obtain ⟨node, hnode, hstays⟩ := present_iff.mp hpresent
      have hchildren : ∀ child ∈ node.children, rank child < depth := by
        intro child hchild
        have hlt := forest.rank_lt_of_mem_children hnode hchild
        omega
      rw [visits_of_present hnode hstays, preorder_of_present hnode hstays, Nat.add_comm 1,
        Nat.add_assoc, Nat.add_comm 1 more, ← Nat.add_assoc, walk_of_present hnode hstays,
        hall node.children hchildren, List.cons_append]

/-- A depth beyond the rank lists the same. -/
theorem preorder_eq {depth further : Nat} (h : rank id < depth) (h' : rank id < further) :
    a.preorder depth id = a.preorder further id := by
  induction depth generalizing id further with
  | zero => omega
  | succ depth ih =>
    obtain ⟨further, rfl⟩ := Nat.exists_eq_succ_of_ne_zero (Nat.ne_of_gt (Nat.zero_lt_of_lt h'))
    rw [preorder, preorder]
    split
    · congr 1
      refine List.flatMap_congr fun child hchild => ?_
      have hlt := forest.rank_lt_of_mem_branches hchild
      exact ih (by omega) (by omega)
    · rfl

theorem subtree_eq_preorder (id : NodeId) : a.subtree id = a.preorder (a.size + 1) id := by
  have hwalk := forest.walk_eq (Nat.lt_succ_of_le (forest.rank_le id)) 0 []
  rw [Nat.add_zero] at hwalk
  rw [subtree, hwalk, walk, List.append_nil]

/-- **A subtree is its root and then, child by child, the subtrees of the children that are drawn.**
Under a node that is missing or gone there is nothing. -/
theorem subtree_eq (id : NodeId) :
    a.subtree id = if a.present id then id :: (a.branches id).flatMap a.subtree else [] := by
  have hrank := forest.rank_le id
  rw [forest.subtree_eq_preorder, preorder]
  split
  · congr 1
    refine List.flatMap_congr fun child hchild => ?_
    have hlt := forest.rank_lt_of_mem_branches hchild
    have hchildRank := forest.rank_le child
    rw [forest.subtree_eq_preorder]
    exact forest.preorder_eq (by omega) (by omega)
  · rfl

theorem subtree_of_present (h : a.present id = true) :
    a.subtree id = id :: (a.branches id).flatMap a.subtree := by
  rw [forest.subtree_eq, if_pos h]

/-- A child that is not drawn has an empty subtree. -/
theorem subtree_of_children (hnode : a.get? id = some node) (h : node.destroyed = false) :
    a.subtree id = id :: node.children.flatMap a.subtree := by
  rw [forest.subtree_of_present (present_iff.mpr ⟨node, hnode, h⟩), branches_eq hnode,
    flatMap_filter_present fun child hchild => ?_]
  rw [forest.subtree_eq, if_neg (by simp [hchild])]

/-- **Induction along the branches.** -/
theorem induction {P : NodeId → Prop} (h : ∀ id, (∀ child ∈ a.branches id, P child) → P id)
    (id : NodeId) : P id := by
  induction hrank : rank id using Nat.strongRecOn generalizing id with
  | ind height ih =>
    subst hrank
    exact h id fun child hchild => ih _ (forest.rank_lt_of_mem_branches hchild) child rfl

/-! ## Members -/

theorem mem_subtree_iff : other ∈ a.subtree root ↔
    a.present root = true ∧ (other = root ∨ ∃ child ∈ a.branches root, other ∈ a.subtree child) := by
  rw [forest.subtree_eq]
  split
  next h => simp [h]
  next h => simp [h]

theorem self_mem_subtree (h : a.present root = true) : root ∈ a.subtree root :=
  forest.mem_subtree_iff.mpr ⟨h, Or.inl rfl⟩

theorem present_of_mem_subtree (h : other ∈ a.subtree root) : a.present other = true := by
  induction root using forest.induction with
  | h root ih =>
    obtain ⟨hroot, rfl | ⟨child, hchild, hother⟩⟩ := forest.mem_subtree_iff.mp h
    · exact hroot
    · exact ih child hchild hother

/-- A subtree is closed under branches. -/
theorem mem_subtree_of_mem_branches (h : other ∈ a.subtree root) (hchild : child ∈ a.branches other) :
    child ∈ a.subtree root := by
  induction root using forest.induction with
  | h root ih =>
    obtain ⟨hroot, rfl | ⟨next, hnext, hother⟩⟩ := forest.mem_subtree_iff.mp h
    · refine forest.mem_subtree_iff.mpr ⟨hroot, Or.inr ⟨child, hchild, ?_⟩⟩
      exact forest.self_mem_subtree (mem_branches.mp hchild).1
    · exact forest.mem_subtree_iff.mpr ⟨hroot, Or.inr ⟨next, hnext, ih next hnext hother⟩⟩

/-- Every node of a subtree but its root is a branch of another one. -/
theorem eq_or_exists_parent (h : other ∈ a.subtree root) :
    other = root ∨ ∃ parent ∈ a.subtree root, other ∈ a.branches parent := by
  induction root using forest.induction with
  | h root ih =>
    obtain ⟨hroot, rfl | ⟨child, hchild, hother⟩⟩ := forest.mem_subtree_iff.mp h
    · exact Or.inl rfl
    · have hself := forest.self_mem_subtree hroot
      rcases ih child hchild hother with rfl | ⟨parent, hparent, hbranch⟩
      · exact Or.inr ⟨root, hself, hchild⟩
      · refine Or.inr ⟨parent, ?_, hbranch⟩
        exact forest.mem_subtree_iff.mpr ⟨hroot, Or.inr ⟨child, hchild, hparent⟩⟩

theorem parent_of_mem_subtree (h : other ∈ a.subtree root) (hne : other ≠ root)
    (hnode : a.get? other = some node) : ∃ parent ∈ a.subtree root, node.parent = some parent := by
  rcases forest.eq_or_exists_parent h with heq | ⟨parent, hparent, hbranch⟩
  · exact absurd heq hne
  · obtain ⟨state, hstate, hup⟩ := forest.parent_of_mem_branches hbranch
    obtain rfl : state = node := Option.some.inj (hstate.symm.trans hnode)
    exact ⟨parent, hparent, hup⟩

theorem rank_le_of_mem_subtree (h : other ∈ a.subtree root) : rank other ≤ rank root := by
  induction root using forest.induction with
  | h root ih =>
    obtain ⟨-, rfl | ⟨child, hchild, hother⟩⟩ := forest.mem_subtree_iff.mp h
    · exact Nat.le_refl _
    · have hle := ih child hchild hother
      have hlt := forest.rank_lt_of_mem_branches hchild
      omega

/-- The subtrees of two children of one node have no node in common. -/
theorem disjoint_subtrees {first second : NodeId} (h : first ∈ a.branches id)
    (h' : second ∈ a.branches id) (hne : first ≠ second) :
    (a.subtree first).Disjoint (a.subtree second) := by
  -- A common node is a root of neither, for then it would lie below its own parent.
  have hroot : ∀ {one another}, one ∈ a.branches id → another ∈ a.branches id → one ≠ another →
      one ∉ a.subtree another := by
    intro one another hone hanother hne hmem
    rcases forest.eq_or_exists_parent hmem with heq | ⟨parent, hparent, hbranch⟩
    · exact hne heq
    · obtain ⟨state, hstate, hup⟩ := forest.parent_of_mem_branches hone
      obtain ⟨state', hstate', hup'⟩ := forest.parent_of_mem_branches hbranch
      obtain rfl : state = state' := Option.some.inj (hstate.symm.trans hstate')
      obtain rfl : id = parent := Option.some.inj (hup.symm.trans hup')
      have hle := forest.rank_le_of_mem_subtree hparent
      have hlt := forest.rank_lt_of_mem_branches hanother
      omega
  intro other
  -- So both subtrees have its parent, which has a higher rank.
  induction hheight : a.size - rank other using Nat.strongRecOn generalizing other with
  | ind height ih =>
    subst hheight
    intro hfirst hsecond
    rcases forest.eq_or_exists_parent hfirst with rfl | ⟨parent, hparent, hbranch⟩
    · exact hroot h h' hne hsecond
    · rcases forest.eq_or_exists_parent hsecond with rfl | ⟨parent', hparent', hbranch'⟩
      · exact hroot h' h hne.symm hfirst
      · obtain ⟨state, hstate, hup⟩ := forest.parent_of_mem_branches hbranch
        obtain ⟨state', hstate', hup'⟩ := forest.parent_of_mem_branches hbranch'
        obtain rfl : state = state' := Option.some.inj (hstate.symm.trans hstate')
        obtain rfl : parent = parent' := Option.some.inj (hup.symm.trans hup')
        have hlt := forest.rank_lt_of_mem_branches hbranch
        have hle := forest.rank_le parent
        exact ih (a.size - rank parent) (by omega) rfl hparent hparent'

/-- **A subtree lists no node twice.** -/
theorem nodup_subtree (root : NodeId) : (a.subtree root).Nodup := by
  induction root using forest.induction with
  | h root ih =>
    rw [forest.subtree_eq]
    split
    · rw [List.nodup_cons, List.nodup_flatMap]
      refine ⟨fun hmem => ?_, ih, ?_⟩
      · obtain ⟨child, hchild, hroot⟩ := List.mem_flatMap.mp hmem
        have hle := forest.rank_le_of_mem_subtree hroot
        have hlt := forest.rank_lt_of_mem_branches hchild
        omega
      · refine (forest.nodup_branches root).imp_of_mem fun {first second} hfirst hsecond hne => ?_
        exact forest.disjoint_subtrees hfirst hsecond hne
    · exact List.nodup_nil

/-- **A subtree lists parents before their children.** -/
theorem pairwise_subtree (root : NodeId) :
    (a.subtree root).Pairwise fun first second => first ∉ a.branches second := by
  induction root using forest.induction with
  | h root ih =>
    rw [forest.subtree_eq]
    split
    next hpresent =>
      rw [List.pairwise_cons, List.pairwise_flatMap]
      refine ⟨fun second hsecond hroot => ?_, ih, ?_⟩
      · obtain ⟨child, hchild, hmem⟩ := List.mem_flatMap.mp hsecond
        have hle := forest.rank_le_of_mem_subtree hmem
        have hlt := forest.rank_lt_of_mem_branches hchild
        have hlt' := forest.rank_lt_of_mem_branches hroot
        omega
      · refine (forest.nodup_branches root).imp_of_mem fun {one another} hone hanother hne => ?_
        intro first hfirst second hsecond hbranch
        exact forest.disjoint_subtrees hone hanother hne hfirst
          (forest.mem_subtree_of_mem_branches hsecond hbranch)
    next => exact List.Pairwise.nil

theorem idxOf_lt_of_mem_branches (h : id ∈ a.subtree root) (hchild : child ∈ a.branches id) :
    (a.subtree root).idxOf id < (a.subtree root).idxOf child := by
  have hmem := forest.mem_subtree_of_mem_branches h hchild
  have hfirst := List.idxOf_lt_length_iff.mpr h
  have hsecond := List.idxOf_lt_length_iff.mpr hmem
  rcases Nat.lt_trichotomy ((a.subtree root).idxOf id) ((a.subtree root).idxOf child) with
    hlt | heq | hgt
  · exact hlt
  · have hlt := forest.rank_lt_of_mem_branches hchild
    rw [(List.idxOf_inj h).mp heq] at hlt
    exact absurd hlt (Nat.lt_irrefl _)
  · have hnot := List.pairwise_iff_getElem.mp (forest.pairwise_subtree root) _ _ hsecond hfirst hgt
    rw [List.getElem_idxOf, List.getElem_idxOf] at hnot
    exact absurd hchild hnot

/-! ## Subtrees that look alike -/

/-- **A map that carries branches to branches carries a subtree to a subtree**, in the same order. -/
theorem map_subtree {rank' : NodeId → Nat} (forest' : b.Forest rank') (f : NodeId → NodeId)
    (hpresent : a.present root = true) (hroot : b.present (f root) = true)
    (h : ∀ id ∈ a.subtree root, b.branches (f id) = (a.branches id).map f) :
    b.subtree (f root) = (a.subtree root).map f := by
  induction root using forest.induction with
  | h root ih =>
    have hself := forest.self_mem_subtree hpresent
    have hbranches := h root hself
    rw [forest.subtree_of_present hpresent, forest'.subtree_of_present hroot, hbranches,
      List.map_cons, List.map_flatMap, List.flatMap_map]
    congr 1
    refine List.flatMap_congr fun child hchild => ?_
    have himage : f child ∈ b.branches (f root) := by
      rw [hbranches]
      exact List.mem_map_of_mem hchild
    refine ih child hchild (mem_branches.mp hchild).1 (mem_branches.mp himage).1 fun id hid => h id ?_
    exact forest.mem_subtree_iff.mpr ⟨hpresent, Or.inr ⟨child, hchild, hid⟩⟩

/-- A subtree is the same in an arena with the same branches. -/
theorem subtree_congr {rank' : NodeId → Nat} (forest' : b.Forest rank')
    (hpresent : a.present root = true) (hroot : b.present root = true)
    (h : ∀ id ∈ a.subtree root, b.branches id = a.branches id) :
    b.subtree root = a.subtree root := by
  have hmap := forest.map_subtree forest' (fun id => id) hpresent hroot
    fun id hid => by rw [h id hid, List.map_id']
  rwa [List.map_id'] at hmap

end Forest
end Arena
end PlantGrowth
