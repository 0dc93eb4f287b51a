import PlantGrowth.Proofs.Linked

/-!
# Exact copies

What a copy of a subtree is, said node by node and without the search for positions that makes it: the
names of the copies follow each other in pre-order, and the copy of a node is the node itself with its
links led to copies and its placement put under another one (`Arena.Doubled`). The nodes may hang
anywhere, what a node was made after may be any node or none, and the copy may be hung below a node
that is copied.

* `Arena.copySubtree_doubles`: a subtree whose root is not gone is copied exactly, in any arena in which
  the links of the scene agree and have no cycle.
-/

namespace PlantGrowth
namespace Arena

variable {a b : Arena} {id root : NodeId} {parent : Option NodeId} {placement : Transform}
  {node source : Node} {rank : NodeId → Nat}

/-- A node, and its copy. All but the links and the placement is the same. -/
structure IsDouble (a : Arena) (root : NodeId) (parent : Option NodeId) (placement : Transform)
    (id : NodeId) (source copy : Node) : Prop where
  same : copy = { source with
    previous := copy.previous, parent := copy.parent, children := copy.children
    transform := placement.compose source.transform }
  /-- The children that are not gone have copies too. -/
  below : ∀ child ∈ source.children, a.present child = true → child ∈ a.subtree root
  children : copy.children = (source.children.filter a.present).map (a.copyName root)
  top : id = root → copy.parent = parent
  inner : id ≠ root → ∃ p ∈ a.subtree root, source.parent = some p ∧
    copy.parent = some (a.copyName root p)
  copied : ∀ p ∈ a.subtree root, source.previous = some p → copy.previous = some (a.copyName root p)
  redirected : (∀ p ∈ a.subtree root, source.previous ≠ some p) → copy.previous = parent

theorem IsDouble.transform_eq {copy : Node} (h : a.IsDouble root parent placement id source copy) :
    copy.transform = placement.compose source.transform := congrArg Node.transform h.same

/-- **The copy stands where the source would, were it stretched, turned and moved** like all that is
copied. -/
theorem IsDouble.placed {copy : Node} (h : a.IsDouble root parent placement id source copy) :
    copy.transform.position = placement.position.add
        (placement.rotation.apply (source.transform.position.scale placement.scale)) ∧
      copy.transform.rotation = placement.rotation.mul source.transform.rotation ∧
      copy.transform.scale = placement.scale * source.transform.scale := by
  rw [h.transform_eq]
  exact ⟨Transform.position_compose _ _, Transform.rotation_compose _ _, Transform.scale_compose _ _⟩

/-- The arena `b` is `a` with an exact copy of the subtree under `root`, hung from `parent`. -/
structure Doubled (a b : Arena) (root : NodeId) (parent : Option NodeId) (placement : Transform) :
    Prop where
  size : b.size = a.size + (a.subtree root).length
  /-- In pre-order the copies have the names that follow those of the nodes that were there. -/
  subtree : b.subtree a.size = List.range' a.size (a.subtree root).length
  copy : ∀ i id source, (a.subtree root)[i]? = some id → a.get? id = some source →
    ∃ copy, b.get? (a.size + i) = some copy ∧ a.copyName root id = a.size + i ∧
      a.IsDouble root parent placement id source copy
  kept : ∀ id node, a.get? id = some node → b.get? id = some
    { node with children := if parent = some id then node.children ++ [a.size] else node.children }

/-- The names of the copies, in the order of the nodes. -/
theorem map_copyName (hnodup : (a.subtree root).Nodup) :
    (a.subtree root).map (a.copyName root) = List.range' a.size (a.subtree root).length := by
  refine List.ext_getElem (by simp) fun i hi _ => ?_
  rw [List.length_map] at hi
  rw [List.getElem_map, List.getElem_range', Nat.one_mul]
  exact copyName_of_getElem? hnodup (List.getElem?_eq_getElem hi)

/-- The copy that is made of a node of the subtree is its double. -/
theorem isDouble_copyNode (forest : a.Forest rank) (hid : id ∈ a.subtree root)
    (hsource : a.get? id = some source) : a.IsDouble root parent placement id source
      { copyNode (a.copyOf root) parent placement source with
        parent := if id = root then parent else source.parent.bind (a.copyOf root) } where
  same := rfl
  below := fun child hchild hpresent =>
    forest.mem_subtree_of_mem_branches hid (mem_branches.mpr ⟨hpresent, source, hsource, hchild⟩)
  children := by
    rw [← branches_eq hsource]
    exact filterMap_copyOf forest hid hsource
  top := fun heq => if_pos heq
  inner := by
    intro hne
    obtain ⟨p, hp, hup⟩ := forest.parent_of_mem_subtree hid hne hsource
    refine ⟨p, hp, hup, ?_⟩
    simp only [if_neg hne, hup, Option.bind_some, copyOf_of_mem hp]
  copied := by
    intro p hp hback
    simp only [copyNode, hback, Option.bind_some, copyOf_of_mem hp, Option.some_or]
  redirected := by
    intro houtside
    have hnone : source.previous.bind (a.copyOf root) = none := by
      cases hback : source.previous with
      | none => rfl
      | some p => exact copyOf_of_not_mem fun hp => houtside p hp hback
    simp only [copyNode, hnone, Option.none_or]

theorem exists_isDouble (forest : a.Forest rank) (hparent : ∀ p, parent = some p → p < a.size)
    (placement : Transform) (hid : id ∈ a.subtree root) (hsource : a.get? id = some source) :
    ∃ copy, (a.copySubtree root parent placement).2.get? (a.copyName root id) = some copy ∧
      a.IsDouble root parent placement id source copy :=
  ⟨_, get?_copySubtree_copyName forest hparent placement hid hsource,
    isDouble_copyNode forest hid hsource⟩

/-- No copy is gone, as no node that is gone is copied. -/
theorem present_copySubtree_copyName (forest : a.Forest rank)
    (hparent : ∀ p, parent = some p → p < a.size) (placement : Transform)
    (hid : id ∈ a.subtree root) :
    (a.copySubtree root parent placement).2.present (a.copyName root id) = true := by
  obtain ⟨source, hsource, hstays⟩ := present_iff.mp (forest.present_of_mem_subtree hid)
  obtain ⟨copy, hcopy, hdouble⟩ := exists_isDouble forest hparent placement hid hsource
  refine present_iff.mpr ⟨copy, hcopy, ?_⟩
  rw [hdouble.same]
  exact hstays

/-- **A subtree is copied exactly**, wherever its nodes hang and whatever they were made after, and to
whatever place, also one within the subtree. There is no copy of a subtree whose root is gone. -/
theorem copySubtree_doubles (joined : a.Joined)
    (hacyclic : ∀ id, ¬ Relation.TransGen (Links a.parent?) id id) (hroot : a.get? root = some node)
    (hparent : ∀ p, parent = some p → p < a.size) (placement : Transform) :
    (node.destroyed = true → a.copySubtree root parent placement = (none, a)) ∧
    (node.destroyed = false → ∃ b, a.copySubtree root parent placement = (some a.size, b) ∧
      a.Doubled b root parent placement) := by
  have hends : ∀ id, Ends a.parent? id :=
    ends_of_acyclic hacyclic fun id p hup => joined.parent_lt hup
  have forest := joined.forest hends
  refine ⟨fun hgone => ?_, fun hstays => ?_⟩
  · have habsent : ¬ a.present root = true := by simp [present, hroot, hgone]
    have hnone : a.subtree root = [] := by rw [forest.subtree_eq, if_neg habsent]
    simp [copySubtree, hnone]
  · have hpresent : a.present root = true := present_iff.mpr ⟨node, hroot, hstays⟩
    have hgraft := joined.grafted_copySubtree forest hpresent hparent placement
    -- The arena with the copies is a forest too, so that its subtrees may be compared.
    have hlater := (hgraft.joined_graft joined forest hpresent hparent).forest
      (hgraft.parents_end joined hends hpresent hparent)
    have hnodup := forest.nodup_subtree root
    refine ⟨_, by rw [copySubtree_eq forest hpresent], hgraft.size, ?_, fun i id source hi hsource => ?_,
      fun id node hnode => ?_⟩
    · rw [hgraft.subtree_copy forest
        (fun id hid => present_copySubtree_copyName forest hparent placement hid) hlater hpresent,
        map_copyName hnodup]
    · have hname := copyName_of_getElem? hnodup hi
      obtain ⟨copy, hcopy, hdouble⟩ :=
        exists_isDouble forest hparent placement (List.mem_of_getElem? hi) hsource
      rw [hname] at hcopy
      exact ⟨copy, hcopy, hname, hdouble⟩
    · have hkept := get?_copySubtree forest hpresent hparent placement id
      rw [if_pos (lt_size_of_get? hnode), hnode, Option.map_some] at hkept
      rw [hkept]
      split <;> simp

/-- Moved away from the origin, turned half round about the first axis, and twice as large. -/
def tilted : Transform := { position := ⟨1, 2, 3⟩, rotation := ⟨1, 0, 0, 0⟩, scale := 2 }

/-- A shoot with a twig that is gone and one that is not, and a tilted copy of it. -/
def pruned : Arena :=
  [Edit.addNode {}, .addNode { previous := some 0 }, .addNode { previous := some 1 },
    .addNode { previous := some 1 }, .destroy 2, .copySubtree 1 (some 0) tilted].foldl edit {}

theorem edited_pruned : pruned.Edited := by
  have hbase : ([Edit.addNode {}, .addNode { previous := some 0 }].foldl edit {}).Edited :=
    (Edited.new.edit (.addNode {}) (by simp [Edit.Proper])).edit (.addNode { previous := some 0 })
      (by simp [Edit.Proper, Arena.edit])
  have htwigs := (hbase.edit (.addNode { previous := some 1 }) (by simp [Edit.Proper, Arena.edit])).edit
    (.addNode { previous := some 1 }) (by simp [Edit.Proper, Arena.edit])
  exact (htwigs.edit (.destroy 2) trivial).edit (.copySubtree 1 (some 0) tilted)
    fun p hp => (by cases hp; decide)

/-- The tilted shoot is copied once more and hung below its own twig; the copy is moved, turned and
stretched twice. What is gone is not copied. -/
theorem pruned_doubles : pruned.Joined ∧ (∀ id, ¬ Relation.TransGen (Links pruned.parent?) id id) ∧
    pruned.subtree 4 = [4, 5] ∧ pruned.copySubtree 2 none tilted = (none, pruned) ∧
    ∃ b, pruned.copySubtree 4 (some 5) tilted = (some 6, b) ∧
      pruned.Doubled b 4 (some 5) tilted ∧ ∃ copy, b.get? 6 = some copy ∧
        (copy.transform == { position := ⟨3, -2, -3⟩, rotation := ⟨0, 0, 0, -1⟩, scale := 4 }) = true := by
  have hlinked := edited_pruned.linked
  have hacyclic : ∀ id, ¬ Relation.TransGen (Links pruned.parent?) id id :=
    fun id => (hlinked.parents_end id).not_cycle
  have htree : pruned.subtree 4 = [4, 5] := by decide +kernel
  refine ⟨hlinked.toJoined, hacyclic, htree, ?_, ?_⟩
  · obtain ⟨twig, htwig, hgone⟩ : ∃ twig, pruned.get? 2 = some twig ∧ twig.destroyed = true :=
      ⟨_, rfl, rfl⟩
    exact (copySubtree_doubles hlinked.toJoined hacyclic htwig (by simp) tilted).1 hgone
  · obtain ⟨shoot, hshoot, hstays, hplaced⟩ : ∃ shoot, pruned.get? 4 = some shoot ∧
        shoot.destroyed = false ∧ (tilted.compose shoot.transform == Transform.mk ⟨3, -2, -3⟩
          ⟨0, 0, 0, -1⟩ 4) = true := ⟨_, rfl, rfl, by decide +kernel⟩
    have htwig : ∀ p, some 5 = some p → p < pruned.size := by
      rintro _ ⟨⟩
      decide +kernel
    obtain ⟨b, hcopied, hdoubled⟩ :=
      (copySubtree_doubles hlinked.toJoined hacyclic hshoot htwig tilted).2 hstays
    obtain ⟨copy, hcopy, -, hdouble⟩ := hdoubled.copy 0 4 shoot (by rw [htree]; rfl) hshoot
    exact ⟨b, hcopied, hdoubled, copy, hcopy, by rw [hdouble.transform_eq]; exact hplaced⟩

end Arena
end PlantGrowth
