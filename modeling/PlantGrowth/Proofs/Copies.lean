import PlantGrowth.Proofs.Scene
import Mathlib.Data.Set.Function

/-!
# Copies of subtrees

A subtree is copied node by node to the end of the arena, in pre-order, and the links of a copy are
led to copies through the position of their node in the list. `Arena.Copied` describes the arena
afterwards, look-up by look-up; the description leaves open what may be done to the copies next,
which is to move them, to kill them and to hide or show them.

From the description follows that the copies form a forest with the nodes that were there before, and
that the copy of a subtree is the subtree of the copy (`Copied.subtree_eq`).
-/

namespace PlantGrowth

/-- The node, and a copy of it, apart from links, name and placement. -/
structure Node.Resembles (node copy : Node) : Prop where
  symbol : copy.symbol = node.symbol
  ethereal : copy.ethereal = node.ethereal
  baked : copy.baked = node.baked
  prefab : copy.prefab = node.prefab
  segment : copy.segment = node.segment
  blade : copy.blade = node.blade

theorem Node.Resembles.trans {node copy other : Node} (h : node.Resembles copy)
    (h' : copy.Resembles other) : node.Resembles other :=
  ⟨h'.symbol.trans h.symbol, h'.ethereal.trans h.ethereal, h'.baked.trans h.baked,
    h'.prefab.trans h.prefab, h'.segment.trans h.segment, h'.blade.trans h.blade⟩

theorem Node.Resembles.symm {node copy : Node} (h : node.Resembles copy) : copy.Resembles node :=
  ⟨h.symbol.symm, h.ethereal.symm, h.baked.symm, h.prefab.symm, h.segment.symm, h.blade.symm⟩

namespace Arena

variable {a b : Arena} {id other root : NodeId} {parent : Option NodeId} {node source : Node}

/-! ## Changes of many nodes -/

@[simp] theorem size_modifyAll (a : Arena) (ids : List NodeId) (change : Node → Node) :
    (a.modifyAll ids change).size = a.size := by
  unfold modifyAll
  induction ids generalizing a with
  | nil => rfl
  | cons first ids ih => rw [List.foldl_cons, ih, size_modify]

theorem get?_modifyAll {ids : List NodeId} (h : ids.Nodup) (a : Arena) (change : Node → Node)
    (other : NodeId) :
    (a.modifyAll ids change).get? other =
      if other ∈ ids then (a.get? other).map change else a.get? other := by
  unfold modifyAll
  induction ids generalizing a with
  | nil => simp
  | cons first ids ih =>
    rw [List.nodup_cons] at h
    rw [List.foldl_cons, ih h.2, get?_modify]
    by_cases heq : other = first
    · subst heq
      rw [if_neg h.1, if_pos rfl, if_pos List.mem_cons_self]
    · simp [heq, Ne.symm heq]

/-! ## Names of copies -/

/-- The name that the copy of a node of the subtree has. -/
def copyName (a : Arena) (root id : NodeId) : NodeId := a.size + (a.subtree root).idxOf id

theorem le_copyName (a : Arena) (root id : NodeId) : a.size ≤ a.copyName root id :=
  Nat.le_add_right _ _

theorem copyName_of_getElem? (hnodup : (a.subtree root).Nodup) {i : Nat}
    (h : (a.subtree root)[i]? = some id) : a.copyName root id = a.size + i := by
  obtain ⟨hlt, rfl⟩ := List.getElem?_eq_some_iff.mp h
  rw [copyName, hnodup.idxOf_getElem i hlt]

theorem copyName_inj (h : id ∈ a.subtree root) :
    a.copyName root id = a.copyName root other ↔ id = other := by
  unfold copyName
  rw [Nat.add_left_cancel_iff, List.idxOf_inj h]

/-- The way from the nodes of a subtree to their copies. -/
def copyOf (a : Arena) (root id : NodeId) : Option NodeId :=
  ((a.subtree root).idxOf? id).map (a.size + ·)

theorem copyOf_of_not_mem (h : id ∉ a.subtree root) : a.copyOf root id = none := by
  unfold copyOf
  rw [List.idxOf?_eq_none_iff.mpr h, Option.map_none]

theorem copyOf_of_mem (h : id ∈ a.subtree root) :
    a.copyOf root id = some (a.copyName root id) := by
  unfold copyOf copyName
  obtain ⟨i, hi⟩ := Option.isSome_iff_exists.mp (List.isSome_idxOf?.mpr h)
  rw [hi, List.idxOf_eq_getD_idxOf?, hi]
  rfl

/-! ## The arena with a copy -/

theorem getElem?_filterMap_of_isSome {α β : Type} {f : α → Option β} {xs : List α}
    (h : ∀ x ∈ xs, (f x).isSome = true) (i : Nat) : (xs.filterMap f)[i]? = xs[i]?.bind f := by
  induction xs generalizing i with
  | nil => rfl
  | cons x xs ih =>
    obtain ⟨y, hy⟩ := Option.isSome_iff_exists.mp (h x List.mem_cons_self)
    rw [List.filterMap_cons_some hy]
    cases i with
    | zero => simp [hy]
    | succ i => simpa using ih (fun x hx => h x (List.mem_cons_of_mem _ hx)) i

/-- The copies of the nodes of a subtree, before the first one is hung up. -/
def copies (a : Arena) (root : NodeId) (parent : Option NodeId) (placement : Transform) : List Node :=
  ((a.subtree root).filterMap a.get?).map (copyNode (a.copyOf root) parent placement)

section

variable {rank : NodeId → Nat} (forest : a.Forest rank) (hpresent : a.present root = true)
include forest

theorem isSome_get?_of_mem_subtree (h : id ∈ a.subtree root) : (a.get? id).isSome = true := by
  obtain ⟨node, hnode, -⟩ := present_iff.mp (forest.present_of_mem_subtree h)
  rw [hnode, Option.isSome_some]

theorem getElem?_copies (placement : Transform) (i : Nat) :
    (a.copies root parent placement)[i]? = ((a.subtree root)[i]?.bind a.get?).map
      (copyNode (a.copyOf root) parent placement) := by
  unfold copies
  rw [List.getElem?_map,
    getElem?_filterMap_of_isSome fun id hid => isSome_get?_of_mem_subtree forest hid]

theorem length_copies (placement : Transform) :
    (a.copies root parent placement).length = (a.subtree root).length := by
  unfold copies
  rw [List.length_map, List.length_filterMap_eq_countP, List.countP_eq_length]
  exact fun id hid => isSome_get?_of_mem_subtree forest hid

include hpresent

/-- What copying does, in two steps: the copies are added, and the first one is hung up. -/
theorem copySubtree_eq (placement : Transform) :
    a.copySubtree root parent placement = (some a.size,
      ((⟨a.nodes ++ (a.copies root parent placement).toArray⟩ : Arena).modify a.size
        fun node => { node with parent := none }).hang a.size parent) := by
  have hsome : (a.subtree root).isEmpty = false := by
    rw [forest.subtree_of_present hpresent]
    rfl
  unfold copySubtree
  simp only [hsome, Bool.false_eq_true, if_false]
  rfl

theorem size_copySubtree (placement : Transform) :
    (a.copySubtree root parent placement).2.size = a.size + (a.subtree root).length := by
  rw [copySubtree_eq forest hpresent, size_hang, size_modify, ← length_copies forest placement]
  exact Array.size_append

/-- **Where a copy is found, and what has changed elsewhere.** -/
theorem get?_copySubtree (hparent : ∀ p, parent = some p → p < a.size) (placement : Transform)
    (other : NodeId) :
    (a.copySubtree root parent placement).2.get? other =
      if other < a.size then (a.get? other).map fun node =>
        { node with children := node.children ++ (if parent = some other then [a.size] else []) }
      else ((a.subtree root)[other - a.size]?.bind a.get?).map fun source =>
        { copyNode (a.copyOf root) parent placement source with
          parent := if other = a.size then parent else source.parent.bind (a.copyOf root) } := by
  have hextended : ∀ id, (⟨a.nodes ++ (a.copies root parent placement).toArray⟩ : Arena).get? id =
      if id < a.size then a.get? id else (a.copies root parent placement)[id - a.size]? := by
    intro id
    unfold get? size
    rw [Array.getElem?_append]
    simp only [List.getElem?_toArray]
  have hlist := forest.subtree_of_present hpresent
  obtain ⟨state, hstate, -⟩ := present_iff.mp hpresent
  have hfirst : (⟨a.nodes ++ (a.copies root parent placement).toArray⟩ : Arena).get? a.size =
      some (copyNode (a.copyOf root) parent placement state) := by
    rw [hextended, if_neg (Nat.lt_irrefl _), Nat.sub_self, getElem?_copies forest, hlist]
    simp [hstate]
  obtain ⟨loose, hloose⟩ : ∃ loose, loose =
      (⟨a.nodes ++ (a.copies root parent placement).toArray⟩ : Arena).modify a.size
        fun node => { node with parent := none } := ⟨_, rfl⟩
  have hcontains : parent.filter loose.contains = parent := by
    refine filter_contains fun p hp => ?_
    rw [hloose, size_modify, size, Array.size_append]
    exact Nat.lt_of_lt_of_le (hparent p hp) (Nat.le_add_right _ _)
  have hget : ∀ id, loose.get? id =
      if a.size = id then some
        { copyNode (a.copyOf root) parent placement state with parent := none }
      else if id < a.size then a.get? id else (a.copies root parent placement)[id - a.size]? := by
    intro id
    rw [hloose, get?_modify]
    by_cases h : a.size = id
    · subst h
      rw [if_pos rfl, if_pos rfl, hfirst, Option.map_some]
    · rw [if_neg h, if_neg h, hextended]
  have hself : ¬ parent = some a.size := fun heq => Nat.lt_irrefl _ (hparent _ heq)
  rw [copySubtree_eq forest hpresent, ← hloose, get?_hang, hcontains, hget, hget, if_pos rfl,
    Option.bind_some]
  by_cases h : a.size = other
  · subst h
    simp [hlist, hstate, hself, copyNode]
  · by_cases hlt : other < a.size
    · simp [h, hlt]
    · have hnone : ¬ parent = some other := fun heq => hlt (hparent _ heq)
      simp only [h, hlt, getElem?_copies forest, if_false, Ne.symm h, hnone, List.append_nil]
      cases (a.subtree root)[other - a.size]?.bind a.get? with
      | none => rfl
      | some source => simp [copyNode]

end

/-- The children that are copied are those that are drawn. -/
theorem filterMap_copyOf {rank : NodeId → Nat} (forest : a.Forest rank) (h : id ∈ a.subtree root)
    (hnode : a.get? id = some node) :
    node.children.filterMap (a.copyOf root) = (a.branches id).map (a.copyName root) := by
  rw [branches_eq hnode, ← List.filterMap_eq_map, List.filterMap_filter]
  refine List.filterMap_congr fun child hchild => ?_
  by_cases hpresent : a.present child = true
  · have hbranch : child ∈ a.branches id := mem_branches.mpr ⟨hpresent, node, hnode, hchild⟩
    rw [if_pos hpresent, copyOf_of_mem (forest.mem_subtree_of_mem_branches h hbranch)]
    rfl
  · rw [if_neg hpresent, copyOf_of_not_mem fun hmem => hpresent (forest.present_of_mem_subtree hmem)]

/-- The copy of the root comes first. -/
theorem copyName_eq_size_iff {rank : NodeId → Nat} (forest : a.Forest rank)
    (hid : id ∈ a.subtree root) : a.copyName root id = a.size ↔ id = root := by
  have hpresent := (forest.mem_subtree_iff.mp hid).1
  have hfirst : (a.subtree root)[0]? = some root := by
    rw [forest.subtree_of_present hpresent]
    rfl
  have hroot := copyName_of_getElem? (forest.nodup_subtree root) hfirst
  rw [Nat.add_zero] at hroot
  rw [← hroot, copyName_inj hid]

/-- **Where the copy of a node is found.** -/
theorem get?_copySubtree_copyName {rank : NodeId → Nat} (forest : a.Forest rank)
    (hparent : ∀ p, parent = some p → p < a.size) (placement : Transform)
    (hid : id ∈ a.subtree root) (hsource : a.get? id = some source) :
    (a.copySubtree root parent placement).2.get? (a.copyName root id) =
      some { copyNode (a.copyOf root) parent placement source with
        parent := if id = root then parent else source.parent.bind (a.copyOf root) } := by
  have hpresent := (forest.mem_subtree_iff.mp hid).1
  have hroot := copyName_eq_size_iff forest hid
  obtain ⟨i, hi⟩ := List.getElem?_of_mem hid
  have hname := copyName_of_getElem? (forest.nodup_subtree root) hi
  rw [get?_copySubtree forest hpresent hparent,
    if_neg (Nat.not_lt_of_le (le_copyName a root id))]
  simp only [hroot]
  rw [hname, Nat.add_sub_cancel_left, hi, Option.bind_some, hsource, Option.map_some]

/-! ## Copies and links -/

/-- The links of the arena `b` are those of `a` and, beside them, those of a copy of a subtree. -/
structure Grafted (a b : Arena) (root : NodeId) (parent : Option NodeId) : Prop where
  size : b.size = a.size + (a.subtree root).length
  kept : ∀ {id}, id < a.size → b.parent? id = a.parent? id ∧
    b.childrenOf id = a.childrenOf id ++ (if parent = some id then [a.size] else [])
  copied : ∀ {id}, id ∈ a.subtree root →
    b.parent? (a.copyName root id) =
      (if id = root then parent else (a.parent? id).map (a.copyName root)) ∧
    b.childrenOf (a.copyName root id) = (a.branches id).map (a.copyName root)

/-- A branch hangs from its node. -/
theorem Joined.mem_branches_iff (joined : a.Joined) {child : NodeId} :
    child ∈ a.branches id ↔ a.present child = true ∧ a.parent? child = some id := by
  rw [mem_branches, ← joined.mem_childrenOf]
  refine and_congr_right fun _ => ⟨?_, fun hchild => ?_⟩
  · rintro ⟨node, hnode, hchild⟩
    rwa [childrenOf_of_get? hnode]
  · obtain ⟨node, hnode⟩ := exists_get? (lt_size_of_mem_childrenOf hchild)
    rw [childrenOf_of_get? hnode] at hchild
    exact ⟨node, hnode, hchild⟩

namespace Grafted

variable {rank : NodeId → Nat} (h : a.Grafted b root parent) (joined : a.Joined)
  (forest : a.Forest rank)

include h forest

/-- A node is old, a copy, or not there. -/
theorem cases_id (id : NodeId) : id < a.size ∨
    (∃ source ∈ a.subtree root, id = a.copyName root source) ∨ b.size ≤ id := by
  by_cases hlt : id < a.size
  · exact Or.inl hlt
  · by_cases hnew : id < b.size
    · obtain ⟨i, rfl⟩ := Nat.exists_eq_add_of_le (Nat.le_of_not_lt hlt)
      rw [h.size, Nat.add_lt_add_iff_left] at hnew
      have hname := copyName_of_getElem? (forest.nodup_subtree root) (List.getElem?_eq_getElem hnew)
      exact Or.inr (Or.inl ⟨_, List.getElem_mem hnew, hname.symm⟩)
    · exact Or.inr (Or.inr (Nat.le_of_not_lt hnew))

omit forest in
theorem copyName_lt_size (hid : id ∈ a.subtree root) : a.copyName root id < b.size := by
  rw [h.size, copyName]
  exact Nat.add_lt_add_left (List.idxOf_lt_length_iff.mpr hid) a.size

include joined

/-- **What hangs from a node afterwards**: what did before, the first copy, and copies of branches. -/
theorem mem_childrenOf_iff {child p : NodeId} (hparent : ∀ p, parent = some p → p < a.size) :
    child ∈ b.childrenOf p ↔ a.parent? child = some p ∨ parent = some p ∧ child = a.size ∨
      ∃ above ∈ a.subtree root, ∃ below ∈ a.branches above,
        child = a.copyName root below ∧ p = a.copyName root above := by
  rcases h.cases_id forest p with hlt | ⟨source, hsource, rfl⟩ | hle
  · have hlist : child ∈ (if parent = some p then [a.size] else []) ↔
        parent = some p ∧ child = a.size := by
      split <;> simp [*]
    rw [(h.kept hlt).2, List.mem_append, joined.mem_childrenOf, hlist]
    refine or_congr_right (or_iff_left ?_).symm
    rintro ⟨above, -, below, -, -, rfl⟩
    exact absurd hlt (Nat.not_lt_of_le (le_copyName a root above))
  · have hlarge := le_copyName a root source
    rw [(h.copied hsource).2, List.mem_map]
    constructor
    · rintro ⟨below, hbelow, rfl⟩
      exact Or.inr (Or.inr ⟨source, hsource, below, hbelow, rfl, rfl⟩)
    · rintro (hup | ⟨hp, -⟩ | ⟨above, habove, below, hbelow, rfl, heq⟩)
      · exact absurd (joined.parent_lt hup) (Nat.not_lt_of_le hlarge)
      · exact absurd (hparent _ hp) (Nat.not_lt_of_le hlarge)
      · obtain rfl : source = above := (copyName_inj hsource).mp heq
        exact ⟨below, hbelow, rfl⟩
  · have hlarge : a.size ≤ p := by
      rw [h.size] at hle
      omega
    rw [(links_of_size_le hle).2.2]
    refine iff_of_false List.not_mem_nil ?_
    rintro (hup | ⟨hp, -⟩ | ⟨above, habove, -, -, -, rfl⟩)
    · exact absurd (joined.parent_lt hup) (Nat.not_lt_of_le hlarge)
    · exact absurd (hparent _ hp) (Nat.not_lt_of_le hlarge)
    · exact absurd (h.copyName_lt_size habove) (Nat.not_lt_of_le hle)

/-- **What a node hangs from afterwards**, in the same words. -/
theorem parent?_iff {child p : NodeId} (hpresent : a.present root = true) :
    b.parent? child = some p ↔ a.parent? child = some p ∨ parent = some p ∧ child = a.size ∨
      ∃ above ∈ a.subtree root, ∃ below ∈ a.branches above,
        child = a.copyName root below ∧ p = a.copyName root above := by
  have hself := forest.self_mem_subtree hpresent
  have hfirst := (copyName_eq_size_iff forest hself).mpr rfl
  rcases h.cases_id forest child with hlt | ⟨source, hsource, rfl⟩ | hle
  · rw [(h.kept hlt).1]
    refine (or_iff_left ?_).symm
    rintro (⟨-, rfl⟩ | ⟨-, -, below, -, rfl, -⟩)
    · exact absurd hlt (Nat.lt_irrefl _)
    · exact absurd hlt (Nat.not_lt_of_le (le_copyName a root below))
  · have hold : ¬ a.parent? (a.copyName root source) = some p := by
      rw [(links_of_size_le (le_copyName a root source)).1]
      simp
    rw [(h.copied hsource).1, or_iff_right hold, copyName_eq_size_iff forest hsource]
    by_cases hroot : source = root
    · subst hroot
      rw [if_pos rfl, and_iff_left rfl]
      refine (or_iff_left ?_).symm
      -- A root is no branch of a node below it.
      rintro ⟨above, habove, below, hbelow, heq, -⟩
      obtain rfl : source = below := (copyName_inj hsource).mp heq
      have hle := forest.rank_le_of_mem_subtree habove
      have hlt := forest.rank_lt_of_mem_branches hbelow
      omega
    · rw [if_neg hroot, or_iff_right (fun hboth => hroot hboth.2), Option.map_eq_some_iff]
      constructor
      · rintro ⟨above, hup, rfl⟩
        rcases forest.eq_or_exists_parent hsource with heq | ⟨parent, hparent, hbranch⟩
        · exact absurd heq hroot
        · obtain rfl : above = parent :=
            Option.some.inj (hup.symm.trans (joined.mem_branches_iff.mp hbranch).2)
          exact ⟨above, hparent, source, hbranch, rfl, rfl⟩
      · rintro ⟨above, -, below, hbelow, heq, rfl⟩
        obtain rfl : source = below := (copyName_inj hsource).mp heq
        exact ⟨above, (joined.mem_branches_iff.mp hbelow).2, rfl⟩
  · have hlarge : a.size ≤ child := by
      rw [h.size] at hle
      omega
    rw [(links_of_size_le hle).1, (links_of_size_le hlarge).1]
    refine iff_of_false (by simp) ?_
    rintro (hup | ⟨-, rfl⟩ | ⟨above, habove, below, hbelow, rfl, -⟩)
    · simp at hup
    · rw [← hfirst] at hle
      exact absurd (h.copyName_lt_size hself) (Nat.not_lt_of_le hle)
    · have hmem := forest.mem_subtree_of_mem_branches habove hbelow
      exact absurd (h.copyName_lt_size hmem) (Nat.not_lt_of_le hle)

theorem nodup_childrenOf (p : NodeId) : (b.childrenOf p).Nodup := by
  rcases h.cases_id forest p with hlt | ⟨source, hsource, rfl⟩ | hle
  · rw [(h.kept hlt).2]
    refine List.Nodup.append (joined.nodup_childrenOf p) (by split <;> simp) fun child hchild hnew => ?_
    have heq : child = a.size := by
      split at hnew
      · simpa using hnew
      · simp at hnew
    have hup := joined.mem_childrenOf.mp hchild
    exact absurd (lt_size_of_parent? hup) (Nat.not_lt_of_le (Nat.le_of_eq heq.symm))
  · rw [(h.copied hsource).2]
    refine List.Nodup.map_on (fun first hfirst second _ heq => ?_) (forest.nodup_branches source)
    exact (copyName_inj (forest.mem_subtree_of_mem_branches hsource hfirst)).mp heq
  · rw [(links_of_size_le hle).2.2]
    exact List.nodup_nil

/-- **The links of a copy are joined**, to each other and to those that were there before. -/
theorem joined_graft (hpresent : a.present root = true)
    (hparent : ∀ p, parent = some p → p < a.size) : b.Joined where
  mem_childrenOf := by
    intro child p
    rw [h.mem_childrenOf_iff joined forest hparent, h.parent?_iff joined forest hpresent]
  nodup_childrenOf := h.nodup_childrenOf joined forest

section

omit joined
variable (hstays : ∀ id ∈ a.subtree root, b.present (a.copyName root id) = true)
include hstays

/-- The branches of a copy are the copies of the branches, where no copy is gone. -/
theorem branches_copyName (hid : id ∈ a.subtree root) :
    b.branches (a.copyName root id) = (a.branches id).map (a.copyName root) := by
  obtain ⟨copy, hcopy, -⟩ := present_iff.mp (hstays id hid)
  rw [branches_eq hcopy, ← childrenOf_of_get? hcopy, (h.copied hid).2, List.filter_eq_self]
  intro name hname
  obtain ⟨child, hchild, rfl⟩ := List.mem_map.mp hname
  exact hstays child (forest.mem_subtree_of_mem_branches hid hchild)

/-- **The subtree of the copy is the copy of the subtree.** -/
theorem subtree_copy {rank' : NodeId → Nat} (forest' : b.Forest rank')
    (hpresent : a.present root = true) : b.subtree a.size = (a.subtree root).map (a.copyName root) := by
  have hself := forest.self_mem_subtree hpresent
  rw [← (copyName_eq_size_iff forest hself).mpr rfl]
  exact forest.map_subtree forest' (a.copyName root) hpresent (hstays root hself)
    fun id hid => h.branches_copyName forest hstays hid

end

end Grafted

/-- **Copying a subtree grafts a copy of it.** -/
theorem Joined.grafted_copySubtree {rank : NodeId → Nat} (joined : a.Joined) (forest : a.Forest rank)
    (hpresent : a.present root = true) (hparent : ∀ p, parent = some p → p < a.size)
    (placement : Transform) : a.Grafted (a.copySubtree root parent placement).2 root parent where
  size := size_copySubtree forest hpresent placement
  kept := by
    intro id hlt
    obtain ⟨node, hnode⟩ := exists_get? hlt
    have hkept := get?_copySubtree forest hpresent hparent placement id
    rw [if_pos hlt, hnode, Option.map_some] at hkept
    rw [parent?_of_get? hkept, childrenOf_of_get? hkept, parent?_of_get? hnode,
      childrenOf_of_get? hnode]
    exact ⟨rfl, rfl⟩
  copied := by
    intro id hid
    obtain ⟨source, hsource, -⟩ := present_iff.mp (forest.present_of_mem_subtree hid)
    have hcopy := get?_copySubtree_copyName forest hparent placement hid hsource
    rw [parent?_of_get? hcopy, childrenOf_of_get? hcopy, parent?_of_get? hsource]
    refine ⟨?_, filterMap_copyOf forest hid hsource⟩
    by_cases hroot : id = root
    · simp only [if_pos hroot]
    · simp only [if_neg hroot]
      rcases forest.eq_or_exists_parent hid with heq | ⟨p, hp, hbranch⟩
      · exact absurd heq hroot
      · have hup := (joined.mem_branches_iff.mp hbranch).2
        rw [parent?_of_get? hsource] at hup
        rw [hup, Option.bind_some, Option.map_some, copyOf_of_mem hp]

theorem previous?_copySubtree_of_lt {rank : NodeId → Nat} (forest : a.Forest rank)
    (hpresent : a.present root = true) (hparent : ∀ p, parent = some p → p < a.size)
    (placement : Transform) (hlt : id < a.size) :
    (a.copySubtree root parent placement).2.previous? id = a.previous? id := by
  obtain ⟨node, hnode⟩ := exists_get? hlt
  have hkept := get?_copySubtree forest hpresent hparent placement id
  rw [if_pos hlt, hnode, Option.map_some] at hkept
  rw [previous?_of_get? hkept, previous?_of_get? hnode]

/-- A copy was made after a copy, or after the node that the first copy hangs from. -/
theorem previous?_copySubtree_copyName {rank : NodeId → Nat} (forest : a.Forest rank)
    (hparent : ∀ p, parent = some p → p < a.size) (placement : Transform)
    (hid : id ∈ a.subtree root) :
    (a.copySubtree root parent placement).2.previous? (a.copyName root id) =
      ((a.previous? id).bind (a.copyOf root)).or parent := by
  obtain ⟨source, hsource, -⟩ := present_iff.mp (forest.present_of_mem_subtree hid)
  have hcopy := get?_copySubtree_copyName forest hparent placement hid hsource
  rw [previous?_of_get? hcopy, previous?_of_get? hsource]
  rfl

/-! ## Copies and the scene -/

/-- The copy of a node of a subtree whose root's copy hangs from `parent`. -/
structure IsCopy (a : Arena) (root : NodeId) (parent : Option NodeId) (id : NodeId)
    (source copy : Node) : Prop where
  resembles : source.Resembles copy
  name : id ≠ root → copy.name = source.name
  dead : source.dead = true → copy.dead = true
  destroyed : copy.destroyed = false
  children : copy.children = (a.branches id).map (a.copyName root)
  parent : copy.parent = if id = root then parent else source.parent.map (a.copyName root)
  previous : copy.previous = copy.parent

/-- The arena `b` is `a` with a copy of a subtree. -/
structure Copied (a b : Arena) (root : NodeId) (parent : Option NodeId) : Prop where
  size : b.size = a.size + (a.subtree root).length
  kept : ∀ {id node}, a.get? id = some node → b.get? id = some { node with
    children := node.children ++ (if parent = some id then [a.size] else []) }
  copy : ∀ {id source}, id ∈ a.subtree root → a.get? id = some source →
    ∃ copy, b.get? (a.copyName root id) = some copy ∧ a.IsCopy root parent id source copy

/-- **Copying a subtree of the scene gives a copy.** -/
theorem Scene.copied_copySubtree (scene : a.Scene) (hpresent : a.present root = true)
    (hparent : ∀ p, parent = some p → p < a.size) (placement : Transform) :
    a.Copied (a.copySubtree root parent placement).2 root parent := by
  refine ⟨size_copySubtree scene.forest hpresent placement, fun {id node} hnode => ?_,
    fun {id source} hid hsource => ?_⟩
  · rw [get?_copySubtree scene.forest hpresent hparent, if_pos (lt_size_of_get? hnode), hnode,
      Option.map_some]
  have hlook := get?_copySubtree_copyName scene.forest hparent placement hid hsource
  obtain ⟨state, hstate, -⟩ := present_iff.mp hpresent
  refine ⟨_, hlook, ⟨rfl, rfl, rfl, rfl, rfl, rfl⟩, fun _ => rfl, fun h => h,
    (scene.hidden_of_mem_subtree hstate hid hsource).2, filterMap_copyOf scene.forest hid hsource,
    ?_, ?_⟩
  · by_cases heq : id = root
    · simp only [if_pos heq]
    · obtain ⟨p, hp, hup⟩ := scene.forest.parent_of_mem_subtree hid heq hsource
      simp only [if_neg heq, hup, Option.bind_some, Option.map_some, copyOf_of_mem hp]
  · by_cases heq : id = root
    · -- What the root was made after is older, and is not copied.
      have hold : source.previous.bind (a.copyOf root) = none := by
        cases hprevious : source.previous with
        | none => rfl
        | some p =>
          have hlt := (scene.previous hsource hprevious).1
          rw [heq] at hlt
          rw [Option.bind_some, copyOf_of_not_mem]
          exact fun hmem => Nat.lt_irrefl _ (Nat.lt_of_lt_of_le hlt (scene.le_of_mem_subtree hmem))
      simp only [if_pos heq, copyNode, hold, Option.none_or]
    · obtain ⟨p, hp, hup⟩ := scene.forest.parent_of_mem_subtree hid heq hsource
      simp only [if_neg heq, copyNode, hup, scene.parent hsource hup, Option.bind_some,
        copyOf_of_mem hp, Option.some_or]

/-- Copies of parents come before copies of their children. -/
theorem copyName_lt {rank : NodeId → Nat} (forest : a.Forest rank) (h : id ∈ a.subtree root)
    (hchild : other ∈ a.branches id) : a.copyName root id < a.copyName root other :=
  Nat.add_lt_add_left (forest.idxOf_lt_of_mem_branches h hchild) a.size

/-- The node that a copy other than the first one hangs from. -/
theorem IsCopy.exists_parent {copy : Node} (hlinks : a.IsCopy root parent id source copy)
    (scene : a.Scene) (hid : id ∈ a.subtree root) (hne : id ≠ root)
    (hsource : a.get? id = some source) :
    ∃ p ∈ a.subtree root, source.parent = some p ∧ id ∈ a.branches p ∧
      copy.parent = some (a.copyName root p) := by
  obtain ⟨p, hp, hup⟩ := scene.forest.parent_of_mem_subtree hid hne hsource
  obtain ⟨above, habove, -⟩ := present_iff.mp (scene.forest.present_of_mem_subtree hp)
  refine ⟨p, hp, hup, mem_branches.mpr ⟨scene.forest.present_of_mem_subtree hid, above, habove, ?_⟩, ?_⟩
  · exact (scene.mem_children habove).mpr ⟨source, hsource, hup⟩
  · rw [hlinks.parent, if_neg hne, hup, Option.map_some]

/-- Copying hides and shows nothing. -/
theorem Scene.hidden_copySubtree (scene : a.Scene) (hpresent : a.present root = true)
    (hparent : ∀ p, parent = some p → p < a.size) (placement : Transform) {state copy : Node}
    (hstate : a.get? root = some state) (hlarge : a.size ≤ id)
    (hcopy : (a.copySubtree root parent placement).2.get? id = some copy) :
    copy.hidden = state.hidden := by
  rw [get?_copySubtree scene.forest hpresent hparent, if_neg (Nat.not_lt_of_le hlarge)] at hcopy
  obtain ⟨source, hsource, rfl⟩ := Option.map_eq_some_iff.mp hcopy
  obtain ⟨before, hbefore, hsource⟩ := Option.bind_eq_some_iff.mp hsource
  exact (scene.hidden_of_mem_subtree hstate (List.mem_of_getElem? hbefore) hsource).1

/-- What may be done to a copy: it may be moved, killed, hidden or shown, and the first one renamed. -/
structure Touches (first id : NodeId) (copy later : Node) : Prop where
  resembles : copy.Resembles later
  name : id ≠ first → later.name = copy.name
  dead : copy.dead = true → later.dead = true
  destroyed : later.destroyed = copy.destroyed
  children : later.children = copy.children
  parent : later.parent = copy.parent
  previous : later.previous = copy.previous

namespace Copied

variable (h : a.Copied b root parent) (scene : a.Scene) (hpresent : a.present root = true)
  (hparent : ∀ p, parent = some p → p < a.size)

section

include h scene

/-- A node of the later arena was there before, or is a copy. -/
theorem cases_get? {later : Node} (hlater : b.get? id = some later) :
    (∃ node, a.get? id = some node ∧ later = { node with
      children := node.children ++ (if parent = some id then [a.size] else []) }) ∨
    ∃ before source, before ∈ a.subtree root ∧ id = a.copyName root before ∧
      a.get? before = some source ∧ a.IsCopy root parent before source later := by
  by_cases hlt : id < a.size
  · obtain ⟨node, hnode⟩ := exists_get? hlt
    rw [h.kept hnode] at hlater
    exact Or.inl ⟨node, hnode, (Option.some.inj hlater).symm⟩
  · obtain ⟨i, rfl⟩ := Nat.exists_eq_add_of_le (Nat.le_of_not_lt hlt)
    have hi := lt_size_of_get? hlater
    rw [h.size, Nat.add_lt_add_iff_left] at hi
    have hget := List.getElem?_eq_getElem hi
    have hmem := List.getElem_mem hi
    obtain ⟨source, hsource, -⟩ := present_iff.mp (scene.forest.present_of_mem_subtree hmem)
    have hname := copyName_of_getElem? (scene.forest.nodup_subtree root) hget
    obtain ⟨copy, hcopy, hlinks⟩ := h.copy hmem hsource
    rw [hname] at hcopy
    obtain rfl : copy = later := Option.some.inj (hcopy.symm.trans hlater)
    exact Or.inr ⟨_, source, hmem, hname.symm, hsource, hlinks⟩

/-- The description leaves open what may be done to the copies. -/
theorem touch {c : Arena} (hsize : c.size = b.size)
    (hkept : ∀ {id}, id < a.size → c.get? id = b.get? id)
    (htouches : ∀ {id copy}, a.size ≤ id → b.get? id = some copy →
      ∃ later, c.get? id = some later ∧ Touches a.size id copy later) :
    a.Copied c root parent := by
  refine ⟨hsize.trans h.size, fun {id node} hnode => ?_, fun {id source} hid hsource => ?_⟩
  · rw [hkept (lt_size_of_get? hnode), h.kept hnode]
  · obtain ⟨copy, hcopy, hlinks⟩ := h.copy hid hsource
    obtain ⟨later, hlater, htouch⟩ := htouches (le_copyName a root id) hcopy
    refine ⟨later, hlater, hlinks.resembles.trans htouch.resembles, fun hne => ?_,
      fun hsource => htouch.dead (hlinks.dead hsource), htouch.destroyed.trans hlinks.destroyed,
      htouch.children.trans hlinks.children, htouch.parent.trans hlinks.parent, ?_⟩
    · refine (htouch.name fun heq => hne ?_).trans (hlinks.name hne)
      exact (copyName_eq_size_iff scene.forest hid).mp heq
    · rw [htouch.previous, htouch.parent, hlinks.previous]

/-- The copy of the root hangs from `parent`. -/
theorem get?_size (hpresent : a.present root = true) : ∃ source copy, a.get? root = some source ∧
    b.get? a.size = some copy ∧ a.IsCopy root parent root source copy := by
  obtain ⟨source, hsource, -⟩ := present_iff.mp hpresent
  have hself := scene.forest.self_mem_subtree hpresent
  obtain ⟨copy, hcopy, hlinks⟩ := h.copy hself hsource
  rw [(copyName_eq_size_iff scene.forest hself).mpr rfl] at hcopy
  exact ⟨source, copy, hsource, hcopy, hlinks⟩

/-- The links afterwards are those of a graft. -/
theorem grafted : a.Grafted b root parent where
  size := h.size
  kept := by
    intro id hlt
    obtain ⟨node, hnode⟩ := exists_get? hlt
    have hkept := h.kept hnode
    rw [parent?_of_get? hkept, childrenOf_of_get? hkept, parent?_of_get? hnode,
      childrenOf_of_get? hnode]
    exact ⟨rfl, rfl⟩
  copied := by
    intro id hid
    obtain ⟨source, hsource, -⟩ := present_iff.mp (scene.forest.present_of_mem_subtree hid)
    obtain ⟨copy, hcopy, hlinks⟩ := h.copy hid hsource
    rw [parent?_of_get? hcopy, childrenOf_of_get? hcopy, parent?_of_get? hsource]
    exact ⟨hlinks.parent, hlinks.children⟩

end

include h scene

include hparent

/-- **Links from children to parents.** -/
theorem parent_lt {later : Node} (hlater : b.get? id = some later) {p : NodeId}
    (hp : later.parent = some p) : p < id := by
  rcases h.cases_get? scene hlater with ⟨node, hnode, rfl⟩ | ⟨before, source, hbefore, rfl, hsource, hlinks⟩
  · exact scene.parent_lt hnode hp
  · by_cases hroot : before = root
    · rw [hlinks.parent, if_pos hroot] at hp
      exact Nat.lt_of_lt_of_le (hparent p hp) (le_copyName a root before)
    · obtain ⟨q, hq, -, hbranch, hup⟩ := hlinks.exists_parent scene hbefore hroot hsource
      obtain rfl : a.copyName root q = p := Option.some.inj (hup.symm.trans hp)
      exact copyName_lt scene.forest hq hbranch

include hpresent

theorem joined : b.Joined :=
  (h.grafted scene).joined_graft scene.joined scene.forest hpresent hparent

/-- **The copies and the nodes that were there before form a forest.** -/
theorem forest : b.Forest fun id => b.size - id where
  mem_children := (h.joined scene hpresent hparent).mem_children
  nodup_children := (h.joined scene hpresent hparent).nodup_children
  rank_lt := by
    intro id state p hstate hup
    have hlt := h.parent_lt scene hparent hstate hup
    exact Nat.sub_lt_sub_left (Nat.lt_trans hlt (lt_size_of_get? hstate)) hlt
  rank_le := fun id => Nat.sub_le b.size id

omit hpresent hparent in
theorem present_copyName (hid : id ∈ a.subtree root) : b.present (a.copyName root id) = true := by
  obtain ⟨source, hsource, -⟩ := present_iff.mp (scene.forest.present_of_mem_subtree hid)
  obtain ⟨copy, hcopy, hlinks⟩ := h.copy hid hsource
  exact present_iff.mpr ⟨copy, hcopy, hlinks.destroyed⟩

/-- **The subtree of the copy is the copy of the subtree.** -/
theorem subtree_eq : b.subtree a.size = (a.subtree root).map (a.copyName root) :=
  (h.grafted scene).subtree_copy scene.forest (fun _ hid => h.present_copyName scene hid)
    (h.forest scene hpresent hparent) hpresent

/-- The subtree of the copy has all nodes that are new. -/
theorem mem_subtree_iff : id ∈ b.subtree a.size ↔ a.size ≤ id ∧ id < b.size := by
  rw [h.subtree_eq scene hpresent hparent, List.mem_map]
  constructor
  · rintro ⟨before, hbefore, rfl⟩
    obtain ⟨source, hsource, -⟩ := present_iff.mp (scene.forest.present_of_mem_subtree hbefore)
    obtain ⟨copy, hcopy, -⟩ := h.copy hbefore hsource
    exact ⟨le_copyName a root before, lt_size_of_get? hcopy⟩
  · rintro ⟨hle, hlt⟩
    obtain ⟨later, hlater⟩ := exists_get? hlt
    rcases h.cases_get? scene hlater with ⟨node, hnode, -⟩ | ⟨before, source, hbefore, rfl, -, -⟩
    · exact absurd (lt_size_of_get? hnode) (Nat.not_lt_of_le hle)
    · exact ⟨before, hbefore, rfl⟩

omit hparent in
/-- **A shown copy belongs to the scene**, if it hangs from a solid node that is shown. -/
theorem scene_of_shown (hfits : ∀ p, parent = some p →
      ∃ state, a.get? p = some state ∧ state.ethereal = false ∧ state.hidden = false)
    (hshown : ∀ {id later}, a.size ≤ id → b.get? id = some later → later.hidden = false) :
    b.Scene := by
  have hparent : ∀ p, parent = some p → p < a.size := fun p hp => by
    obtain ⟨state, hstate, -⟩ := hfits p hp
    exact lt_size_of_get? hstate
  have hjoined := h.joined scene hpresent hparent
  refine ⟨hjoined.mem_children, hjoined.nodup_children, ?_, ?_, ?_, ?_, ?_⟩
  · intro id later p hlater hp
    rcases h.cases_get? scene hlater with
      ⟨node, hnode, rfl⟩ | ⟨before, source, hbefore, rfl, hsource, hlinks⟩
    · obtain ⟨hlt, state, hstate, hsolid⟩ := scene.previous hnode hp
      exact ⟨hlt, _, h.kept hstate, hsolid⟩
    · rw [hlinks.previous] at hp
      refine ⟨h.parent_lt scene hparent hlater hp, ?_⟩
      by_cases hroot : before = root
      · rw [hlinks.parent, if_pos hroot] at hp
        obtain ⟨state, hstate, hsolid, -⟩ := hfits p hp
        exact ⟨_, h.kept hstate, hsolid⟩
      · obtain ⟨q, hq, hup, -, hup'⟩ := hlinks.exists_parent scene hbefore hroot hsource
        obtain rfl : a.copyName root q = p := Option.some.inj (hup'.symm.trans hp)
        obtain ⟨-, state, hstate, hsolid⟩ := scene.previous hsource (scene.parent hsource hup)
        obtain ⟨copy, hcopy, hlinks'⟩ := h.copy hq hstate
        exact ⟨copy, hcopy, hlinks'.resembles.ethereal.trans hsolid⟩
  · intro id later p hlater hp
    rcases h.cases_get? scene hlater with ⟨node, hnode, rfl⟩ | ⟨before, source, -, -, -, hlinks⟩
    · exact (scene.parent hnode hp :)
    · rw [hlinks.previous, hp]
  · intro id later p state hlater hp hstate
    rcases h.cases_get? scene hlater with
      ⟨node, hnode, rfl⟩ | ⟨before, source, hbefore, rfl, hsource, hlinks⟩
    · obtain ⟨-, above, habove, -⟩ := scene.previous hnode (scene.parent hnode hp)
      rw [h.kept habove] at hstate
      rw [← Option.some.inj hstate]
      exact (scene.shown hnode hp habove :)
    · refine Or.inr ?_
      rw [hshown (le_copyName a root before) hlater]
      by_cases hroot : before = root
      · rw [hlinks.parent, if_pos hroot] at hp
        obtain ⟨above, habove, -, hhidden⟩ := hfits p hp
        rw [h.kept habove] at hstate
        rw [← Option.some.inj hstate]
        exact hhidden.symm
      · obtain ⟨q, -, -, -, hup'⟩ := hlinks.exists_parent scene hbefore hroot hsource
        obtain rfl : a.copyName root q = p := Option.some.inj (hup'.symm.trans hp)
        exact (hshown (le_copyName a root q) hstate).symm
  · intro id later hlater hhidden
    rcases h.cases_get? scene hlater with ⟨node, hnode, rfl⟩ | ⟨before, source, -, rfl, -, -⟩
    · exact (scene.sealed hnode hhidden :)
    · rw [hshown (le_copyName a root before) hlater] at hhidden
      cases hhidden
  · intro id later hlater hgone
    rcases h.cases_get? scene hlater with ⟨node, hnode, rfl⟩ | ⟨before, source, -, -, -, hlinks⟩
    · exact (scene.gone hnode hgone :)
    · rw [hlinks.destroyed] at hgone
      cases hgone

end Copied

/-! ## Trees that are alike -/

/-- The map carries the subtree under `root` to the one under `other`: one to one, children in the
same order, and each node to one that looks the same. Only the roots may differ in name. -/
structure Carries (f : NodeId → NodeId) (a : Arena) (root : NodeId) (b : Arena) (other : NodeId) :
    Prop where
  mem : root ∈ a.subtree root
  eq : f root = other
  subtree : b.subtree other = (a.subtree root).map f
  injective : ∀ first ∈ a.subtree root, ∀ second ∈ a.subtree root, f first = f second → first = second
  branches : ∀ id ∈ a.subtree root, b.branches (f id) = (a.branches id).map f
  node : ∀ id ∈ a.subtree root, ∃ node copy, a.get? id = some node ∧ b.get? (f id) = some copy ∧
    node.Resembles copy ∧ (id ≠ root → copy.name = node.name)

/-- The subtrees under two roots are of the same form. -/
def Alike (a : Arena) (root : NodeId) (b : Arena) (other : NodeId) : Prop :=
  ∃ f, Carries f a root b other

/-- The subtree under a root is the same in two arenas, as far as its form goes. -/
structure SameTree (a b : Arena) (root : NodeId) : Prop where
  subtree : b.subtree root = a.subtree root
  branches : ∀ id ∈ a.subtree root, b.branches id = a.branches id
  node : ∀ {id node}, id ∈ a.subtree root → a.get? id = some node →
    ∃ later, b.get? id = some later ∧ node.Resembles later ∧ (id ≠ root → later.name = node.name)

theorem SameTree.refl (a : Arena) (root : NodeId) : a.SameTree a root :=
  ⟨rfl, fun _ _ => rfl, fun _ hnode => ⟨_, hnode, ⟨rfl, rfl, rfl, rfl, rfl, rfl⟩, fun _ => rfl⟩⟩

theorem SameTree.trans {c : Arena} (h : a.SameTree b root) (h' : b.SameTree c root) :
    a.SameTree c root := by
  refine ⟨h'.subtree.trans h.subtree, fun id hid => ?_, fun {id node} hid hnode => ?_⟩
  · rw [h'.branches id (by rwa [h.subtree]), h.branches id hid]
  · obtain ⟨mid, hmid, hresembles, hname⟩ := h.node hid hnode
    obtain ⟨later, hlater, hresembles', hname'⟩ := h'.node (by rwa [h.subtree]) hmid
    exact ⟨later, hlater, hresembles.trans hresembles', fun hne => (hname' hne).trans (hname hne)⟩

/-- Trees that are alike are so later on, if their forms have not changed. -/
theorem Carries.later {f : NodeId → NodeId} {a' b' : Arena} (h : Carries f a root b other)
    (hsource : a.SameTree a' root) (hcopy : b.SameTree b' other) : Carries f a' root b' other := by
  have himage : ∀ {id}, id ∈ a.subtree root → f id ∈ b.subtree other := by
    intro id hid
    rw [h.subtree]
    exact List.mem_map_of_mem hid
  refine ⟨by rw [hsource.subtree]; exact h.mem, h.eq, ?_, fun first hfirst second hsecond => ?_,
    fun id hid => ?_, fun id hid => ?_⟩
  · rw [hcopy.subtree, hsource.subtree, h.subtree]
  · rw [hsource.subtree] at hfirst hsecond
    exact h.injective first hfirst second hsecond
  · rw [hsource.subtree] at hid
    rw [hsource.branches id hid, hcopy.branches _ (himage hid), h.branches id hid]
  · rw [hsource.subtree] at hid
    obtain ⟨node, copy, hnode, hcopied, hresembles, hname⟩ := h.node id hid
    obtain ⟨node', hnode', hsame, hname'⟩ := hsource.node hid hnode
    obtain ⟨copy', hcopied', hsame', hname''⟩ := hcopy.node (himage hid) hcopied
    refine ⟨node', copy', hnode', hcopied', (hsame.symm.trans hresembles).trans hsame', fun hne => ?_⟩
    have hother : f id ≠ other := by
      rw [← h.eq]
      exact fun heq => hne (h.injective id hid root h.mem heq)
    rw [hname'' hother, hname hne, hname' hne]

/-- **A copy is alike.** -/
theorem Copied.carries (h : a.Copied b root parent) (scene : a.Scene)
    (hpresent : a.present root = true) (hparent : ∀ p, parent = some p → p < a.size) :
    Carries (a.copyName root) a root b a.size := by
  have hself := scene.forest.self_mem_subtree hpresent
  refine ⟨hself, (copyName_eq_size_iff scene.forest hself).mpr rfl, h.subtree_eq scene hpresent hparent,
    fun first hfirst second _ => (copyName_inj hfirst).mp, fun id hid => ?_, fun id hid => ?_⟩
  · exact (h.grafted scene).branches_copyName scene.forest
      (fun _ hid => h.present_copyName scene hid) hid
  · obtain ⟨source, hsource, -⟩ := present_iff.mp (scene.forest.present_of_mem_subtree hid)
    obtain ⟨copy, hcopy, hlinks⟩ := h.copy hid hsource
    exact ⟨source, copy, hsource, hcopy, hlinks.resembles, hlinks.name⟩

/-- **Trees that are both alike to a third one are alike.** -/
theorem Alike.agree {c : Arena} {third : NodeId} {rank : NodeId → Nat} (h : Alike a root b other)
    (h' : Alike a root c third) (forest : a.Forest rank) : Alike b other c third := by
  obtain ⟨f, hf⟩ := h
  obtain ⟨g, hg⟩ := h'
  obtain ⟨back, hback⟩ : ∃ back : NodeId → NodeId, ∀ id ∈ a.subtree root, back (f id) = id := by
    refine ⟨Function.invFunOn f {id | id ∈ a.subtree root}, fun id hid => ?_⟩
    exact Set.InjOn.leftInvOn_invFunOn
      (fun first hfirst second hsecond => hf.injective first hfirst second hsecond) hid
  have himage : ∀ {id}, id ∈ b.subtree other → ∃ source ∈ a.subtree root, id = f source := by
    intro id hid
    rw [hf.subtree] at hid
    obtain ⟨source, hsource, rfl⟩ := List.mem_map.mp hid
    exact ⟨source, hsource, rfl⟩
  have hmap : ∀ ids : List NodeId, ids ⊆ a.subtree root → ids.map g = (ids.map f).map (g ∘ back) := by
    intro ids hids
    rw [List.map_map]
    refine List.map_congr_left fun id hid => ?_
    rw [Function.comp_apply, Function.comp_apply, hback id (hids hid)]
  refine ⟨g ∘ back, ?_, ?_, ?_, fun first hfirst second hsecond heq => ?_, fun id hid => ?_, fun id hid => ?_⟩
  · rw [hf.subtree, ← hf.eq]
    exact List.mem_map_of_mem hf.mem
  · rw [← hf.eq, Function.comp_apply, hback root hf.mem, hg.eq]
  · rw [hg.subtree, hf.subtree]
    exact hmap _ (List.Subset.refl _)
  · obtain ⟨source, hsource, rfl⟩ := himage hfirst
    obtain ⟨source', hsource', rfl⟩ := himage hsecond
    rw [Function.comp_apply, Function.comp_apply, hback source hsource, hback source' hsource'] at heq
    rw [hg.injective source hsource source' hsource' heq]
  · obtain ⟨source, hsource, rfl⟩ := himage hid
    rw [Function.comp_apply, hback source hsource, hg.branches source hsource,
      hf.branches source hsource]
    exact hmap _ fun child hchild => forest.mem_subtree_of_mem_branches hsource hchild
  · obtain ⟨source, hsource, rfl⟩ := himage hid
    obtain ⟨node, copy, hnode, hcopy, hresembles, hname⟩ := hf.node source hsource
    obtain ⟨node', copy', hnode', hcopy', hresembles', hname'⟩ := hg.node source hsource
    obtain rfl : node = node' := Option.some.inj (hnode.symm.trans hnode')
    rw [Function.comp_apply, hback source hsource]
    refine ⟨copy, copy', hcopy, hcopy', hresembles.symm.trans hresembles', fun hne => ?_⟩
    have hsourceNe : source ≠ root := fun heq => hne (by rw [heq, hf.eq])
    rw [hname' hsourceNe, hname hsourceNe]

end Arena
end PlantGrowth
