import PlantGrowth.Proofs.Marks
import PlantGrowth.Proofs.Subtrees

/-!
# Links that agree

A node that hangs from another one is written down twice, as the parent of the one and in the child
list of the other. `Arena.Joined` says that the two agree, in an arena whose nodes hang anywhere.
What an operation does to the links is described look-up by look-up; that it keeps them joined is
proved once, and what is known of special arenas is added to it.
-/

namespace PlantGrowth
namespace Arena

variable {a : Arena} {id other child : NodeId} {parent : Option NodeId} {node : Node}

/-! ## Look-ups after a change of the links -/

theorem lt_size_of_get? (h : a.get? id = some node) : id < a.size := by
  have hcontains := contains_of_get? h
  rwa [contains, decide_eq_true_eq] at hcontains

theorem exists_get? (h : id < a.size) : ∃ node, a.get? id = some node := by
  cases hnode : a.get? id with
  | none => exact absurd (get?_eq_none_iff.mp hnode) (Nat.not_le_of_lt h)
  | some node => exact ⟨node, rfl⟩

theorem get?_push (node : Node) (id : NodeId) :
    (⟨a.nodes.push node⟩ : Arena).get? id = if id = a.size then some node else a.get? id := by
  unfold get? size
  rw [Array.getElem?_push]

/-- **Hanging a node changes the child lists of its old and its new parent**, and its own parent. -/
theorem get?_hang (a : Arena) (id : NodeId) (parent : Option NodeId) (other : NodeId) :
    (a.hang id parent).get? other = (a.get? other).map fun node =>
      { node with
        children :=
          (if (a.get? id).bind (·.parent) = some other then node.children.filter (· != id)
            else node.children) ++
          (if parent.filter a.contains = some other then [id] else [])
        parent := if id = other then parent.filter a.contains else node.parent } := by
  unfold hang
  simp only [get?_modify]
  cases hold : (a.get? id).bind (·.parent) with
  | none =>
    cases hnew : parent.filter a.contains with
    | none => by_cases h : id = other <;> cases a.get? other <;> simp [h]
    | some new =>
      simp only [get?_modify]
      by_cases h : id = other <;> by_cases h' : new = other <;> cases a.get? other <;> simp [h, h']
  | some old =>
    cases hnew : parent.filter a.contains with
    | none =>
      simp only [get?_modify]
      by_cases h : id = other <;> by_cases h' : old = other <;> cases a.get? other <;> simp [h, h']
    | some new =>
      simp only [get?_modify]
      by_cases h : id = other <;> by_cases h' : old = other <;> by_cases h'' : new = other <;>
        cases a.get? other <;> simp [h, h', h'']

/-- A parent that is there. -/
theorem filter_contains {parent : Option NodeId} (h : ∀ p, parent = some p → p < a.size) :
    parent.filter a.contains = parent := by
  cases parent with
  | none => rfl
  | some p => simp [contains, h p rfl]

/-- The node that is made for a draft. -/
def made (a : Arena) (draft : NodeDraft) : Node :=
  { symbol := draft.symbol, name := draft.name, previous := draft.previous
    parent := draft.previous, children := [], ethereal := draft.ethereal, dead := false
    baked := draft.baked, destroyed := false, hidden := false, prefab := draft.prefab
    transform :=
      match draft.previous.bind a.get? with
      | some previous => Transform.atPosition previous.transform.position
      | none => Transform.identity
    segment := none, blade := none }

/-- **Making a node adds it** as the last child of the node that it is made after. -/
theorem get?_addNode {draft : NodeDraft} (h : ∀ p, draft.previous = some p → p < a.size)
    (other : NodeId) :
    (a.addNode draft).2.get? other =
      if other = a.size then some (a.made draft)
      else (a.get? other).map fun node =>
        { node with
          children := node.children ++ (if draft.previous = some other then [a.size] else []) } := by
  simp only [addNode, get?_hang]
  have hfilter : ∀ (node : Node), draft.previous.filter (⟨a.nodes.push node⟩ : Arena).contains =
      draft.previous := by
    intro node
    refine filter_contains fun p hp => ?_
    rw [size, Array.size_push]
    exact Nat.lt_succ_of_lt (h p hp)
  simp only [hfilter, get?_push]
  by_cases hother : other = a.size
  · subst hother
    have hself : ¬ draft.previous = some a.size := fun heq => Nat.lt_irrefl _ (h _ heq)
    simp only [if_true, Option.map_some, hself, if_false, made]
    cases draft.previous.bind a.get? <;> simp
  · simp only [if_neg hother, if_neg (Ne.symm hother)]
    simp

/-! ## Links -/

/-- The node that a node hangs from. -/
def parent? (a : Arena) (id : NodeId) : Option NodeId := (a.get? id).bind (·.parent)

/-- The node that a node was made after. -/
def previous? (a : Arena) (id : NodeId) : Option NodeId := (a.get? id).bind (·.previous)

/-- The nodes that hang from a node, which has none if it is missing. -/
def childrenOf (a : Arena) (id : NodeId) : List NodeId := ((a.get? id).map (·.children)).getD []

theorem parent?_eq_some {p : NodeId} :
    a.parent? id = some p ↔ ∃ state, a.get? id = some state ∧ state.parent = some p :=
  Option.bind_eq_some_iff

theorem parent?_of_get? (h : a.get? id = some node) : a.parent? id = node.parent := by
  simp [parent?, h]

theorem previous?_of_get? (h : a.get? id = some node) : a.previous? id = node.previous := by
  simp [previous?, h]

theorem childrenOf_of_get? (h : a.get? id = some node) : a.childrenOf id = node.children := by
  simp [childrenOf, h]

/-- A missing node has no links. -/
theorem links_of_size_le (h : a.size ≤ id) :
    a.parent? id = none ∧ a.previous? id = none ∧ a.childrenOf id = [] := by
  have hnone := get?_eq_none_iff.mpr h
  simp [parent?, previous?, childrenOf, hnone]

theorem lt_size_of_parent? {p : NodeId} (h : a.parent? id = some p) : id < a.size := by
  by_contra hle
  simp [(links_of_size_le (Nat.le_of_not_lt hle)).1] at h

theorem lt_size_of_mem_childrenOf (h : child ∈ a.childrenOf id) : id < a.size := by
  by_contra hle
  simp [(links_of_size_le (Nat.le_of_not_lt hle)).2.2] at h

/-- Child lists and parents agree, and no node is listed twice. -/
structure Joined (a : Arena) : Prop where
  mem_childrenOf : ∀ {child id}, child ∈ a.childrenOf id ↔ a.parent? child = some id
  nodup_childrenOf : ∀ id, (a.childrenOf id).Nodup

namespace Joined

/-- The links agree if they do so at the nodes that are there and no parent is missing. -/
theorem of_get? (hmem : ∀ {id node child}, a.get? id = some node →
      (child ∈ node.children ↔ ∃ state, a.get? child = some state ∧ state.parent = some id))
    (hnodup : ∀ {id node}, a.get? id = some node → node.children.Nodup)
    (hparent : ∀ {id node p}, a.get? id = some node → node.parent = some p → p < a.size) :
    a.Joined where
  mem_childrenOf := by
    intro child id
    by_cases hlt : id < a.size
    · obtain ⟨node, hnode⟩ := exists_get? hlt
      rw [childrenOf_of_get? hnode, parent?_eq_some, hmem hnode]
    · rw [(links_of_size_le (Nat.le_of_not_lt hlt)).2.2, parent?_eq_some]
      refine iff_of_false (by simp) ?_
      rintro ⟨state, hstate, hup⟩
      exact hlt (hparent hstate hup)
  nodup_childrenOf := by
    intro id
    by_cases hlt : id < a.size
    · obtain ⟨node, hnode⟩ := exists_get? hlt
      rw [childrenOf_of_get? hnode]
      exact hnodup hnode
    · rw [(links_of_size_le (Nat.le_of_not_lt hlt)).2.2]
      exact List.nodup_nil

variable (h : a.Joined)
include h

theorem mem_children (hnode : a.get? id = some node) :
    child ∈ node.children ↔ ∃ state, a.get? child = some state ∧ state.parent = some id := by
  rw [← childrenOf_of_get? hnode, h.mem_childrenOf, parent?_eq_some]

theorem nodup_children (hnode : a.get? id = some node) : node.children.Nodup := by
  rw [← childrenOf_of_get? hnode]
  exact h.nodup_childrenOf id

/-- A parent is there, because it lists its children. -/
theorem parent_lt {p : NodeId} (hup : a.parent? id = some p) : p < a.size :=
  lt_size_of_mem_childrenOf (h.mem_childrenOf.mpr hup)

end Joined

/-! ## Links after a change -/

theorem parent?_hang (a : Arena) (id : NodeId) (parent : Option NodeId) (other : NodeId) :
    (a.hang id parent).parent? other =
      if id = other ∧ id < a.size then parent.filter a.contains else a.parent? other := by
  by_cases hlt : other < a.size
  · obtain ⟨node, hnode⟩ := exists_get? hlt
    have hlater : ((a.hang id parent).get? other) = _ := get?_hang a id parent other
    rw [hnode, Option.map_some] at hlater
    rw [parent?_of_get? hlater, parent?_of_get? hnode]
    by_cases heq : id = other
    · simp [heq, hlt]
    · simp [heq]
  · have hle := Nat.le_of_not_lt hlt
    have hle' : (a.hang id parent).size ≤ other := by rwa [size_hang]
    rw [(links_of_size_le hle).1, (links_of_size_le hle').1, if_neg]
    rintro ⟨rfl, hid⟩
    exact hlt hid

theorem previous?_hang (a : Arena) (id : NodeId) (parent : Option NodeId) (other : NodeId) :
    (a.hang id parent).previous? other = a.previous? other := by
  unfold previous?
  rw [get?_hang]
  cases a.get? other with
  | none => rfl
  | some node => rfl

theorem childrenOf_hang (a : Arena) (id : NodeId) (parent : Option NodeId) (other : NodeId) :
    (a.hang id parent).childrenOf other =
      (if a.parent? id = some other then (a.childrenOf other).filter (· != id)
        else a.childrenOf other) ++
      (if parent.filter a.contains = some other then [id] else []) := by
  by_cases hlt : other < a.size
  · obtain ⟨node, hnode⟩ := exists_get? hlt
    have hlater : ((a.hang id parent).get? other) = _ := get?_hang a id parent other
    rw [hnode, Option.map_some] at hlater
    rw [childrenOf_of_get? hlater, childrenOf_of_get? hnode]
    rfl
  · have hle := Nat.le_of_not_lt hlt
    have hle' : (a.hang id parent).size ≤ other := by rwa [size_hang]
    have hnone : ¬ parent.filter a.contains = some other := by
      intro heq
      have hcontains := (Option.filter_eq_some_iff.mp heq).2
      exact hlt (by simpa [contains] using hcontains)
    rw [(links_of_size_le hle).2.2, (links_of_size_le hle').2.2, if_neg hnone]
    simp

/-- After the move the node is found in the list of its new parent, and all others where they were. -/
theorem Joined.mem_childrenOf_hang (h : a.Joined) {p : NodeId} :
    child ∈ (a.hang id parent).childrenOf p ↔
      child ≠ id ∧ a.parent? child = some p ∨ child = id ∧ parent.filter a.contains = some p := by
  rw [childrenOf_hang, List.mem_append]
  refine or_congr ?_ ?_
  · by_cases hup : a.parent? id = some p
    · simp [hup, h.mem_childrenOf, and_comm]
    · simp only [hup, if_false, h.mem_childrenOf]
      exact ⟨fun hchild => ⟨fun heq => hup (heq ▸ hchild), hchild⟩, fun hchild => hchild.2⟩
  · by_cases hnew : parent.filter a.contains = some p
    · rw [if_pos hnew, List.mem_singleton, and_iff_left hnew]
    · rw [if_neg hnew]
      exact iff_of_false List.not_mem_nil fun hchild => hnew hchild.2

/-- **Hanging a node keeps the links joined.** Only a node that is there can be given a parent. -/
theorem Joined.hang (h : a.Joined)
    (hid : ∀ p, parent.filter a.contains = some p → id < a.size) : (a.hang id parent).Joined where
  mem_childrenOf := by
    intro child p
    rw [h.mem_childrenOf_hang, parent?_hang]
    by_cases heq : child = id
    · subst heq
      by_cases hlt : child < a.size
      · rw [if_pos ⟨rfl, hlt⟩]
        tauto
      · have hmissing := (links_of_size_le (Nat.le_of_not_lt hlt)).1
        rw [if_neg (fun hboth => hlt hboth.2), hmissing]
        refine iff_of_false ?_ (by simp)
        rintro (⟨hne, -⟩ | ⟨-, hnew⟩)
        · exact hne rfl
        · exact hlt (hid p hnew)
    · rw [if_neg (fun hboth => heq hboth.1.symm)]
      tauto
  nodup_childrenOf := by
    intro p
    rw [childrenOf_hang]
    have hold := h.nodup_childrenOf p
    refine List.Nodup.append ?_ ?_ fun child hchild hnew => ?_
    · split
      · exact hold.filter _
      · exact hold
    · split <;> simp
    · -- The new parent lists the node already only if it is the old parent too.
      have heq : child = id := by
        split at hnew
        · simpa using hnew
        · simp at hnew
      subst heq
      by_cases hup : a.parent? child = some p
      · simp [hup] at hchild
      · simp only [hup, if_false, h.mem_childrenOf] at hchild

theorem links_push {node : Node} (hparent : node.parent = none) (hchildren : node.children = [])
    (id : NodeId) : (⟨a.nodes.push node⟩ : Arena).parent? id = a.parent? id ∧
      (⟨a.nodes.push node⟩ : Arena).childrenOf id = a.childrenOf id := by
  by_cases heq : id = a.size
  · subst heq
    have hnew : (⟨a.nodes.push node⟩ : Arena).get? a.size = some node := by simp [get?_push]
    have hmissing := links_of_size_le (Nat.le_refl a.size)
    rw [parent?_of_get? hnew, childrenOf_of_get? hnew, hmissing.1, hmissing.2.2]
    exact ⟨hparent, hchildren⟩
  · simp [parent?, childrenOf, get?_push, heq]

/-- **Making a node keeps the links joined**, after whatever node it is made. -/
theorem Joined.addNode (h : a.Joined) (draft : NodeDraft) : (a.addNode draft).2.Joined := by
  rw [Arena.addNode]
  have hpush : ∀ node : Node, node.parent = none → node.children = [] →
      (⟨a.nodes.push node⟩ : Arena).Joined := by
    intro node hparent hchildren
    refine ⟨fun {child id} => ?_, fun id => ?_⟩
    · rw [(links_push hparent hchildren id).2, (links_push hparent hchildren child).1]
      exact h.mem_childrenOf
    · rw [(links_push hparent hchildren id).2]
      exact h.nodup_childrenOf id
  refine (hpush _ rfl rfl).hang fun p _ => ?_
  exact Nat.lt_of_lt_of_eq (Nat.lt_succ_self a.size) (Array.size_push _).symm

theorem parent?_addNode {draft : NodeDraft} (h : ∀ p, draft.previous = some p → p < a.size)
    (other : NodeId) : (a.addNode draft).2.parent? other =
      if other = a.size then draft.previous else a.parent? other := by
  unfold parent?
  rw [get?_addNode h]
  by_cases heq : other = a.size
  · simp [heq, made]
  · cases hother : a.get? other <;> simp [heq]

theorem previous?_addNode {draft : NodeDraft} (h : ∀ p, draft.previous = some p → p < a.size)
    (other : NodeId) : (a.addNode draft).2.previous? other =
      if other = a.size then draft.previous else a.previous? other := by
  unfold previous?
  rw [get?_addNode h]
  by_cases heq : other = a.size
  · simp [heq, made]
  · cases hother : a.get? other <;> simp [heq]

end Arena
end PlantGrowth
