import PlantGrowth.Arena.Basic
import Mathlib.Tactic.ByContra

/-!
# What of a node outlasts its making

Growth moves nodes about in the scene and draws on them, all the time. What it never changes is where
a node came from, and what it changes only one way is whether the node is dead or gone. The *mark* of
a node is this part of it. An operation of the arena is described by what it does to the list of all
marks: most leave it as it is, making a node adds one at the end.
-/

namespace PlantGrowth

/-- A node without its place in the scene and what is drawn there. -/
structure Mark where
  symbol : Char
  name : String
  previous : Option NodeId
  ethereal : Bool
  dead : Bool
  baked : Bool
  destroyed : Bool
  prefab : Option String
  deriving DecidableEq

/-- The mark of a node. -/
def Node.mark (node : Node) : Mark :=
  { symbol := node.symbol, name := node.name, previous := node.previous, ethereal := node.ethereal
    dead := node.dead, baked := node.baked, destroyed := node.destroyed, prefab := node.prefab }

/-- The mark of the node that a draft is for. -/
def NodeDraft.mark (draft : NodeDraft) : Mark :=
  { symbol := draft.symbol, name := draft.name, previous := draft.previous
    ethereal := draft.ethereal, dead := false, baked := draft.baked, destroyed := false
    prefab := draft.prefab }

namespace Arena

/-- The marks of all nodes. -/
def marks (arena : Arena) : List Mark := arena.nodes.toList.map Node.mark

variable {arena : Arena} {id : NodeId} {change : Node → Node}

@[simp] theorem length_marks (arena : Arena) : arena.marks.length = arena.size := by
  rw [marks, List.length_map, Array.length_toList, size]

theorem getElem?_marks (arena : Arena) (id : NodeId) :
    arena.marks[id]? = (arena.get? id).map Node.mark := by
  rw [marks, List.getElem?_map, Array.getElem?_toList, get?]

/-- A node with a given mark. -/
theorem exists_of_getElem?_marks {mark : Mark} (h : arena.marks[id]? = some mark) :
    ∃ node, arena.get? id = some node ∧ node.mark = mark := by
  rw [getElem?_marks, Option.map_eq_some_iff] at h
  exact h

theorem contains_of_get? {node : Node} (h : arena.get? id = some node) : arena.contains id = true := by
  rw [contains, decide_eq_true_eq]
  refine Nat.lt_of_not_le fun hle => ?_
  rw [get?_eq_none_iff.mpr hle] at h
  cases h

/-- A change of a node is a change of its mark. -/
theorem marks_modify (onMark : Mark → Mark) (h : ∀ node, (change node).mark = onMark node.mark) :
    (arena.modify id change).marks = arena.marks.modify id onMark := by
  refine List.ext_getElem? fun other => ?_
  rw [getElem?_marks, get?_modify, List.getElem?_modify, getElem?_marks]
  by_cases heq : id = other
  · simp only [if_pos heq]
    cases arena.get? other with
    | none => rfl
    | some node => exact congrArg some (h node)
  · simp only [if_neg heq]
    cases arena.get? other <;> rfl

theorem marks_modify_of_kept (h : ∀ node, (change node).mark = node.mark) :
    (arena.modify id change).marks = arena.marks := by
  rw [marks_modify (fun mark => mark) h]
  refine List.ext_getElem? fun other => ?_
  rw [List.getElem?_modify]
  simp only [ite_self]
  cases arena.marks[other]? <;> rfl

/-! ## The operations -/

@[simp] theorem marks_hang (arena : Arena) (id : NodeId) (parent : Option NodeId) :
    (arena.hang id parent).marks = arena.marks := by
  have hleft (other : NodeId) (children : Node → List NodeId) (before : Arena) :
      (before.modify other fun node => { node with children := children node }).marks =
        before.marks := marks_modify_of_kept fun _ => rfl
  have hhung (below : Option NodeId) (before : Arena) :
      (before.modify id fun node => { node with parent := below }).marks = before.marks :=
    marks_modify_of_kept fun _ => rfl
  rw [hang, hhung]
  split
  · rw [hleft]
    split
    · rw [hleft]
    · rfl
  · split
    · rw [hleft]
    · rfl

/-- **Making a node adds its mark.** -/
@[simp] theorem marks_addNode (arena : Arena) (draft : NodeDraft) :
    (arena.addNode draft).2.marks = arena.marks ++ [draft.mark] := by
  simp only [addNode, marks_hang]
  rw [marks, Array.toList_push, List.map_append, marks]
  rfl

@[simp] theorem marks_place (arena : Arena) (id : NodeId) (change : Transform → Transform) :
    (arena.place id change).marks = arena.marks :=
  marks_modify_of_kept fun _ => rfl

@[simp] theorem marks_destroy (arena : Arena) (id : NodeId) :
    (arena.destroy id).marks = arena.marks.modify id fun mark => { mark with destroyed := true } :=
  marks_modify _ fun _ => rfl

theorem getElem?_marks_destroy_self {mark : Mark} (h : arena.marks[id]? = some mark) :
    (arena.destroy id).marks[id]? = some { mark with destroyed := true } := by
  rw [marks_destroy, List.getElem?_modify_eq, h]
  rfl

theorem getElem?_marks_destroy_of_ne {other : NodeId} (h : other ≠ id) :
    (arena.destroy id).marks[other]? = arena.marks[other]? := by
  rw [marks_destroy, List.getElem?_modify_ne]
  exact h.symm

theorem get?_kill {node : Node} (h : arena.get? id = some node) :
    (arena.kill id).get? id = some { node with dead := true } := by
  rw [kill, get?_modify, if_pos rfl, h, Option.map_some]

/-- The node just made. -/
theorem get?_addNode_size (arena : Arena) (draft : NodeDraft) :
    ∃ node, (arena.addNode draft).2.get? arena.size = some node ∧ node.mark = draft.mark := by
  refine exists_of_getElem?_marks ?_
  rw [marks_addNode, List.getElem?_append_right (Nat.le_of_eq (length_marks arena)), length_marks, Nat.sub_self]
  rfl

/-! ## Anchors -/

/-- A node that is solid and present anchors what follows it. -/
theorem nearestAnchor_of_solid {mark : Mark} (h : arena.marks[id]? = some mark)
    (hsolid : mark.ethereal = false) (hpresent : mark.destroyed = false) :
    arena.nearestAnchor id = some id := by
  obtain ⟨node, hnode, rfl⟩ := exists_of_getElem?_marks h
  have hsolid' : node.ethereal = false := hsolid
  have hpresent' : node.destroyed = false := hpresent
  unfold nearestAnchor anchorWithin
  simp only [hnode, hsolid', hpresent', Bool.false_eq_true, if_false]

/-- What follows an ethereal node is anchored where the node is. -/
theorem nearestAnchor_of_ethereal {mark other : Mark} {previous : NodeId}
    (h : arena.marks[id]? = some mark) (hethereal : mark.ethereal = true)
    (hprevious : mark.previous = some previous) (hother : arena.marks[previous]? = some other)
    (hsolid : other.ethereal = false) (hpresent : other.destroyed = false) :
    arena.nearestAnchor id = some previous := by
  obtain ⟨node, hnode, rfl⟩ := exists_of_getElem?_marks h
  obtain ⟨state, hstate, rfl⟩ := exists_of_getElem?_marks hother
  have hethereal' : node.ethereal = true := hethereal
  have hprevious' : node.previous = some previous := hprevious
  have hsolid' : state.ethereal = false := hsolid
  have hpresent' : state.destroyed = false := hpresent
  have hsize : previous < arena.size := by
    by_contra hlarge
    rw [get?_eq_none_iff.mpr (Nat.le_of_not_lt hlarge)] at hstate
    cases hstate
  obtain ⟨less, hsucc⟩ := Nat.exists_eq_succ_of_ne_zero (Nat.ne_of_gt (Nat.zero_lt_of_lt hsize))
  unfold nearestAnchor anchorWithin
  simp only [hnode, hethereal', if_true, hprevious']
  rw [hsucc]
  unfold anchorWithin
  simp only [hstate, hsolid', hpresent', Bool.false_eq_true, if_false]

end Arena
end PlantGrowth
