import PlantGrowth.Proofs.Bracketed

/-!
# The nodes of visits

While a bracketed plant grows, each visit of the walk over its sentence makes a node. The nodes are
named by the visits that made them: node 0 is the root, and node `k + 1` belongs to the visit at
index `k`. Later visits are added at the end and leave these names as they are.

`Bed.Holds` says that the nodes of a world are those of given visits. Where it does, the node that
the next one hangs on is the node of the anchor that is handed on (`Bed.Holds.exists_nearestAnchor`).
-/

namespace PlantGrowth

/-! ## The names of visits -/

/-- What is followed while a plant grows: its seed, the signs of its symbols, the mark of its root. -/
structure Bed where
  seed : Seed Empty
  signs : Signs
  root : Mark

/-- The seed derives its sentence in advance and agrees with the signs; the root stays where it is. -/
structure Bed.Proper (bed : Bed) : Prop where
  agree : bed.signs.Agree bed.seed
  ceiling : bed.seed.ceiling = 0
  solid : bed.root.ethereal = false
  alive : bed.root.dead = false
  present : bed.root.destroyed = false

namespace Signs

/-- The node of an anchor. -/
inductive Names (signs : Signs) (made : List Visit) : Option Nat → NodeId → Prop where
  | root : Names signs made none 0
  | node {k : Nat} {visit : Visit} (h : made[k]? = some visit)
      (hsolid : signs.solid visit.symbol = true) : Names signs made (some visit.position) (k + 1)

/-- The anchor of what follows a node on its path. -/
inductive Leaves (signs : Signs) (made : List Visit) : NodeId → Option Nat → Prop where
  | root : Leaves signs made 0 none
  | node {k : Nat} {visit : Visit} (h : made[k]? = some visit) :
      Leaves signs made (k + 1) (signs.onward visit)

/-- A node that a visit made, and whether it is ethereal. -/
inductive Makes (signs : Signs) (made : List Visit) : NodeId → Bool → Prop where
  | node {k : Nat} {visit : Visit} (h : made[k]? = some visit) :
      Makes signs made (k + 1) (!signs.solid visit.symbol)

end Signs

theorem getElem?_append_of_eq_some {α : Type} {row : List α} {k : Nat} {a : α}
    (h : row[k]? = some a) (more : List α) : (row ++ more)[k]? = some a := by
  obtain ⟨hlt, -⟩ := List.getElem?_eq_some_iff.mp h
  rw [List.getElem?_append_left hlt, h]

/-- An entry of a row with one more at its end. -/
theorem eq_of_getElem?_concat {α : Type} {row : List α} {k : Nat} {a b : α}
    (h : (row ++ [a])[k]? = some b) : row[k]? = some b ∨ k = row.length ∧ b = a := by
  by_cases hlt : k < row.length
  · rw [List.getElem?_append_left hlt] at h
    exact Or.inl h
  · obtain ⟨hbound, -⟩ := List.getElem?_eq_some_iff.mp h
    rw [List.length_append, List.length_singleton] at hbound
    obtain rfl : k = row.length := by omega
    rw [List.getElem?_concat_length] at h
    exact Or.inr ⟨rfl, (Option.some.inj h).symm⟩

section Names

variable {signs : Signs} {made : List Visit} {node : NodeId} {anchor : Option Nat} {ethereal : Bool}

theorem Signs.Names.append (h : signs.Names made anchor node) (new : List Visit) :
    signs.Names (made ++ new) anchor node := by
  cases h with
  | root => exact Names.root
  | node h hsolid => exact Names.node (getElem?_append_of_eq_some h new) hsolid

theorem Signs.Leaves.append (h : signs.Leaves made node anchor) (new : List Visit) :
    signs.Leaves (made ++ new) node anchor := by
  cases h with
  | root => exact Leaves.root
  | node h => exact Leaves.node (getElem?_append_of_eq_some h new)

theorem Signs.Makes.append (h : signs.Makes made node ethereal) (new : List Visit) :
    signs.Makes (made ++ new) node ethereal := by
  cases h with
  | node h => exact Makes.node (getElem?_append_of_eq_some h new)

theorem Signs.Makes.exists_visit (h : signs.Makes made node ethereal) :
    ∃ k visit, node = k + 1 ∧ made[k]? = some visit ∧ ethereal = !signs.solid visit.symbol := by
  cases h with
  | node h => exact ⟨_, _, rfl, h, rfl⟩

/-- A node made by a visit comes no later than the visits. -/
theorem Signs.Makes.le_length (h : signs.Makes made node ethereal) : node ≤ made.length := by
  cases h with
  | node h => exact (List.getElem?_eq_some_iff.mp h).1

/-- A node was made before or is one of the new ones. -/
theorem Signs.Makes.of_append {new : List Visit} (h : signs.Makes (made ++ new) node ethereal) :
    signs.Makes made node ethereal ∨ made.length < node := by
  cases h with
  | @node k visit h =>
    by_cases hlt : k < made.length
    · rw [List.getElem?_append_left hlt] at h
      exact Or.inl (Makes.node h)
    · exact Or.inr (by omega)

end Names

/-! ## The nodes -/

/-- The node of a visit. -/
structure Bed.Shows (bed : Bed) (made : List Visit) (visit : Visit) (mark : Mark) : Prop where
  symbol : mark.symbol = visit.symbol
  name : ∃ prototype, bed.seed.registry.find? visit.symbol = some prototype ∧
    mark.name = prototype.name
  previous : ∃ node, mark.previous = some node ∧ bed.signs.Names made visit.anchor node
  ethereal : mark.ethereal = !bed.signs.solid visit.symbol
  alive : mark.dead = false
  baked : mark.baked = bed.root.baked
  present : mark.ethereal = false → mark.destroyed = false

/-- The nodes are the root and those of the visits made so far. -/
structure Bed.Holds (bed : Bed) (w : World Empty) (made : List Visit) : Prop where
  length : w.nodes.marks.length = made.length + 1
  root : w.nodes.marks[0]? = some bed.root
  node : ∀ k visit, made[k]? = some visit →
    ∃ mark, w.nodes.marks[k + 1]? = some mark ∧ bed.Shows made visit mark

section Holds

variable {bed : Bed} {made new : List Visit} {w later : World Empty} {node : NodeId}
  {anchor : Option Nat} {visit : Visit} {mark : Mark}

theorem Bed.Shows.append (h : bed.Shows made visit mark) (new : List Visit) :
    bed.Shows (made ++ new) visit mark := by
  obtain ⟨previous, hprevious, hnames⟩ := h.previous
  exact ⟨h.symbol, h.name, ⟨previous, hprevious, hnames.append new⟩, h.ethereal, h.alive, h.baked,
    h.present⟩

theorem Bed.Holds.of_marks (h : bed.Holds w made) (hmarks : later.nodes.marks = w.nodes.marks) :
    bed.Holds later made := by
  refine ⟨?_, ?_, ?_⟩
  · rw [hmarks, h.length]
  · rw [hmarks, h.root]
  · rw [hmarks]
    exact h.node

/-- A node that a chain goes on from. -/
theorem Bed.Holds.exists_node (hbed : bed.Proper) (h : bed.Holds w made)
    (hleaves : bed.signs.Leaves made node anchor) :
    ∃ state, w.nodes.get? node = some state ∧ state.dead = false ∧ state.baked = bed.root.baked := by
  cases hleaves with
  | root =>
    obtain ⟨state, hstate, hmark⟩ := Arena.exists_of_getElem?_marks h.root
    have hdead : state.mark.dead = bed.root.dead := congrArg Mark.dead hmark
    have hbaked : state.mark.baked = bed.root.baked := congrArg Mark.baked hmark
    exact ⟨state, hstate, hdead.trans hbed.alive, hbaked⟩
  | node hmade =>
    obtain ⟨mark, hmark, hshows⟩ := h.node _ _ hmade
    obtain ⟨state, hstate, rfl⟩ := Arena.exists_of_getElem?_marks hmark
    exact ⟨state, hstate, hshows.alive, hshows.baked⟩

/-- The node of an anchor is solid and present. -/
theorem Bed.Holds.exists_solid (hbed : bed.Proper) (h : bed.Holds w made)
    (hnames : bed.signs.Names made anchor node) :
    ∃ mark, w.nodes.marks[node]? = some mark ∧ mark.ethereal = false ∧ mark.destroyed = false := by
  cases hnames with
  | root => exact ⟨bed.root, h.root, hbed.solid, hbed.present⟩
  | node hmade hsolid =>
    obtain ⟨mark, hmark, hshows⟩ := h.node _ _ hmade
    have hethereal : mark.ethereal = false := by
      rw [hshows.ethereal, hsolid]
      rfl
    exact ⟨mark, hmark, hethereal, hshows.present hethereal⟩

/-- **What follows a node hangs on the node of the anchor** that is handed on there. -/
theorem Bed.Holds.exists_nearestAnchor (hbed : bed.Proper) (h : bed.Holds w made)
    (hleaves : bed.signs.Leaves made node anchor) :
    ∃ found, w.nodes.nearestAnchor node = some found ∧ bed.signs.Names made anchor found := by
  cases hleaves with
  | root =>
    exact ⟨0, Arena.nearestAnchor_of_solid h.root hbed.solid hbed.present, Signs.Names.root⟩
  | @node k visit hmade =>
    obtain ⟨mark, hmark, hshows⟩ := h.node k visit hmade
    by_cases hsolid : bed.signs.solid visit.symbol = true
    · have hethereal : mark.ethereal = false := by
        rw [hshows.ethereal, hsolid]
        rfl
      refine ⟨k + 1, Arena.nearestAnchor_of_solid hmark hethereal (hshows.present hethereal), ?_⟩
      rw [Signs.onward, if_pos hsolid]
      exact Signs.Names.node hmade hsolid
    · have hethereal : mark.ethereal = true := by
        rw [hshows.ethereal, Bool.eq_false_iff.mpr hsolid]
        rfl
      obtain ⟨previous, hprevious, hnames⟩ := hshows.previous
      obtain ⟨other, hother, hsolid', hpresent⟩ := h.exists_solid hbed hnames
      refine ⟨previous, ?_, ?_⟩
      · exact Arena.nearestAnchor_of_ethereal hmark hethereal hprevious hother hsolid' hpresent
      · rw [Signs.onward, if_neg hsolid]
        exact hnames

/-- The node of a new visit. -/
theorem Bed.Holds.make (h : bed.Holds w made) {draft : NodeDraft}
    (hshows : bed.Shows made visit draft.mark) : bed.Holds (w.make draft) (made ++ [visit]) := by
  refine ⟨?_, ?_, fun k other hother => ?_⟩
  · rw [World.marks_make, List.length_append, List.length_append, h.length]
    rfl
  · rw [World.marks_make]
    exact getElem?_append_of_eq_some h.root _
  · rw [World.marks_make]
    rcases eq_of_getElem?_concat hother with hold | ⟨rfl, rfl⟩
    · obtain ⟨mark, hmark, hother'⟩ := h.node k other hold
      exact ⟨mark, getElem?_append_of_eq_some hmark _, hother'.append _⟩
    · exact ⟨draft.mark, by rw [← h.length, List.getElem?_concat_length], hshows.append _⟩

/-- An ethereal node may be destroyed. -/
theorem Bed.Holds.destroy (h : bed.Holds w made) (hmakes : bed.signs.Makes made node true) :
    bed.Holds (w.destroy node) made := by
  have hget : ∀ id, id ≠ node → (w.destroy node).nodes.marks[id]? = w.nodes.marks[id]? :=
    fun id hne => Arena.getElem?_marks_destroy_of_ne hne
  obtain ⟨k, visit, rfl, hmade, hethereal⟩ := hmakes.exists_visit
  refine ⟨?_, ?_, fun j other hother => ?_⟩
  · show (w.nodes.destroy (k + 1)).marks.length = made.length + 1
    rw [Arena.marks_destroy, List.length_modify, h.length]
  · rw [hget 0 (Nat.succ_ne_zero k).symm, h.root]
  · obtain ⟨mark, hmark, hshows⟩ := h.node j other hother
    by_cases heq : j = k
    · subst heq
      obtain rfl : visit = other := Option.some.inj (hmade.symm.trans hother)
      refine ⟨{ mark with destroyed := true }, Arena.getElem?_marks_destroy_self hmark, ?_⟩
      refine ⟨hshows.symbol, hshows.name, hshows.previous, hshows.ethereal, hshows.alive,
        hshows.baked, fun hsolid => ?_⟩
      have hsolid' : mark.ethereal = false := hsolid
      rw [hshows.ethereal, ← hethereal] at hsolid'
      cases hsolid'
    · exact ⟨mark, by rw [hget _ fun hsucc => heq (Nat.succ.inj hsucc), hmark], hshows⟩

end Holds
end PlantGrowth
