import PlantGrowth.Proofs.Linked

/-!
# A subtree in pre-order

What a subtree is, is said by a recursion: a node that is there and not destroyed, and then what is said of
its children, one after the other. What is run is a loop. It takes a node from the end of a stack, lists it
and puts its children there, the last child first, so that the first one is taken next; a node that is
missing or destroyed is put on the stack like any other, and passed over when it is taken.

The recursion ends because no node lies above itself, and so does the loop. Neither needs the arena to be
one that a plant has grown in.

* `Arena.Treelike`: child lists and parents agree, and there is no cycle. Every arena that proper edits
  lead to is treelike (`Linked.treelike`).
* `Treelike.listing`: the recursion. `Arena.Finishes`: the loop, turn by turn.
* `Arena.Below`: which nodes are reached, without any order.
* `Treelike.subtree_in_preorder`: all three come to the subtree, for every name.
-/

namespace PlantGrowth
namespace Arena

variable {a : Arena} {id child other root : NodeId} {node : Node} {stack before listed : List NodeId}

/-! ## Arenas without cycles -/

/-- Child lists and parents agree, and no node lies above itself. -/
structure Treelike (a : Arena) : Prop extends Joined a where
  acyclic : ∀ id, ¬ Relation.TransGen (Links a.parent?) id id

theorem Linked.treelike (h : a.Linked) : a.Treelike where
  toJoined := h.toJoined
  acyclic := fun id => (h.parents_end id).not_cycle

/-- The number of nodes below a node ranks the nodes. -/
theorem Treelike.forest (h : a.Treelike) :
    a.Forest (height (fun p child => a.parent? child = some p) a.size) :=
  h.toJoined.forest (ends_of_acyclic h.acyclic fun _ _ hup => h.parent_lt hup)

/-! ## The recursion -/

/-- The nodes under a node in pre-order, by recursion. Fewer nodes lie below a child than below its
parent. -/
def Treelike.listing (h : a.Treelike) (id : NodeId) : List NodeId :=
  match _hnode : a.get? id with
  | none => []
  | some node =>
    if node.destroyed then []
    else id :: node.children.attach.flatMap fun child => h.listing child.1
termination_by height (fun p child => a.parent? child = some p) a.size id
decreasing_by exact h.forest.rank_lt_of_mem_children ‹_› child.2

/-- **The recursion lists a subtree.** -/
theorem Treelike.listing_eq (h : a.Treelike) (id : NodeId) : h.listing id = a.subtree id := by
  fun_induction h.listing id with
  | case1 id hnode =>
    rw [h.forest.subtree_eq, absent_iff.mpr (Or.inl hnode), if_neg Bool.false_ne_true]
  | case2 id node hnode hgone =>
    rw [h.forest.subtree_eq, absent_iff.mpr (Or.inr ⟨node, hnode, hgone⟩), if_neg Bool.false_ne_true]
  | case3 id node hnode hstays ih =>
    have hchildren : node.children.attach.flatMap (fun child => h.listing child.1) =
        node.children.flatMap a.subtree := by
      rw [List.flatMap_congr fun child _ => ih child]
      conv_rhs => rw [← List.attach_map_subtype_val node.children, List.flatMap_map]
    rw [h.forest.subtree_of_children hnode (by simpa using hstays), hchildren]

/-! ## The loop -/

/-- The loop between two turns: the stack, of which the last node is taken next, and what is listed. -/
structure Tour where
  stack : List NodeId
  listed : List NodeId := []

/-- One turn of the loop, which is over when the stack is empty. -/
def turn (a : Arena) (tour : Tour) : Option Tour :=
  tour.stack.getLast?.map fun id =>
    let rest := tour.stack.dropLast
    match a.get? id with
    | none => { tour with stack := rest }
    | some node =>
      if node.destroyed then { tour with stack := rest }
      else { stack := rest ++ node.children.reverse, listed := tour.listed ++ [id] }

/-- The loop comes to its end, with these nodes listed. -/
inductive Finishes (a : Arena) : Tour → List NodeId → Prop where
  | done {tour : Tour} (h : a.turn tour = none) : Finishes a tour tour.listed
  | turn {tour next : Tour} {listed : List NodeId} (h : a.turn tour = some next)
      (hrest : Finishes a next listed) : Finishes a tour listed

/-- The loop ends in one way only. -/
theorem Finishes.unique {tour : Tour} {one another : List NodeId} (h : a.Finishes tour one)
    (h' : a.Finishes tour another) : one = another := by
  induction h with
  | done hdone =>
    cases h' with
    | done => rfl
    | turn hturn => simp [hdone] at hturn
  | turn hturn _ ih =>
    cases h' with
    | done hdone => simp [hdone] at hturn
    | turn hturn' hrest =>
      rw [hturn, Option.some.injEq] at hturn'
      subst hturn'
      exact ih hrest

theorem turn_reverse_cons (a : Arena) (id : NodeId) (stack before : List NodeId) :
    a.turn { stack := (id :: stack).reverse, listed := before } =
      match a.get? id with
      | none => some { stack := stack.reverse, listed := before }
      | some node =>
        if node.destroyed then some { stack := stack.reverse, listed := before }
        else some { stack := (node.children ++ stack).reverse, listed := before ++ [id] } := by
  rw [turn, List.reverse_cons, List.getLast?_concat, List.dropLast_concat, Option.map_some]
  cases a.get? id with
  | none => rfl
  | some node =>
    simp only [List.reverse_append]
    exact apply_ite some _ _ _

/-- **Turned about, the stack is what is still to be walked.** Whatever was listed before stays in
front. -/
theorem Walks.finishes (h : a.Walks stack listed) (before : List NodeId) :
    a.Finishes { stack := stack.reverse, listed := before } (before ++ listed) := by
  induction h generalizing before with
  | done =>
    rw [List.append_nil]
    exact Finishes.done rfl
  | missing hnode _ ih =>
    refine Finishes.turn ?_ (ih before)
    rw [turn_reverse_cons, hnode]
  | gone hnode hgone _ ih =>
    refine Finishes.turn ?_ (ih before)
    rw [turn_reverse_cons, hnode]
    exact if_pos hgone
  | @visit id node _ _ hnode hstays _ ih =>
    rw [List.append_cons]
    refine Finishes.turn ?_ (ih (before ++ [id]))
    rw [turn_reverse_cons, hnode]
    exact if_neg (by simp [hstays])

/-! ## What is reached -/

/-- A node is reached from another one through children, and no node on the way, the two at its ends
included, is missing or destroyed. -/
inductive Below (a : Arena) : NodeId → NodeId → Prop where
  | self {id : NodeId} {node : Node} (h : a.get? id = some node) (hstays : node.destroyed = false) :
      Below a id id
  | child {id child other : NodeId} {node : Node} (h : a.get? id = some node)
      (hstays : node.destroyed = false) (hchild : child ∈ node.children)
      (hrest : Below a child other) : Below a id other

/-- **A subtree has the nodes that are reached.** -/
theorem Forest.mem_subtree_iff_below {rank : NodeId → Nat} (forest : a.Forest rank) :
    other ∈ a.subtree root ↔ a.Below root other := by
  constructor
  · intro hmem
    induction root using forest.induction with
    | h root ih =>
      obtain ⟨hpresent, hcases⟩ := forest.mem_subtree_iff.mp hmem
      obtain ⟨node, hnode, hstays⟩ := present_iff.mp hpresent
      rcases hcases with rfl | ⟨child, hchild, hother⟩
      · exact Below.self hnode hstays
      · obtain ⟨-, state, hstate, hlisted⟩ := mem_branches.mp hchild
        rw [hnode, Option.some.injEq] at hstate
        subst hstate
        exact Below.child hnode hstays hlisted (ih child hchild hother)
  · intro hbelow
    induction hbelow with
    | self hnode hstays => exact forest.self_mem_subtree (present_iff.mpr ⟨_, hnode, hstays⟩)
    | child hnode hstays hchild _ ih =>
      have hpresent := present_iff.mpr ⟨_, hnode, hstays⟩
      have hbranch := mem_branches.mpr ⟨(forest.mem_subtree_iff.mp ih).1, _, hnode, hchild⟩
      exact forest.mem_subtree_iff.mpr ⟨hpresent, Or.inr ⟨_, hbranch, ih⟩⟩

/-! ## All three -/

/-- **The loop and the recursion list the same.** In every arena whose links agree and have no cycle, and
from every name, the loop ends, and what it lists is the subtree; that is what the recursion lists, in this
order: the nodes that are reached through children without passing one that is destroyed, each of them once.
Nothing is listed exactly if the first node is missing or destroyed. -/
theorem Treelike.subtree_in_preorder (h : a.Treelike) (id : NodeId) :
    (∀ listed, a.Finishes { stack := [id] } listed ↔ listed = a.subtree id) ∧
      a.subtree id = h.listing id ∧
      (∀ other, other ∈ a.subtree id ↔ a.Below id other) ∧
      (a.subtree id).Nodup ∧
      (a.subtree id = [] ↔
        a.get? id = none ∨ ∃ node, a.get? id = some node ∧ node.destroyed = true) := by
  have hwalks := h.forest.walks_cons id Walks.done
  rw [List.append_nil] at hwalks
  have hfinishes : a.Finishes { stack := [id] } (a.subtree id) := hwalks.finishes []
  refine ⟨fun listed => ⟨fun hlisted => hlisted.unique hfinishes, fun hlisted => hlisted ▸ hfinishes⟩,
    (h.listing_eq id).symm, fun other => h.forest.mem_subtree_iff_below, h.forest.nodup_subtree id, ?_⟩
  rw [← absent_iff, h.forest.subtree_eq]
  cases a.present id with
  | false => simp
  | true => simp

/-- A shoot of which the upper node was made after the lower one, with one more node on each of the two,
and the lower one destroyed. -/
def lopped : Arena :=
  [Edit.addNode { previous := some 2 }, .addNode { previous := some 1 }, .destroy 1].foldl edit upturned

theorem treelike_lopped : lopped.Treelike := by
  have hupper := edited_upturned.edit (.addNode { previous := some 2 }) fun p hp => by
    cases hp
    decide
  have hlower := hupper.edit (.addNode { previous := some 1 }) fun p hp => by
    cases hp
    decide
  exact (hlower.edit (.destroy 1) trivial).linked.treelike

theorem lopped_in_preorder : ∃ h : lopped.Treelike,
    lopped.childrenOf 2 = [1, 3] ∧ lopped.childrenOf 1 = [4] ∧ lopped.subtree 0 = [0, 2, 3] ∧
      (∀ listed, lopped.Finishes { stack := [0] } listed ↔ listed = lopped.subtree 0) ∧
      lopped.subtree 0 = h.listing 0 ∧ ¬ lopped.Below 0 4 ∧ lopped.subtree 1 = [] := by
  obtain ⟨hfinishes, hlisting, hbelow, -⟩ := treelike_lopped.subtree_in_preorder 0
  have hsubtree : lopped.subtree 0 = [0, 2, 3] := by decide
  refine ⟨treelike_lopped, by decide, by decide, hsubtree, hfinishes, hlisting, fun hreached => ?_,
    by decide⟩
  rw [← hbelow, hsubtree] at hreached
  exact absurd hreached (by decide)

end Arena
end PlantGrowth
