import PlantGrowth.Arena.Basic
import Mathlib.Data.Finset.Card
import Mathlib.Logic.Relation

/-!
# Following a link from node to node

Both links of a node that lead upwards, to its parent and to the node that it was made after, are
partial functions on nodes. `Ends next id` says that following such a function from `id` comes to a
node without a link. Two changes of the links keep this true of all nodes:

* one node is led elsewhere, to a place from which it is not reached (`ends_of_redirect`);
* nodes are added whose links mirror links that were there before, or lead to a node that was there
  before (`ends_of_mirror`). The nodes that are added may lead to each other in any order of age.

`height` measures how many nodes are reached from a node. It falls along the links, and it is the
reason why a loop that follows them needs no more turns than there are nodes, and why links without a
cycle end (`ends_of_acyclic`).
-/

namespace PlantGrowth

/-- A link leads from one node to the other. -/
def Links (next : NodeId → Option NodeId) (id other : NodeId) : Prop := next id = some other

/-- Following the links from a node comes to an end. -/
def Ends (next : NodeId → Option NodeId) (id : NodeId) : Prop :=
  Acc (fun after before => Links next before after) id

/-- The node that is reached after a number of links. -/
def follow (next : NodeId → Option NodeId) : Nat → NodeId → Option NodeId
  | 0, id => some id
  | count + 1, id => (next id).bind (follow next count)

variable {next later : NodeId → Option NodeId} {id other : NodeId}

theorem ends_iff : Ends next id ↔ ∀ other, next id = some other → Ends next other :=
  ⟨fun h _ hlink => h.inv hlink, fun h => Acc.intro id fun other hlink => h other hlink⟩

/-- **From a node whose links end, no node is reached after enough of them.** -/
theorem Ends.exists_follow (h : Ends next id) : ∃ count, follow next count id = none := by
  induction h with
  | intro id _ ih =>
    cases hlink : next id with
    | none => exact ⟨1, by simp [follow, hlink]⟩
    | some other =>
      obtain ⟨count, hcount⟩ := ih other hlink
      exact ⟨count + 1, by simp [follow, hlink, hcount]⟩

/-- **A node whose links end does not lead back to itself.** -/
theorem Ends.not_cycle (h : Ends next id) : ¬ Relation.TransGen (Links next) id id := by
  induction h with
  | intro id _ ih =>
    intro hcycle
    obtain ⟨other, hlink, hback⟩ := Relation.TransGen.head'_iff.mp hcycle
    exact ih other hlink (Relation.TransGen.tail' hback hlink)

/-- Where no cycle is reached, a node that is not met makes no difference. -/
theorem Ends.of_avoids {moved : NodeId} (h : Ends next id)
    (hsame : ∀ id, id ≠ moved → later id = next id)
    (havoids : ¬ Relation.ReflTransGen (Links next) id moved) : Ends later id := by
  induction h with
  | intro id _ ih =>
    have hne : id ≠ moved := fun heq => havoids (heq ▸ Relation.ReflTransGen.refl)
    refine ends_iff.mpr fun other hlink => ?_
    rw [hsame id hne] at hlink
    exact ih other hlink fun hreach => havoids (Relation.ReflTransGen.head hlink hreach)

/-- **One node may be led to any place from which it is not reached.** -/
theorem ends_of_redirect (moved : NodeId) (hends : ∀ id, Ends next id)
    (hsame : ∀ id, id ≠ moved → later id = next id)
    (hplace : ∀ place, later moved = some place →
      ¬ Relation.ReflTransGen (Links next) place moved) (id : NodeId) : Ends later id := by
  have hmoved : Ends later moved :=
    ends_iff.mpr fun place hlink => (hends place).of_avoids hsame (hplace place hlink)
  induction hends id with
  | intro id _ ih =>
    by_cases heq : id = moved
    · rwa [heq]
    · refine ends_iff.mpr fun other hlink => ih other ?_
      rwa [hsame id heq] at hlink

/-- **Nodes may be added whose links mirror other links**, or lead to nodes that were there before.
The nodes from `bound` on are new, and `source` names the node whose links a new one mirrors. -/
theorem ends_of_mirror (bound : NodeId) (source : NodeId → NodeId) (hends : ∀ id, Ends next id)
    (hinside : ∀ id other, next id = some other → other < bound)
    (hsame : ∀ id, id < bound → later id = next id)
    (hnew : ∀ id other, bound ≤ id → later id = some other →
      other < bound ∨ bound ≤ other ∧ next (source id) = some (source other))
    (id : NodeId) : Ends later id := by
  have hold : ∀ id, id < bound → Ends later id := by
    intro id
    induction hends id with
    | intro id _ ih =>
      intro hlt
      refine ends_iff.mpr fun other hlink => ?_
      rw [hsame id hlt] at hlink
      exact ih other hlink (hinside id other hlink)
  have hmirror : ∀ place, Ends next place → ∀ id, bound ≤ id → source id = place →
      Ends later id := by
    intro place hplace
    induction hplace with
    | intro place _ ih =>
      intro id hle heq
      refine ends_iff.mpr fun other hlink => ?_
      rcases hnew id other hle hlink with hlt | ⟨hother, hsource⟩
      · exact hold other hlt
      · rw [heq] at hsource
        exact ih (source other) hsource other hother rfl
  by_cases hlt : id < bound
  · exact hold id hlt
  · exact hmirror (source id) (hends _) id (Nat.le_of_not_lt hlt) rfl

/-! ## How far links lead -/

open scoped Classical in
/-- How many of the nodes below `bound` are reached from a node by one step or more. -/
noncomputable def height (step : NodeId → NodeId → Prop) (bound : NodeId) (id : NodeId) : Nat :=
  ((Finset.range bound).filter fun other => Relation.TransGen step id other).card

theorem height_le (step : NodeId → NodeId → Prop) (bound id : NodeId) :
    height step bound id ≤ bound := by
  classical
  refine (Finset.card_filter_le _ _).trans ?_
  rw [Finset.card_range]

/-- **Every step leads to a node that reaches less**, if there is no cycle. -/
theorem height_lt {step : NodeId → NodeId → Prop} {bound : NodeId}
    (hacyclic : ∀ id, ¬ Relation.TransGen step id id) (hstep : step id other) (hlt : other < bound) :
    height step bound other < height step bound id := by
  classical
  refine Finset.card_lt_card (Finset.ssubset_iff_of_subset (fun further hfurther => ?_) |>.mpr ?_)
  · simp only [Finset.mem_filter] at hfurther ⊢
    exact ⟨hfurther.1, Relation.TransGen.head hstep hfurther.2⟩
  · refine ⟨other, ?_, ?_⟩
    · simp only [Finset.mem_filter, Finset.mem_range]
      exact ⟨hlt, Relation.TransGen.single hstep⟩
    · simp only [Finset.mem_filter, not_and]
      exact fun _ => hacyclic other

/-- **Where there is no cycle, following the links comes to an end**, since there are only so many
nodes. -/
theorem ends_of_acyclic {bound : NodeId} (hacyclic : ∀ id, ¬ Relation.TransGen (Links next) id id)
    (hinside : ∀ id other, next id = some other → other < bound) (id : NodeId) : Ends next id := by
  induction hheight : height (Links next) bound id using Nat.strongRecOn generalizing id with
  | ind _ ih =>
    subst hheight
    refine ends_iff.mpr fun other hlink => ih _ ?_ other rfl
    exact height_lt hacyclic hlink (hinside id other hlink)

end PlantGrowth
