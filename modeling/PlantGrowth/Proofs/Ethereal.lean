import PlantGrowth.Proofs.Stages

/-!
# Ethereal nodes

An ethereal node only passes a chain on. Nothing is ever made after it, and it is destroyed when its
handler is done. The one handler that is not done at once is that of a live pause, whose node stays
until the chain that waits at it goes on (`Garden.ethereal_pass`).

All of it comes from the account that is kept while a garden grows (`World.Orderly.account`): between
ticks no task is left, so what holds an ethereal node is a chain that waits.
-/

namespace PlantGrowth

/-- Is it a chain that waits at the node? -/
def Continuation.waitsAt {H : Type} (node : NodeId) : Continuation H → Bool
  | .wait delay => delay.node == node
  | _ => false

/-- A chain holds the node that it waits at, and nothing else holds any. -/
theorem Continuation.count_held {H : Type} (works : List (Continuation H)) (node : NodeId) :
    (works.flatMap Continuation.held).count node = works.countP (Continuation.waitsAt node) := by
  induction works with
  | nil => rfl
  | cons work works ih =>
    rw [List.flatMap_cons, List.count_append, ih, List.countP_cons, Nat.add_comm]
    congr 1
    cases work with
    | wait delay => exact List.count_singleton
    | _ => rfl

namespace Garden

/-- All continuations that a later tick will resume. -/
def queued (garden : Garden) : List (Continuation Empty) :=
  garden.scheduler.queue ++ garden.world.parked.toList

/-- The number of chains that wait at a node. -/
def waitsAt (garden : Garden) (node : NodeId) : Nat :=
  garden.queued.countP (Continuation.waitsAt node)

/-- Ethereal nodes are passed by and gone. -/
structure Passes (garden : Garden) : Prop where
  /-- What a node is made after is solid. -/
  previous : ∀ {id node p}, garden.world.nodes.get? id = some node → node.previous = some p →
    ∃ above, garden.world.nodes.get? p = some above ∧ above.ethereal = false
  /-- What a node hangs from is solid. -/
  parent : ∀ {id node p}, garden.world.nodes.get? id = some node → node.parent = some p →
    ∃ above, garden.world.nodes.get? p = some above ∧ above.ethereal = false
  /-- Solid nodes stay. -/
  solid : ∀ {id node}, garden.world.nodes.get? id = some node → node.destroyed = true →
    node.ethereal = true
  /-- An ethereal node is gone, or it is a pause at which one chain waits. -/
  ethereal : ∀ {id node}, garden.world.nodes.get? id = some node → node.ethereal = true →
    node.destroyed = true ∧ garden.waitsAt id = 0 ∨
      node.destroyed = false ∧ node.name = "pause" ∧ garden.waitsAt id = 1
  /-- No two chains wait at the same node. -/
  once : ∀ id, garden.waitsAt id ≤ 1
  /-- When nothing is left to do all ethereal nodes are gone. -/
  idle : garden.isIdle = true → ∀ {id node}, garden.world.nodes.get? id = some node →
    node.ethereal = true → node.destroyed = true

variable {plan : PlantPlan} {settings : Settings} {garden : Garden}

/-- Growth is orderly whenever a garden is not being ticked. -/
theorem Reached.orderly (h : Reached plan settings garden) :
    garden.world.Orderly [] garden.queued :=
  (orderly_invariant.of_reached (fun _ hseed => ordered_seedbed hseed settings) h).orderly

/-- **A chain waits at each ethereal node that is not gone**, and at no other node. -/
theorem Reached.waitsAt_eq (h : Reached plan settings garden) (id : NodeId) :
    garden.waitsAt id = (garden.world.nodes.lingers id).toNat := by
  rw [waitsAt, ← Continuation.count_held]
  exact h.orderly.account id

/-- A chain waits at a pause. -/
theorem Reached.name_of_waitsAt (h : Reached plan settings garden) {id : NodeId} {node : Node}
    (hnode : garden.world.nodes.get? id = some node) (hwaits : 0 < garden.waitsAt id) :
    node.name = "pause" := by
  obtain ⟨work, hwork, hwaitsAt⟩ := List.countP_pos_iff.mp hwaits
  have hnamed := h.orderly.work_named work hwork
  cases work with
  | wait delay =>
    obtain rfl : delay.node = id := by simpa [Continuation.waitsAt] using hwaitsAt
    obtain ⟨state, hstate, -, hname⟩ := hnamed
    rwa [Option.some.inj (hstate.symm.trans hnode)] at hname
  | _ => cases hwaitsAt

theorem isIdle_iff : garden.isIdle = true ↔ garden.queued = [] := by
  simp only [Simulation.isIdle, Scheduler.isEmpty, queued, Bool.and_eq_true, List.isEmpty_iff,
    List.append_eq_nil_iff, Array.isEmpty_iff, Array.toList_eq_nil_iff]

/-- **Ethereal nodes never anchor and never leak**, whatever the plan and the settings are and however
often the garden was ticked. -/
theorem ethereal_pass (h : Reached plan settings garden) : garden.Passes := by
  have scene := h.orderly.scene
  have hlingers : ∀ {id node}, garden.world.nodes.get? id = some node → node.ethereal = true →
      garden.waitsAt id = (!node.destroyed).toNat := by
    intro id node hnode hethereal
    rw [h.waitsAt_eq, Arena.lingers_of_get? hnode, hethereal, Bool.true_and]
  exact {
    previous := fun hnode hp => (scene.previous hnode hp).2
    parent := fun hnode hp => (scene.previous hnode (scene.parent hnode hp)).2
    solid := scene.gone
    ethereal := by
      intro id node hnode hethereal
      have hwaits := hlingers hnode hethereal
      cases hgone : node.destroyed with
      | true =>
        rw [hgone] at hwaits
        exact Or.inl ⟨rfl, hwaits⟩
      | false =>
        rw [hgone] at hwaits
        exact Or.inr ⟨rfl, h.name_of_waitsAt hnode (Nat.lt_of_lt_of_eq Nat.one_pos hwaits.symm), hwaits⟩
    once := by
      intro id
      rw [h.waitsAt_eq]
      exact Bool.toNat_le _
    idle := by
      intro hidle id node hnode hethereal
      have hwaits := hlingers hnode hethereal
      rw [waitsAt, isIdle_iff.mp hidle] at hwaits
      cases hgone : node.destroyed with
      | true => rfl
      | false =>
        rw [hgone] at hwaits
        cases hwaits }

/-- A plant with a pause in front of a leaf. -/
def restingBud : PlantPlan where
  traits := { start := "PL" }
  handlers := ⟨[('P', .pause 5 5), ('L', .leaf none {})]⟩

/-- After a tick the chain waits. -/
theorem restingBud_passes : ∃ garden, Reached restingBud {} garden ∧ garden.waitsAt 1 = 1 ∧
    garden.Passes := by
  obtain ⟨garden, hreached, hwaits⟩ : ∃ garden, Reached restingBud {} garden ∧ garden.waitsAt 1 = 1 :=
    ⟨_, Reached.ticked (Reached.planted (show build 10 restingBud {} = .ok (some _) from rfl))
      (show Simulation.tick 10 _ = some (_, _) from rfl), rfl⟩
  exact ⟨garden, hreached, hwaits, ethereal_pass hreached⟩

end Garden
end PlantGrowth
