import PlantGrowth.Proofs.Calls
import PlantGrowth.Proofs.Copies
import PlantGrowth.Proofs.Course

/-!
# Felled gardens

Killing a node does not take back the work that waits: pauses go on waiting, branches go on growing
and leaves go on unfolding at dead nodes, and all of them still hand their chains on when they are
done. Nothing comes of it. A chain is continued by `World.advance` only, and that looks at the node
first. So if all nodes of a garden are killed, no handler is dispatched and no node is made any more,
whatever waits and however often it is ticked (`Garden.felled_rests`).
-/

namespace PlantGrowth

/-! ## Arenas in which nothing lives -/

namespace Arena

/-- Lets the chains of all nodes end. -/
def killAll (a : Arena) : Arena := (List.range a.size).foldl kill a

/-- All nodes are dead. -/
def Lifeless (a : Arena) : Prop := ∀ ⦃id node⦄, a.get? id = some node → node.dead = true

variable {a b : Arena}

theorem killAll_eq (a : Arena) :
    a.killAll = a.modifyAll (List.range a.size) fun node => { node with dead := true } := rfl

theorem size_killAll (a : Arena) : a.killAll.size = a.size := by
  rw [killAll_eq, size_modifyAll]

theorem lifeless_killAll (a : Arena) : a.killAll.Lifeless := by
  intro id node hnode
  have hmem : id ∈ List.range a.size := by
    rw [List.mem_range, ← size_killAll]
    exact lt_size_of_get? hnode
  rw [killAll_eq, get?_modifyAll List.nodup_range, if_pos hmem, Option.map_eq_some_iff] at hnode
  obtain ⟨before, -, rfl⟩ := hnode
  rfl

theorem Lifeless.isDead (h : a.Lifeless) (id : NodeId) : a.isDead id = true := by
  rw [Arena.isDead]
  cases hnode : a.get? id with
  | none => rfl
  | some node => exact h hnode

/-- Whether a node is dead is a matter of its mark. -/
theorem Lifeless.of_marks (h : a.Lifeless) (hmarks : b.marks = a.marks) : b.Lifeless := by
  intro id later hlater
  have hmark : a.marks[id]? = some later.mark := by
    rw [← hmarks, getElem?_marks, hlater, Option.map_some]
  obtain ⟨node, hnode, heq⟩ := exists_of_getElem?_marks hmark
  exact (congrArg Mark.dead heq).symm.trans (h hnode)

theorem Lifeless.destroy (h : a.Lifeless) (id : NodeId) : (a.destroy id).Lifeless := by
  intro other later hlater
  rw [Arena.destroy, get?_modify] at hlater
  split at hlater
  · obtain ⟨node, hnode, rfl⟩ := Option.map_eq_some_iff.mp hlater
    have hdead : node.dead = true := h hnode
    exact hdead
  · exact h hlater

end Arena

/-! ## Growth at rest -/

/-- Nothing lives, and so many handlers were dispatched and so many nodes were made. -/
structure World.Rests (dispatched size : Nat) (w : World Empty) : Prop where
  lifeless : w.nodes.Lifeless
  dispatched : w.dispatched = dispatched
  size : w.nodes.size = size

/-- A task that continues a chain or destroys a node. -/
inductive Task.Fades : Task Empty → Prop where
  | advance (node : NodeId) (chain : Chain Empty) (baked : Bool) : Fades (.advance node chain baked)
  | carryOn (node : NodeId) (chain : Chain Empty) : Fades (.carryOn node chain)
  | destroy (node : NodeId) : Fades (.destroy node)

/-- Such a task is always done. -/
theorem Task.Fades.halts_eq_false {task : Task Empty} (h : task.Fades) (w : World Empty) :
    w.halts task = false := by
  cases h with
  | advance node chain baked => exact w.halts_advance node chain baked
  | carryOn node chain => exact World.halts_of_random World.random_carryOn
  | destroy node => exact World.halts_of_random rfl

section

variable {dispatched size : Nat} {w later : World Empty} {task : Task Empty}
  {tasks : List (Task Empty)}

theorem World.Quiet.rests (h : w.Quiet later) (hw : w.Rests dispatched size) :
    later.Rests dispatched size where
  lifeless := hw.lifeless.of_marks h.marks
  dispatched := h.dispatched.trans hw.dispatched
  size := by rw [← Arena.length_marks, h.marks, Arena.length_marks, hw.size]

theorem Continuation.fades_of_mem_resume (work : Continuation Empty) (w : World Empty)
    (h : task ∈ (work.resume w).tasks) : task.Fades := by
  rcases work.exists_of_mem_resume w h with
    ⟨node, rfl⟩ | ⟨node, chain, later, -, -, -, ⟨baked, rfl⟩ | rfl⟩
  · exact .destroy node
  · exact .advance node later baked
  · exact .carryOn node later

namespace World.Rests

/-- **Continuing a chain comes to nothing where nothing lives.** -/
theorem advance (h : w.Rests dispatched size) (node : NodeId) (chain : Chain Empty) (baked : Bool) :
    w.advance node chain baked = (w, []) := by
  rcases w.advance_cases node chain baked with ⟨-, heq⟩ | ⟨hlive, -⟩
  · exact heq
  · cases hlive.symm.trans (h.lifeless.isDead node)

theorem carryOn (h : w.Rests dispatched size) (node : NodeId) (chain : Chain Empty) :
    (w.carryOn node chain).1.Rests dispatched size := by
  rcases w.carryOn_cases node chain with ⟨heq, -⟩ | ⟨heq, -⟩
  · rw [heq]
    exact h
  · rw [heq]
    exact ⟨h.lifeless, h.dispatched, h.size⟩

theorem destroy (h : w.Rests dispatched size) (node : NodeId) :
    (w.destroy node).Rests dispatched size where
  lifeless := h.lifeless.destroy node
  dispatched := h.dispatched
  size := (Arena.size_modify _ _ _).trans h.size

/-- One step leaves the world at rest, and tasks that come to nothing. -/
theorem perform (h : w.Rests dispatched size) (hfades : task.Fades) :
    (w.perform task).1.Rests dispatched size ∧ ∀ other ∈ (w.perform task).2, other.Fades := by
  cases hfades with
  | advance node chain baked =>
    show (w.advance node chain baked).1.Rests _ _ ∧ ∀ other ∈ (w.advance node chain baked).2, _
    rw [h.advance]
    exact ⟨h, fun other hother => (by cases hother)⟩
  | carryOn node chain =>
    refine ⟨h.carryOn node chain, fun other hother => ?_⟩
    rw [World.mem_carryOn hother]
    exact .advance node chain true
  | destroy node => exact ⟨h.destroy node, fun other hother => (by cases hother)⟩

/-- Chains that are to be continued at once end at once. -/
theorem comes_advances (h : w.Rests dispatched size) {rest : List (Task Empty)}
    (hadvances : ∀ task ∈ tasks, ∃ node chain baked, task = .advance node chain baked) :
    Comes w (tasks ++ rest) w rest := by
  induction tasks with
  | nil => exact Comes.refl w rest
  | cons task tasks ih =>
    obtain ⟨node, chain, baked, rfl⟩ := hadvances task List.mem_cons_self
    have hnothing : w.perform (.advance node chain baked) = (w, []) := h.advance node chain baked
    have hstep : Comes w (.advance node chain baked :: (tasks ++ rest)) w (tasks ++ rest) :=
      comes_of_random hnothing rfl rfl
    exact hstep.trans (ih fun other hother => hadvances other (List.mem_cons_of_mem _ hother))

/-- What continuations set off gets done where nothing lives. -/
theorem exists_ends (h : w.Rests dispatched size) (hfades : ∀ task ∈ tasks, task.Fades) :
    ∃ after, w.Ends tasks after := by
  induction tasks generalizing w with
  | nil => exact ⟨w, ends_nil w⟩
  | cons task rest ih =>
    have hhead := hfades task List.mem_cons_self
    have hrest (other) (hother : other ∈ rest) := hfades other (List.mem_cons_of_mem task hother)
    obtain ⟨hlater, -⟩ := h.perform hhead
    obtain ⟨after, hafter⟩ := ih hlater hrest
    have hstep : Comes w (task :: rest) (w.perform task).1 ((w.perform task).2 ++ rest) :=
      Comes.step rfl (hhead.halts_eq_false w)
    have hleft : Comes (w.perform task).1 ((w.perform task).2 ++ rest) (w.perform task).1 rest := by
      refine hlater.comes_advances fun other hother => ?_
      cases hhead with
      | advance node chain baked =>
        rw [show w.perform (.advance node chain baked) = (w, []) from h.advance node chain baked]
          at hother
        cases hother
      | carryOn node chain =>
        exact ⟨node, chain, true, World.mem_carryOn hother⟩
      | destroy node => cases hother
    exact ⟨after, (hstep.trans hleft).ends_of_ends hafter⟩

end World.Rests

/-- **Rest is kept by every step of growth.** -/
theorem World.Rests.invariant (dispatched size : Nat) :
    Garden.Invariant fun w tasks _ => w.Rests dispatched size ∧ ∀ task ∈ tasks, task.Fades where
  perform := by
    intro w task rest waiting h
    obtain ⟨hlater, htasks⟩ := h.1.perform (h.2 task List.mem_cons_self)
    refine ⟨hlater, fun other hother => ?_⟩
    rcases List.mem_append.mp hother with hmem | hmem
    · exact htasks other hmem
    · exact h.2 other (List.mem_cons_of_mem task hmem)
  resume := by
    intro w work waiting h
    exact ⟨(work.quiet_resume w).rests h.1, fun task => work.fades_of_mem_resume w⟩
  reorder := fun _ h => h
  unpark := fun h => ⟨⟨h.1.lifeless, h.1.dispatched, h.1.size⟩, h.2⟩
  elapse := fun _ h => ⟨⟨h.1.lifeless, h.1.dispatched, h.1.size⟩, h.2⟩

end

/-! ## Felling -/

namespace Garden

/-- The garden after all its nodes were killed. -/
def felled (garden : Garden) : Garden :=
  { garden with world := garden.world.mapNodes Arena.killAll }

variable {garden : Garden}

theorem rests_felled (garden : Garden) :
    garden.felled.world.Rests garden.world.dispatched garden.world.nodes.size where
  lifeless := garden.world.nodes.lifeless_killAll
  dispatched := rfl
  size := garden.world.nodes.size_killAll

/-- A tick returns where nothing lives. -/
theorem exists_tick_of_rests {dispatched size : Nat} (h : garden.world.Rests dispatched size) :
    ∃ limit result, Simulation.tick limit garden = some result := by
  rw [tick_returns_iff]
  intro w tasks hresumes
  obtain ⟨waiting, hrests, hfades⟩ := (World.Rests.invariant dispatched size).of_resumes
    ⟨h, fun task htask => (by cases htask)⟩ hresumes
  exact hrests.exists_ends hfades

/-- **Killing is a complete cancellation.** Once all nodes of a garden are killed, whatever waits in
it, it can be ticked any number of times, and no tick dispatches a handler or makes a node. -/
theorem felled_rests (garden : Garden) (count : Nat) :
    (∃ limit reports later, ticks limit count garden.felled = some (reports, later)) ∧
    ∀ limit reports later, ticks limit count garden.felled = some (reports, later) →
      later.world.dispatched = garden.world.dispatched ∧
      later.world.nodes.size = garden.world.nodes.size ∧
      ∀ id, later.world.nodes.isDead id = true := by
  have hI := World.Rests.invariant garden.world.dispatched garden.world.nodes.size
  have hidle (w : World Empty) (h : w.Rests garden.world.dispatched garden.world.nodes.size) :
      w.Rests garden.world.dispatched garden.world.nodes.size ∧
        ∀ task ∈ ([] : List (Task Empty)), task.Fades := ⟨h, fun task htask => (by cases htask)⟩
  constructor
  · obtain ⟨limit, ⟨reports, later⟩, hticks⟩ := exists_ticks
      (P := fun g => g.world.Rests garden.world.dispatched garden.world.nodes.size)
      (fun g h => exists_tick_of_rests h)
      (fun limit g report later h htick => (hI.of_tick htick (hidle _ h)).1) count
      garden.rests_felled
    exact ⟨limit, reports, later, hticks⟩
  · intro limit reports later hticks
    obtain ⟨hrests, -⟩ := hI.of_ticks hticks (hidle _ garden.rests_felled)
    exact ⟨hrests.dispatched, hrests.size, hrests.lifeless.isDead⟩

end Garden
end PlantGrowth
