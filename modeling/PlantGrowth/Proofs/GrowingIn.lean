import PlantGrowth.Proofs.Emergences
import PlantGrowth.Proofs.Moments

/-!
# Growing in

An instance that grows in begins at no size and is given the size that it was placed with, a bit more
in every tick. `Garden.instances_grow_in` says that this is safe and that it comes to its end: no two
continuations resize the same node, the node stays visible and never becomes part of a prototype, and
when none is left that resizes it, the node is as large as it was placed.

## Why it never becomes part of a prototype

Nothing grows in while a prototype is being grown. So when structure is published, what grows in, and
what ever did, is older than the structure. For what did so in the past there is no pending work that
names it. The argument lets its continuation wait all the same, next to those that do
(`Garden.Ordered.recall`); orderly growth allows that, because such a continuation holds no node.
-/

namespace PlantGrowth

/-! ## Resuming -/

namespace Emergence

variable {scaling : Emergence} {w : World Empty}

/-- The node, and the size that it is going to have. -/
def goal (scaling : Emergence) : NodeId × Float := (scaling.node, scaling.endScale)

/-- **A node that grows in has its size in the end**, and until then it goes on to grow in. -/
theorem resume_cases (h : w.nodes.contains scaling.node = true) :
    (scaling.resume w).step = .complete ∧
        (scaling.resume w).world.nodes.scale? scaling.node = some scaling.endScale ∨
      (scaling.resume w).step = .pending ∧ ∃ next : Emergence,
        (scaling.resume w).continuation = .emergence next ∧ next.goal = scaling.goal := by
  have hlt : scaling.node < w.nodes.size := by simpa [Arena.contains] using h
  unfold resume
  dsimp only
  rw [if_pos h]
  split
  next hdone =>
    exact Or.inl ⟨rfl, Arena.scale?_place_self hlt _ _ fun _ => rfl⟩
  next => exact Or.inr ⟨rfl, _, rfl, rfl⟩

/-- No other node is resized. -/
theorem scale?_resume (scaling : Emergence) (w : World Empty) {id : NodeId} (h : id ≠ scaling.node) :
    (scaling.resume w).world.nodes.scale? id = w.nodes.scale? id := by
  unfold resume
  dsimp only
  split
  · exact Arena.scale?_place_of_ne h _
  · rfl

end Emergence

namespace Continuation

variable {work : Continuation Empty}

theorem emergence?_resume (h : work.emergence? = none) (w : World Empty) :
    (work.resume w).continuation.emergence? = none := by
  have hresumes := work.resumes w
  generalize work.resume w = resumption at hresumes ⊢
  cases hresumes with
  | emerges scaling done elapsed scale => cases h
  | lostInstance scaling elapsed => cases h
  | host work => exact work.elim
  | _ => rfl

/-- No task that a continuation sets off lets an instance grow in. -/
theorem emergence?_tasks (work : Continuation Empty) (w : World Empty) :
    ∀ task ∈ (work.resume w).tasks, task.emergence? = none := by
  intro task htask
  cases task with
  | park other => exact absurd htask (work.not_park_resume w)
  | _ => rfl

end Continuation

/-! ## The account -/

namespace Garden

/-- The instances that are growing in, or will be from the next tick on. -/
def emergences (w : World Empty) (waiting : List (Continuation Empty)) : List Emergence :=
  (waiting ++ w.parked.toList).filterMap Continuation.emergence?

section

variable {w later : World Empty} {task : Task Empty} {tasks rest : List (Task Empty)}
  {work : Continuation Empty} {waiting : List (Continuation Empty)} {scaling : Emergence}

theorem emergences_eq (w : World Empty) (waiting : List (Continuation Empty)) :
    emergences w waiting = waiting.filterMap Continuation.emergence? ++ w.emergences :=
  List.filterMap_append

theorem emergences_of_same (h : later.emergences = w.emergences) :
    emergences later waiting = emergences w waiting := by
  rw [emergences_eq, emergences_eq, h]

theorem emergences_of_begins {placed : World Empty} (h : w.Begins placed later scaling) :
    emergences later waiting = emergences w waiting ++ [scaling] := by
  rw [emergences_eq, emergences_eq, h.emergences, List.append_assoc]

theorem emergences_unpark (w : World Empty) (waiting : List (Continuation Empty)) :
    emergences w.unpark.2 (waiting ++ w.unpark.1) = emergences w waiting :=
  congrArg (List.filterMap Continuation.emergence?) (List.append_nil _)

theorem emergences_cons_of_none (h : work.emergence? = none) :
    emergences w (work :: waiting) = emergences w waiting := by
  rw [emergences, List.cons_append, List.filterMap_cons_none h, emergences]

theorem emergences_cons_emergence (w : World Empty) (scaling : Emergence)
    (waiting : List (Continuation Empty)) :
    emergences w (.emergence scaling :: waiting) = scaling :: emergences w waiting := rfl

theorem mem_emergences : scaling ∈ emergences w waiting ↔
    .emergence scaling ∈ waiting ++ w.parked.toList := by
  rw [emergences, List.mem_filterMap]
  constructor
  · rintro ⟨work, hwork, hscaling⟩
    cases work with
    | emergence other =>
      obtain rfl := Option.some.inj hscaling
      exact hwork
    | _ => cases hscaling
  · intro hmem
    exact ⟨_, hmem, rfl⟩

theorem Ordered.lt_size (h : Ordered w tasks waiting) (hmem : scaling ∈ emergences w waiting) :
    scaling.node < w.nodes.size :=
  (h.orderly.work_open _ (mem_emergences.mp hmem) _ List.mem_cons_self).lt_size

/-- What resuming a continuation does to sizes, and what grows in after it. -/
inductive Resizes (w : World Empty) (waiting : List (Continuation Empty)) :
    Continuation Empty → World Empty → List Emergence → Prop where
  | nothing {work : Continuation Empty} {later : World Empty}
      (kept : later.nodes.scale? = w.nodes.scale?) :
      Resizes w waiting work later (emergences w (work :: waiting))
  /-- An instance has its size. -/
  | grown {scaling : Emergence} {later : World Empty}
      (kept : ∀ id, id ≠ scaling.node → later.nodes.scale? id = w.nodes.scale? id)
      (full : later.nodes.scale? scaling.node = some scaling.endScale) :
      Resizes w waiting (.emergence scaling) later (emergences w waiting)
  /-- An instance goes on growing in. -/
  | grows {scaling next : Emergence} {later : World Empty}
      (kept : ∀ id, id ≠ scaling.node → later.nodes.scale? id = w.nodes.scale? id)
      (goal : next.goal = scaling.goal) :
      Resizes w waiting (.emergence scaling) later (next :: emergences w waiting)

/-- No goal is added. -/
theorem Resizes.goals {left : List Emergence} (h : Resizes w waiting work later left) :
    (left.map Emergence.goal).Sublist ((emergences w (work :: waiting)).map Emergence.goal) := by
  cases h with
  | nothing _ => exact List.Sublist.refl _
  | grown _ _ => exact List.sublist_cons_self _ _
  | grows _ hgoal =>
    rw [emergences_cons_emergence, List.map_cons, List.map_cons, hgoal]

/-- **Resuming a continuation resizes what it lets grow in**, if it does so, and nothing else. -/
theorem Ordered.resizes (h : Ordered w [] (work :: waiting)) :
    Resizes w waiting work (work.resume w).world (emergences (work.resume w).world
      (if (work.resume w).step = .pending then (work.resume w).continuation :: waiting else waiting)) := by
  have hparked := World.emergences_of_parked (work.redraws_resume w).parked
  cases hwork : work.emergence? with
  | none =>
    have hnothing : Resizes w waiting work _ _ :=
      Resizes.nothing (Arena.scale?_of_bare? (work.bare?_resume hwork w))
    rw [emergences_cons_of_none hwork] at hnothing
    split
    · rwa [emergences_cons_of_none (work.emergence?_resume hwork w), emergences_of_same hparked]
    · rwa [emergences_of_same hparked]
  | some scaling =>
    obtain rfl : work = .emergence scaling := by
      cases work with
      | emergence other => rw [Option.some.inj hwork]
      | _ => cases hwork
    have hopen := h.orderly.work_open _ List.mem_cons_self scaling.node List.mem_cons_self
    obtain ⟨node, hnode, -⟩ := hopen
    have hkept (id : NodeId) (hid : id ≠ scaling.node) := scaling.scale?_resume w hid
    have hresume : (Continuation.emergence scaling).resume w = scaling.resume w := rfl
    rw [hresume] at hparked ⊢
    rcases scaling.resume_cases (Arena.contains_of_get? hnode) with
      ⟨hstep, hfull⟩ | ⟨hstep, next, hnext, hgoal⟩
    · rw [if_neg fun hpending => (by cases hstep.symm.trans hpending), emergences_of_same hparked]
      exact .grown hkept hfull
    · rw [if_pos hstep, hnext, emergences_cons_emergence, emergences_of_same hparked]
      exact .grows hkept hgoal

end

/-! ### Targets -/

/-- What holds of the instances that grow in. -/
structure Emerging (w : World Empty) (tasks : List (Task Empty)) (waiting : List (Continuation Empty)) :
    Prop where
  ordered : Ordered w tasks waiting
  /-- Instances begin to grow in by being placed, and in no other way. -/
  plain : ∀ task ∈ tasks, task.emergence? = none
  distinct : ((emergences w waiting).map Emergence.node).Nodup
  solid : ∀ id ∈ (emergences w waiting).map Emergence.node,
    ∃ node, w.nodes.get? id = some node ∧ node.ethereal = false

section

variable {w : World Empty} {task : Task Empty} {rest : List (Task Empty)}
  {waiting : List (Continuation Empty)}

theorem Emerging.begins (h : Emerging w (task :: rest) waiting) :
    (w.perform task).1.emergences = w.emergences ∨
      ∃ scaling, w.Begins (w.perform task.still).1 (w.perform task).1 scaling :=
  h.ordered.orderly.begins_perform h.ordered.governs.tasks.1 (h.plain task List.mem_cons_self)

theorem Resizes.nodes {work : Continuation Empty} {later : World Empty} {left : List Emergence}
    (h : Resizes w waiting work later left) :
    (left.map Emergence.node).Sublist ((emergences w (work :: waiting)).map Emergence.node) := by
  have hnodes (list : List Emergence) :
      (list.map Emergence.goal).map Prod.fst = list.map Emergence.node := List.map_map
  rw [← hnodes, ← hnodes]
  exact h.goals.map Prod.fst

theorem emerging_invariant : Invariant Emerging where
  perform := by
    intro w task rest waiting h
    have hkeeps := (h.ordered.orderly.perform h.ordered.governs.tasks.1 h.ordered.governs.tasks.2).1
    have hplain : ∀ other ∈ (w.perform task).2 ++ rest, other.emergence? = none := by
      intro other hother
      rcases List.mem_append.mp hother with hnew | hold
      · exact World.emergence?_perform h.ordered.governs.tasks.1 other hnew
      · exact h.plain other (List.mem_cons_of_mem _ hold)
    have hsolid : ∀ id ∈ (emergences w waiting).map Emergence.node,
        ∃ node, (w.perform task).1.nodes.get? id = some node ∧ node.ethereal = false := by
      intro id hid
      obtain ⟨node, hnode, hsolid⟩ := h.solid id hid
      obtain ⟨later, hlater, houtlives⟩ := hkeeps.extended hnode
      exact ⟨later, hlater, houtlives.ethereal.trans hsolid⟩
    rcases h.begins with hsame | ⟨scaling, hbegins⟩
    · have hall : emergences (w.perform task).1 waiting = emergences w waiting :=
        emergences_of_same hsame
      rw [← hall] at hsolid
      refine ⟨orderly_invariant.perform h.ordered, hplain, ?_, hsolid⟩
      rw [hall]
      exact h.distinct
    · have hall : emergences (w.perform task).1 waiting = emergences w waiting ++ [scaling] :=
        emergences_of_begins hbegins
      refine ⟨orderly_invariant.perform h.ordered, hplain, ?_, ?_⟩
      · rw [hall, List.map_append, List.nodup_append]
        refine ⟨h.distinct, List.nodup_singleton _, ?_⟩
        rintro id hid other hother rfl
        obtain ⟨old, hold, rfl⟩ := List.mem_map.mp hid
        have hnew : old.node = w.nodes.size := (List.mem_singleton.mp hother).trans hbegins.new
        exact absurd (h.ordered.lt_size hold) (by rw [hnew]; exact Nat.lt_irrefl _)
      · intro id hid
        rw [hall, List.map_append] at hid
        rcases List.mem_append.mp hid with hold | hnew
        · exact hsolid id hold
        · rw [List.mem_singleton.mp hnew]
          exact hbegins.solid
  resume := by
    intro w work waiting h
    have hnodes := h.ordered.resizes.nodes
    refine ⟨orderly_invariant.resume h.ordered, work.emergence?_tasks w, h.distinct.sublist hnodes,
      fun id hid => ?_⟩
    obtain ⟨node, hnode, hsolid⟩ := h.solid id (hnodes.subset hid)
    obtain ⟨transform, segment, blade, hlater, -⟩ := (work.redraws_resume w).node hnode
    exact ⟨_, hlater, hsolid⟩
  reorder := by
    intro w tasks waiting other hperm h
    have hall : (emergences w waiting).Perm (emergences w other) :=
      (hperm.append_right _).filterMap _
    exact ⟨orderly_invariant.reorder hperm h.ordered, h.plain,
      (hall.map _).nodup_iff.mp h.distinct,
      fun id hid => h.solid id ((hall.map _).mem_iff.mpr hid)⟩
  unpark := by
    intro w waiting h
    refine ⟨orderly_invariant.unpark h.ordered, h.plain, ?_, ?_⟩
    · rw [emergences_unpark]
      exact h.distinct
    · rw [emergences_unpark]
      exact h.solid
  elapse := fun seconds h =>
    ⟨orderly_invariant.elapse seconds h.ordered, h.plain, h.distinct, h.solid⟩

end

/-! ### What becomes of an instance -/

/-- An invariant holds still if one more continuation waits that is never resumed. -/
theorem Invariant.beside {I : World Empty → List (Task Empty) → List (Continuation Empty) → Prop}
    (hI : Invariant I) (other : Continuation Empty) :
    Invariant fun w tasks waiting => I w tasks (other :: waiting) where
  perform := hI.perform
  resume := by
    intro w work waiting h
    have hlater := hI.resume (hI.reorder (List.Perm.swap work other waiting) h)
    refine hI.reorder ?_ hlater
    split
    · exact List.Perm.swap _ _ _
    · exact List.Perm.refl _
  reorder := fun hperm h => hI.reorder (hperm.cons other) h
  unpark := hI.unpark
  elapse := hI.elapse

section

variable {w : World Empty} {tasks : List (Task Empty)} {waiting : List (Continuation Empty)}
  {scaling : Emergence}

/-- **What grows in can be counted twice**: it holds no node. -/
theorem Ordered.recall (h : Ordered w tasks waiting) (hmem : scaling ∈ emergences w waiting) :
    Ordered w tasks (.emergence scaling :: waiting) := by
  have hwork := mem_emergences.mp hmem
  refine ⟨{ h.governs with waiting := List.forall_mem_cons.mpr ⟨fun chain hchain => ?_,
    h.governs.waiting⟩ }, ?_⟩
  · cases hchain
  · show w.Orderly tasks (.emergence scaling :: (waiting ++ w.parked.toList))
    exact { h.orderly with
      work_open := List.forall_mem_cons.mpr ⟨h.orderly.work_open _ hwork, h.orderly.work_open⟩
      publishes := fun prefab hprefab => ⟨(h.orderly.publishes prefab hprefab).1,
        List.forall_mem_cons.mpr ⟨(h.orderly.publishes prefab hprefab).2 _ hwork,
          (h.orderly.publishes prefab hprefab).2⟩⟩
      call := by
        intro handler node bundle baked rest heq
        obtain ⟨state, hserves, hcase⟩ := h.orderly.call handler node bundle baked rest heq
        exact ⟨state, hserves, hcase.imp_right fun ⟨htasks, hworks⟩ =>
          ⟨htasks, List.forall_mem_cons.mpr ⟨hworks _ hwork, hworks⟩⟩⟩
      account := h.orderly.account
      work_named := List.forall_mem_cons.mpr ⟨trivial, h.orderly.work_named⟩ }

/-- An instance that began to grow in still does, or it has its size. Its continuation is recalled. -/
structure Settling (scaling : Emergence) (w : World Empty) (tasks : List (Task Empty))
    (waiting : List (Continuation Empty)) : Prop where
  emerging : Emerging w tasks waiting
  recalled : Ordered w tasks (.emergence scaling :: waiting)
  fate : scaling.goal ∈ (emergences w waiting).map Emergence.goal ∨
    (∀ other ∈ emergences w waiting, other.node ≠ scaling.node) ∧
      w.nodes.scale? scaling.node = some scaling.endScale

theorem Settling.opened (h : Settling scaling w tasks waiting) : w.nodes.Open scaling.node :=
  h.recalled.orderly.work_open _ List.mem_cons_self _ List.mem_cons_self

/-- Nothing but its continuation resizes it while a task is done. -/
theorem Settling.scale?_perform {task : Task Empty} (h : Settling scaling w (task :: tasks) waiting) :
    (w.perform task).1.nodes.scale? scaling.node = w.nodes.scale? scaling.node := by
  refine (h.recalled.orderly.alters h.recalled.governs.tasks.1).scale? h.opened.lt_size ?_
  rintro prefab rfl
  obtain ⟨-, hworks⟩ := h.recalled.orderly.publishes prefab List.mem_cons_self
  exact Nat.ne_of_lt (hworks _ List.mem_cons_self _ List.mem_cons_self)

/-- It goes on to grow in until it has its size, also while its continuation is resumed. -/
theorem Settling.fate_resume {work : Continuation Empty} {later : World Empty} {left : List Emergence}
    (h : Settling scaling w [] (work :: waiting)) (hresizes : Resizes w waiting work later left) :
    scaling.goal ∈ left.map Emergence.goal ∨ (∀ other ∈ left, other.node ≠ scaling.node) ∧
      later.nodes.scale? scaling.node = some scaling.endScale := by
  have hdistinct := h.emerging.distinct
  have hfate := h.fate
  cases hresizes with
  | nothing hkept =>
    rw [hkept]
    exact hfate
  | @grown other _ hkept hfull =>
    rw [emergences_cons_emergence] at hdistinct hfate
    obtain ⟨hnew, -⟩ := List.nodup_cons.mp hdistinct
    rcases hfate with hmem | ⟨hnone, hscale⟩
    · rcases List.mem_cons.mp hmem with hgoal | hmem
      · obtain ⟨hnode, hend⟩ := Prod.mk.inj hgoal
        rw [hnode, hend]
        exact Or.inr ⟨fun next hnext heq => hnew (List.mem_map.mpr ⟨next, hnext, heq⟩), hfull⟩
      · exact Or.inl hmem
    · have hother := hnone other List.mem_cons_self
      exact Or.inr ⟨fun next hnext => hnone next (List.mem_cons_of_mem _ hnext),
        (hkept _ hother.symm).trans hscale⟩
  | @grows other next _ hkept hgoal =>
    rw [emergences_cons_emergence] at hfate
    rcases hfate with hmem | ⟨hnone, hscale⟩
    · left
      rw [List.map_cons, hgoal]
      exact hmem
    · have hother := hnone other List.mem_cons_self
      refine Or.inr ⟨List.forall_mem_cons.mpr ⟨?_, fun next hnext =>
        hnone next (List.mem_cons_of_mem _ hnext)⟩, (hkept _ hother.symm).trans hscale⟩
      rw [(Prod.mk.inj hgoal).1]
      exact hother

/-- **What began to grow in does so until it has its size**, and then it keeps it. -/
theorem settling_invariant (scaling : Emergence) : Invariant (Settling scaling) where
  perform := by
    intro w task rest waiting h
    refine ⟨emerging_invariant.perform h.emerging,
      (orderly_invariant.beside _).perform h.recalled, ?_⟩
    rw [h.scale?_perform]
    rcases h.emerging.begins with hsame | ⟨new, hbegins⟩
    · rw [emergences_of_same hsame]
      exact h.fate
    · rw [emergences_of_begins hbegins, List.map_append]
      refine h.fate.imp (List.mem_append_left _) fun ⟨hnone, hscale⟩ => ⟨fun other hother => ?_, hscale⟩
      rcases List.mem_append.mp hother with hold | hnew
      · exact hnone other hold
      · rw [List.mem_singleton.mp hnew, hbegins.new]
        exact Nat.ne_of_gt h.opened.lt_size
  resume := by
    intro w work waiting h
    exact ⟨emerging_invariant.resume h.emerging, (orderly_invariant.beside _).resume h.recalled,
      h.fate_resume h.emerging.ordered.resizes⟩
  reorder := by
    intro w tasks waiting other hperm h
    have hall : (emergences w waiting).Perm (emergences w other) :=
      (hperm.append_right _).filterMap _
    exact ⟨emerging_invariant.reorder hperm h.emerging,
      (orderly_invariant.beside _).reorder hperm h.recalled,
      h.fate.imp (hall.map _).mem_iff.mp fun ⟨hnone, hscale⟩ =>
        ⟨fun next hnext => hnone next (hall.mem_iff.mpr hnext), hscale⟩⟩
  unpark := by
    intro w waiting h
    refine ⟨emerging_invariant.unpark h.emerging, (orderly_invariant.beside _).unpark h.recalled, ?_⟩
    rw [emergences_unpark]
    exact h.fate
  elapse := fun seconds h => ⟨emerging_invariant.elapse seconds h.emerging,
    (orderly_invariant.beside _).elapse seconds h.recalled, h.fate⟩

end

/-! ## Moments -/

namespace Moment

/-- The instances that are growing in at a moment, or will be from the next tick on. -/
def emergences (m : Moment) : List Emergence := Garden.emergences m.world m.waiting

/-- The moment with growing in switched off for what is to be done next. -/
def still (m : Moment) : Moment := { m with tasks := m.tasks.map Task.still }

/-- How large the node of a name is. -/
def scale? (m : Moment) (id : NodeId) : Option Float := m.world.nodes.scale? id

/-- The next task places an instance of a size, at the node of a name, and lets it grow in. -/
structure Begins (m : Moment) (id : NodeId) (size : Float) : Prop where
  new : m.world.nodes.size = id
  full : m.still.next.scale? id = some size
  reset : m.next.scale? id = some 0

/-- What grows in does so safely, and comes to its end. The course begins at `start`. -/
structure GrowsIn (start m : Moment) : Prop where
  /-- No two continuations resize the same node. -/
  distinct : (m.emergences.map Emergence.node).Nodup
  visible : ∀ scaling ∈ m.emergences,
    ∃ node, m.world.nodes.get? scaling.node = some node ∧ node.visible = true
  /-- The size to come is the one that the instance was placed with. -/
  begun : ∀ scaling ∈ m.emergences, ∃ origin, start.Leads origin ∧
    origin.Begins scaling.node scaling.endScale ∧ origin.next.Leads m
  /-- Whatever the next task resets grows in. -/
  resets : ∀ id, m.next.scale? id ≠ m.still.next.scale? id →
    id ∈ m.next.emergences.map Emergence.node
  /-- It does not belong to a prototype, then and for ever. -/
  apart : ∀ scaling ∈ m.emergences, ∀ later, m.Leads later → ∀ identifier root,
    later.world.prefabs.find? identifier = some (.ready root) →
      scaling.node ∉ later.world.nodes.subtree root
  /-- When nothing resizes it any more it has its size. -/
  complete : ∀ scaling ∈ m.emergences, ∀ later, m.Leads later →
    scaling.node ∉ later.emergences.map Emergence.node →
      later.scale? scaling.node = some scaling.endScale

end Moment

section

variable {m later : Moment} {scaling : Emergence}

/-- The instances that grow in, each with the moment at which it began to. -/
structure Begun (start : Moment) (w : World Empty) (tasks : List (Task Empty))
    (waiting : List (Continuation Empty)) : Prop where
  emerging : Emerging w tasks waiting
  leads : start.Leads ⟨w, tasks, waiting⟩
  begun : ∀ goal ∈ (emergences w waiting).map Emergence.goal, ∃ origin, start.Leads origin ∧
    origin.Begins goal.1 goal.2 ∧ origin.next.Leads ⟨w, tasks, waiting⟩

theorem begun_invariant (start : Moment) : Invariant (Begun start) where
  perform := by
    intro w task rest waiting h
    refine ⟨emerging_invariant.perform h.emerging, h.leads.perform, fun goal hgoal => ?_⟩
    have hkept : goal ∈ (emergences w waiting).map Emergence.goal → ∃ origin, start.Leads origin ∧
        origin.Begins goal.1 goal.2 ∧
          origin.next.Leads ⟨(w.perform task).1, (w.perform task).2 ++ rest, waiting⟩ := by
      intro hold
      obtain ⟨origin, horigin, hbegins, hleads⟩ := h.begun goal hold
      exact ⟨origin, horigin, hbegins, hleads.perform⟩
    rcases h.emerging.begins with hsame | ⟨new, hbegins⟩
    · rw [emergences_of_same hsame] at hgoal
      exact hkept hgoal
    · rw [emergences_of_begins hbegins, List.map_append] at hgoal
      rcases List.mem_append.mp hgoal with hold | hnew
      · exact hkept hold
      · rw [List.mem_singleton.mp hnew]
        exact ⟨_, h.leads, ⟨hbegins.new.symm, hbegins.full, hbegins.reset⟩, .refl⟩
  resume := by
    intro w work waiting h
    refine ⟨emerging_invariant.resume h.emerging, h.leads.resume, fun goal hgoal => ?_⟩
    obtain ⟨origin, horigin, hbegins, hleads⟩ :=
      h.begun goal (h.emerging.ordered.resizes.goals.subset hgoal)
    exact ⟨origin, horigin, hbegins, hleads.resume⟩
  reorder := by
    intro w tasks waiting other hperm h
    refine ⟨emerging_invariant.reorder hperm h.emerging, h.leads.reorder hperm, fun goal hgoal => ?_⟩
    have hall : (emergences w waiting).Perm (emergences w other) :=
      (hperm.append_right _).filterMap _
    obtain ⟨origin, horigin, hbegins, hleads⟩ := h.begun goal ((hall.map _).mem_iff.mpr hgoal)
    exact ⟨origin, horigin, hbegins, hleads.reorder hperm⟩
  unpark := by
    intro w waiting h
    refine ⟨emerging_invariant.unpark h.emerging, h.leads.unpark, fun goal hgoal => ?_⟩
    rw [emergences_unpark] at hgoal
    obtain ⟨origin, horigin, hbegins, hleads⟩ := h.begun goal hgoal
    exact ⟨origin, horigin, hbegins, hleads.unpark⟩
  elapse := by
    intro w waiting seconds h
    refine ⟨emerging_invariant.elapse seconds h.emerging, h.leads.elapse seconds, fun goal hgoal => ?_⟩
    obtain ⟨origin, horigin, hbegins, hleads⟩ := h.begun goal hgoal
    exact ⟨origin, horigin, hbegins, hleads.elapse seconds⟩

/-- What grows in at a moment settles from then on. -/
theorem Emerging.settling (h : Emerging m.world m.tasks m.waiting) (hmem : scaling ∈ m.emergences)
    (hleads : m.Leads later) : Settling scaling later.world later.tasks later.waiting :=
  (settling_invariant scaling).of_leads hleads
    ⟨h, h.ordered.recall hmem, Or.inl (List.mem_map_of_mem hmem)⟩

/-- Nodes of prototypes are hidden, but what began to grow in is not. -/
theorem Settling.not_mem_subtree {identifier : String} {root : NodeId}
    (h : Settling scaling m.world m.tasks m.waiting)
    (hready : m.world.prefabs.find? identifier = some (.ready root)) :
    scaling.node ∉ m.world.nodes.subtree root := by
  intro hmem
  have horderly := h.recalled.orderly
  obtain ⟨state, hroot, hhidden, -⟩ := horderly.ready identifier root hready
  obtain ⟨node, hnode, hshown, -⟩ := h.opened
  have hsame := (horderly.scene.hidden_of_mem_subtree hroot hmem hnode).1
  rw [hshown, hhidden] at hsame
  cases hsame

/-- Sizes that the next task resets. -/
theorem Emerging.mem_of_reset (h : Emerging m.world m.tasks m.waiting) {id : NodeId}
    (hne : m.next.scale? id ≠ m.still.next.scale? id) :
    id ∈ m.next.emergences.map Emergence.node := by
  obtain ⟨w, tasks, waiting⟩ := m
  cases tasks with
  | nil => exact absurd rfl hne
  | cons task rest =>
    replace hne : (w.perform task).1.nodes.scale? id ≠ (w.perform task.still).1.nodes.scale? id := hne
    show id ∈ (Garden.emergences (w.perform task).1 waiting).map Emergence.node
    rcases h.ordered.orderly.emerged_perform with heq | ⟨variation, other, heq⟩
    · rw [heq] at hne
      exact absurd rfl hne
    · rw [heq] at hne ⊢
      rcases World.emergences_emerge (w.perform task.still).1 variation other with
        hsame | ⟨scaling, hnode, hadded, -⟩
      · rw [hsame] at hne
        exact absurd rfl hne
      · have hid : id = other := by
          by_contra hother
          exact hne (World.scale?_emerge _ _ hother)
        rw [emergences_eq, hadded]
        refine List.mem_map.mpr ⟨scaling, ?_, hnode.trans hid.symm⟩
        exact List.mem_append_right _ (List.mem_append_right _ List.mem_cons_self)

end

section

variable {plan : PlantPlan} {seed : Seed Empty}

theorem begun_seedbed (hseed : plan.seed = .ok seed) (settings : Settings) :
    Begun (Moment.start plan seed settings) (seedbed plan settings) [rootTask plan seed] [] where
  emerging :=
    { ordered := ordered_seedbed hseed settings
      plain := fun task htask => by
        rw [List.mem_singleton.mp htask]
        rfl
      distinct := List.nodup_nil
      solid := fun id hid => (by cases hid) }
  leads := .refl
  begun := fun goal hgoal => (by cases hgoal)

/-- **Growing in is safe and comes to its end**, whatever the plan and the settings are. Nothing grows
in when a garden is idle. -/
theorem instances_grow_in (hseed : plan.seed = .ok seed) (settings : Settings) :
    (∀ garden, Reached plan settings garden →
      (Moment.start plan seed settings).Leads garden.moment ∧
        garden.moment.emergences = garden.queued.filterMap Continuation.emergence? ∧
        (garden.isIdle = true → garden.moment.emergences = [])) ∧
    ∀ m, (Moment.start plan seed settings).Leads m →
      (Moment.start plan seed settings).GrowsIn m := by
  refine ⟨fun garden hreached => ⟨hreached.leads hseed, rfl, fun hidle => ?_⟩, fun m hm => ?_⟩
  · show garden.queued.filterMap Continuation.emergence? = []
    rw [isIdle_iff.mp hidle, List.filterMap_nil]
  have hbegun := (begun_invariant _).of_leads hm (begun_seedbed hseed settings)
  have hemerging := hbegun.emerging
  exact {
    distinct := hemerging.distinct
    visible := by
      intro scaling hmem
      obtain ⟨node, hnode, hsolid⟩ := hemerging.solid _ (List.mem_map_of_mem hmem)
      have hshown := World.Orderly.shown_of_open (hemerging.settling hmem .refl).opened hnode
      refine ⟨node, hnode, ?_⟩
      rw [Node.visible, hshown]
      cases hgone : node.destroyed with
      | false => rfl
      | true => cases hsolid.symm.trans (hemerging.ordered.orderly.scene.gone hnode hgone)
    begun := fun scaling hmem => hbegun.begun _ (List.mem_map_of_mem hmem)
    resets := fun id => hemerging.mem_of_reset
    apart := fun scaling hmem later hlater _ _ => (hemerging.settling hmem hlater).not_mem_subtree
    complete := by
      intro scaling hmem later hlater hnone
      rcases (hemerging.settling hmem hlater).fate with hgoal | ⟨-, hscale⟩
      · obtain ⟨other, hother, heq⟩ := List.mem_map.mp hgoal
        exact absurd (List.mem_map.mpr ⟨other, hother, (Prod.mk.inj heq).1⟩) hnone
      · exact hscale }

end

/-- A baked plant of its root alone, shared under an identifier and placed in double size. -/
def sharedStone : PlantPlan where
  traits :=
    { start := "A", baked := true, prefab := some "stone"
      variation := { scaleMin := 2, scaleMax := 2 } }
  handlers := ⟨[]⟩

/-- Its first instance grows in: it is there, of no size, when the plant is planted, and a tick of a
second later it has its size and nothing grows in any more. -/
theorem sharedStone_grows_in : ∃ seed : Seed Empty, sharedStone.seed = .ok seed ∧
    ∃ (garden later : Garden) (scaling : Emergence),
      (Moment.start sharedStone seed { tickSeconds := 1 }).Leads garden.moment ∧
      (Moment.start sharedStone seed { tickSeconds := 1 }).GrowsIn garden.moment ∧
      scaling ∈ garden.moment.emergences ∧ scaling.node = 1 ∧ (scaling.endScale == 2) = true ∧
      (garden.moment.scale? 1 == some 0) = true ∧ garden.moment.Leads later.moment ∧
      later.moment.emergences.length = 0 ∧ later.moment.scale? 1 = some scaling.endScale := by
  obtain ⟨seed, hseed⟩ : ∃ seed : Seed Empty, sharedStone.seed = .ok seed := ⟨_, rfl⟩
  obtain ⟨garden, hgarden, ⟨result, hresult, hdone⟩, hnothing, hgrowing⟩ :
      ∃ garden ∈ grown? sharedStone { tickSeconds := 1 } 10 0,
        (∃ result ∈ Simulation.tick 10 garden, (moment result.2).emergences.length = 0) ∧
        (garden.moment.scale? 1 == some 0) = true ∧
        garden.moment.emergences.map (fun scaling => (scaling.node, scaling.endScale == 2)) =
          [(1, true)] := by decide +kernel
  obtain ⟨scaling, hmem, hscaling⟩ := List.mem_map.mp (hgrowing ▸ List.mem_singleton_self (1, true))
  obtain ⟨hnode, hsize⟩ := Prod.mk.inj hscaling
  obtain ⟨report, later⟩ := result
  obtain ⟨hreached, hgrows⟩ := instances_grow_in hseed { tickSeconds := 1 }
  obtain ⟨hleads, -, -⟩ := hreached garden (.of_grown? hgarden)
  have hgrowsIn := hgrows _ hleads
  have hlater : garden.moment.Leads (moment later) := leads_of_tick hresult
  have hfull := hgrowsIn.complete scaling hmem _ hlater
    (by rw [List.length_eq_zero_iff.mp hdone]; exact List.not_mem_nil)
  exact ⟨seed, hseed, garden, later, scaling, hleads, hgrowsIn, hmem, hnode, hsize, hnothing, hlater,
    hdone, hnode ▸ hfull⟩

end Garden
end PlantGrowth
