import PlantGrowth.Growth.Machine

/-!
# Runs of nested work

`World.run` is given a number of steps and has no result if they do not suffice. What is proved
about growth does not depend on that number: a property of a run is a property of the stages that it
comes to, and a run has a result exactly when it comes to a stage without tasks.

## Stages

A stage is a world with the tasks that are still to be done, the next one first. `Comes` joins a
stage to every stage that follows from it, the steps being those of `World.perform`, up to a task in
which the program halts. Stages that no run leaves are covered as well, so a property of all stages
holds in the middle of a run that never ends.

## Settling

`Settles` is what an argument for termination proves of a list of tasks: in every world, the tasks
are all done at some point, or the run gets stuck, in a task of a kind that is excluded or in one in
which the program halts. It is closed under concatenation, because what a list of tasks does before
another one does not depend on the other one.
-/

namespace PlantGrowth
namespace World

variable {H : Type} [Host H]

/-! ## Stages of a run -/

/-- The stage after zero or more tasks have been done. -/
inductive Comes : World H → List (Task H) → World H → List (Task H) → Prop where
  | refl (w : World H) (tasks : List (Task H)) : Comes w tasks w tasks
  | head {w later : World H} {task : Task H} {rest left : List (Task H)}
      (goes : w.halts task = false) : Comes (w.perform task).1 ((w.perform task).2 ++ rest) later
        left → Comes w (task :: rest) later left

/-- All tasks get done, and this is the world then. -/
def Ends (w : World H) (tasks : List (Task H)) (after : World H) : Prop :=
  ∃ limit, run limit tasks w = some after

variable {w mid later after : World H} {tasks rest left : List (Task H)} {task : Task H}

theorem Comes.trans (h : Comes w tasks mid rest) (h' : Comes mid rest later left) :
    Comes w tasks later left := by
  induction h with
  | refl => exact h'
  | head goes _ ih => exact Comes.head goes (ih h')

theorem Comes.step {tasks : List (Task H)} (h : w.perform task = (later, tasks))
    (goes : w.halts task = false) : Comes w (task :: rest) later (tasks ++ rest) := by
  refine Comes.head goes ?_
  rw [h]
  exact Comes.refl _ _

/-- Tasks behind others wait until those are done. -/
theorem Comes.append (h : Comes w tasks later left) (rest : List (Task H)) :
    Comes w (tasks ++ rest) later (left ++ rest) := by
  induction h with
  | refl => exact Comes.refl _ _
  | head goes _ ih =>
    rw [List.cons_append]
    refine Comes.head goes ?_
    rw [← List.append_assoc]
    exact ih

/-- **An invariant is carried along a run.** -/
theorem Comes.invariant {P : World H → List (Task H) → Prop}
    (step : ∀ w task rest, w.halts task = false → P w (task :: rest) →
      P (w.perform task).1 ((w.perform task).2 ++ rest))
    (h : Comes w tasks later left) (start : P w tasks) : P later left := by
  induction h with
  | refl => exact start
  | head goes _ ih => exact ih (step _ _ _ goes start)

/-! ## Ends of a run -/

theorem ends_nil (w : World H) : Ends w [] w :=
  ⟨0, run_nil 0 w⟩

theorem Comes.ends_of_ends (h : Comes w tasks mid rest) (hend : Ends mid rest after) :
    Ends w tasks after := by
  induction h with
  | refl => exact hend
  | head goes _ ih =>
    obtain ⟨limit, hlimit⟩ := ih hend
    exact ⟨limit + 1, (run_cons goes limit _).trans hlimit⟩

theorem comes_of_run {limit : Nat} (h : run limit tasks w = some after) :
    Comes w tasks after [] := by
  induction limit generalizing w tasks with
  | zero =>
    cases tasks with
    | nil =>
      obtain rfl : w = after := by simpa using h
      exact Comes.refl _ _
    | cons task rest => simp [run] at h
  | succ limit ih =>
    cases tasks with
    | nil =>
      obtain rfl : w = after := by simpa using h
      exact Comes.refl _ _
    | cons task rest =>
      have goes := halts_eq_false_of_run h
      rw [run_cons goes] at h
      exact Comes.head goes (ih h)

/-- **A run ends in a world exactly if it comes to the stage where nothing is left there.** -/
theorem ends_iff_comes : Ends w tasks after ↔ Comes w tasks after [] := by
  constructor
  · rintro ⟨limit, h⟩
    exact comes_of_run h
  · intro h
    exact h.ends_of_ends (ends_nil after)

/-- A run that ends does so from each of its stages. -/
theorem Ends.of_comes (hend : Ends w tasks after) (h : Comes w tasks mid rest) :
    Ends mid rest after := by
  induction h with
  | refl => exact hend
  | @head w later task rest left goes _ ih =>
    obtain ⟨limit, hlimit⟩ := hend
    cases limit with
    | zero => simp [run] at hlimit
    | succ limit => exact ih ⟨limit, (run_cons goes limit _).symm.trans hlimit⟩

/-- A run that ends does its first task. -/
theorem Ends.halts_eq_false (hend : Ends w (task :: rest) after) : w.halts task = false := by
  obtain ⟨limit, hlimit⟩ := hend
  exact halts_eq_false_of_run hlimit

/-- **No draw is refused in a run that ends.** -/
theorem Comes.refused_eq (h : Comes w tasks later left) :
    later.random.refused = w.random.refused := by
  induction h with
  | refl => rfl
  | head goes _ ih =>
    rw [halts, Bool.or_eq_false_iff, Bool.not_eq_eq_eq_not, Bool.not_false] at goes
    exact ih.trans (beq_iff_eq.mp goes.2)

/-- The tasks in front are done before the others are begun. -/
theorem Ends.exists_between (h : Ends w (tasks ++ rest) after) :
    ∃ mid, Ends w tasks mid ∧ Ends mid rest after := by
  obtain ⟨limit, hlimit⟩ := h
  induction limit generalizing w tasks with
  | zero =>
    cases tasks with
    | nil => exact ⟨w, ends_nil w, 0, hlimit⟩
    | cons task others => simp [run] at hlimit
  | succ limit ih =>
    cases tasks with
    | nil => exact ⟨w, ends_nil w, limit + 1, hlimit⟩
    | cons task others =>
      have goes := halts_eq_false_of_run hlimit
      rw [List.cons_append, run_cons goes, ← List.append_assoc] at hlimit
      obtain ⟨mid, hmid, hend⟩ := ih hlimit
      exact ⟨mid, (Comes.head goes (Comes.refl _ _)).ends_of_ends hmid, hend⟩

/-- A run has at most one end. -/
theorem Ends.unique {other : World H} (h : Ends w tasks after) (h' : Ends w tasks other) :
    after = other := by
  obtain ⟨m, hm⟩ := h
  obtain ⟨n, hn⟩ := h'
  have hm' := run_mono hm (Nat.le_max_left m n)
  have hn' := run_mono hn (Nat.le_max_right m n)
  exact Option.some.inj (hm'.symm.trans hn')

/-! ## Resumptions -/

/-- **A continuation is resumed with all nested work done**, unless that has no end or a number cannot
be drawn. -/
theorem resume_eq_some_iff {limit : Nat} {work : Continuation H}
    {result : Step × Continuation H × World H} :
    w.resume limit work = some result ↔ w.drewAll (work.resume w).world = true ∧
      ∃ done, run limit (work.resume w).tasks (work.resume w).world = some done ∧
        result = ((work.resume w).step, (work.resume w).continuation, done) := by
  simp only [resume, Option.bind_eq_bind, Option.pure_def]
  cases w.drewAll (work.resume w).world with
  | false => simp
  | true =>
    rw [if_pos rfl, Option.bind_eq_some_iff]
    simp only [true_and, Option.some.injEq, eq_comm]

theorem resume_mono {limit more : Nat} {work : Continuation H}
    {result : Step × Continuation H × World H} (h : w.resume limit work = some result)
    (hle : limit ≤ more) : w.resume more work = some result := by
  obtain ⟨hdrew, done, hrun, hresult⟩ := resume_eq_some_iff.mp h
  exact resume_eq_some_iff.mpr ⟨hdrew, done, run_mono hrun hle, hresult⟩

/-! ## Settling -/

/-- The run comes to a task of the given kind. -/
def Meets (kind : World H → Task H → Prop) (w : World H) (tasks : List (Task H)) : Prop :=
  ∃ later task rest, Comes w tasks later (task :: rest) ∧ kind later task

/-- A task that is never done: one of the given kind, or one in which the program halts. -/
inductive Stuck (kind : World H → Task H → Prop) (w : World H) (task : Task H) : Prop where
  | halts (h : w.halts task = true)
  | kind (h : kind w task)

/-- The tasks get done, or the run gets stuck in a task of the given kind or halts. -/
def SettlesIn (kind : World H → Task H → Prop) (w : World H) (tasks : List (Task H)) : Prop :=
  (∃ after, Ends w tasks after) ∨ Meets (Stuck kind) w tasks

/-- The tasks settle in every world. -/
def Settles (kind : World H → Task H → Prop) (tasks : List (Task H)) : Prop :=
  ∀ w, SettlesIn kind w tasks

variable {kind : World H → Task H → Prop}

theorem Meets.of_comes (h : Comes w tasks mid rest) (hm : Meets kind mid rest) :
    Meets kind w tasks := by
  obtain ⟨later, task, left, hc, hk⟩ := hm
  exact ⟨later, task, left, h.trans hc, hk⟩

theorem Meets.append (h : Meets kind w tasks) (rest : List (Task H)) :
    Meets kind w (tasks ++ rest) := by
  obtain ⟨later, task, left, hc, hk⟩ := h
  exact ⟨later, task, left ++ rest, hc.append rest, hk⟩

theorem settlesIn_nil (w : World H) : SettlesIn kind w [] :=
  Or.inl ⟨w, ends_nil w⟩

theorem settles_nil : Settles kind ([] : List (Task H)) := settlesIn_nil

/-- Tasks settle in front of others that settle in every world. -/
theorem SettlesIn.append (h : SettlesIn kind w tasks) (h' : Settles kind rest) :
    SettlesIn kind w (tasks ++ rest) := by
  rcases h with ⟨mid, hmid⟩ | hm
  · have hcomes : Comes w (tasks ++ rest) mid rest :=
      (ends_iff_comes.mp hmid).append rest
    rcases h' mid with ⟨after, hafter⟩ | hm
    · exact Or.inl ⟨after, hcomes.ends_of_ends hafter⟩
    · exact Or.inr (hm.of_comes hcomes)
  · exact Or.inr (hm.append rest)

theorem Settles.append (h : Settles kind tasks) (h' : Settles kind rest) :
    Settles kind (tasks ++ rest) := fun w => (h w).append h'

/-- A task settles if what it puts in its place does. -/
theorem settlesIn_cons (h : SettlesIn kind (w.perform task).1 (w.perform task).2)
    (h' : Settles kind rest) : SettlesIn kind w (task :: rest) := by
  cases goes : w.halts task with
  | true => exact Or.inr ⟨w, task, rest, Comes.refl _ _, Stuck.halts goes⟩
  | false =>
    have hstep : Comes w (task :: rest) (w.perform task).1 ((w.perform task).2 ++ rest) :=
      Comes.head goes (Comes.refl _ _)
    rcases h.append h' with ⟨after, hafter⟩ | hm
    · exact Or.inl ⟨after, hstep.ends_of_ends hafter⟩
    · exact Or.inr (hm.of_comes hstep)

theorem settles_single
    (h : ∀ w : World H, SettlesIn kind (w.perform task).1 (w.perform task).2) :
    Settles kind [task] := fun w => settlesIn_cons (h w) settles_nil

/-- A task that puts nothing in its place is done in one step. -/
theorem settles_of_done (h : ∀ w : World H, (w.perform task).2 = []) : Settles kind [task] := by
  refine settles_single fun w => ?_
  rw [h w]
  exact settlesIn_nil _

theorem settles_cons (h : Settles kind [task]) (h' : Settles kind rest) :
    Settles kind (task :: rest) := h.append h'

/-- **Where tasks settle, they get done exactly if the run never gets stuck**, provided that a task of
the excluded kind is never done. -/
theorem SettlesIn.ends_iff (h : SettlesIn kind w tasks)
    (hkind : ∀ w task rest after, kind w task → ¬ Ends w (task :: rest) after) :
    (∃ after, Ends w tasks after) ↔ ¬ Meets (Stuck kind) w tasks := by
  constructor
  · rintro ⟨after, hafter⟩ ⟨later, task, rest, hc, hstuck⟩
    have hend := hafter.of_comes hc
    cases hstuck with
    | halts hhalts => exact absurd hend.halts_eq_false (by rw [hhalts]; exact Bool.noConfusion)
    | kind hk => exact hkind later task rest after hk hend
  · exact h.resolve_right

end World
end PlantGrowth
