import PlantGrowth.Garden.Basic
import PlantGrowth.Proofs.Draws
import PlantGrowth.Proofs.Turns
import Mathlib.Data.List.Perm.Basic

/-!
# The course of a garden

A garden is planted and then ticked, any number of times. `Reached` says which gardens come up
between these calls and `Underway` which stages come up within them. What every such garden has in
common is proved through `Invariant`: a property of a world, the tasks that are to be done next and
the continuations that wait, which every single step keeps.

## Why the waiting continuations are a part of it

While a continuation is resumed, the ones behind it in the queue are not touched, but what is true
of them can depend on the world, which is. So an invariant speaks about all of them at once. It does
not see in which order they wait: then the order in which a tick serves them and puts them back need
not be followed through the proofs.
-/

namespace PlantGrowth

/-- Nothing in a library without parts of a host waits for what the scheduler does not know. -/
theorem Continuation.step_resume_ne_unsupported (work : Continuation Empty) (w : World Empty)
    (reason : String) : (work.resume w).step ≠ .unsupported reason := by
  have hresumes := work.resumes w
  generalize work.resume w = resumption at hresumes ⊢
  cases hresumes with
  | emerges scaling done elapsed scale =>
    cases done with
    | true => exact Step.noConfusion
    | false => exact Step.noConfusion
  | host work => exact work.elim
  | _ => exact Step.noConfusion

namespace Garden

/-! ## Planting -/

/-- The world with the root node of a plan in it, before the root's handler acts. -/
def seedbed (plan : PlantPlan) (settings : Settings) : World Empty :=
  let w : World Empty := World.ofSettings settings
  { w with nodes := (w.nodes.addNode plan.traits.root).2 }

/-- The call of the root's handler. -/
def rootTask (plan : PlantPlan) (seed : Seed Empty) : Task Empty :=
  .call (.seed seed) 0 .empty plan.traits.baked

/-- The garden with an empty queue around a world. -/
def around (settings : Settings) (w : World Empty) : Garden :=
  { world := w, scheduler := { budget := settings.maxStepsPerTick } }

/-- **Planting is the run of the root's handler**, for a plan without faults. -/
theorem build_eq {plan : PlantPlan} {seed : Seed Empty} (h : plan.seed = .ok seed) (limit : Nat)
    (settings : Settings) :
    build limit plan settings =
      .ok ((World.run limit [rootTask plan seed] (seedbed plan settings)).map
        (around settings)) := by
  simp only [build, Simulation.sow, h, Simulation.plant]
  show Except.ok (((World.run limit [rootTask plan seed] (seedbed plan settings)).bind
      fun world => some (0, around settings world)).map (·.2)) = _
  cases World.run limit [rootTask plan seed] (seedbed plan settings) with
  | none => rfl
  | some world => rfl

/-- The garden of a plan, once planting is done. -/
theorem build_eq_ok_iff {plan : PlantPlan} {seed : Seed Empty} (h : plan.seed = .ok seed)
    {settings : Settings} {garden : Garden} :
    (∃ limit, build limit plan settings = .ok (some garden)) ↔
      ∃ after, (seedbed plan settings).Ends [rootTask plan seed] after ∧
        garden = around settings after := by
  constructor
  · rintro ⟨limit, hbuild⟩
    rw [build_eq h, Except.ok.injEq, Option.map_eq_some_iff] at hbuild
    obtain ⟨after, hrun, hgarden⟩ := hbuild
    exact ⟨after, ⟨limit, hrun⟩, hgarden.symm⟩
  · rintro ⟨after, ⟨limit, hrun⟩, rfl⟩
    exact ⟨limit, by rw [build_eq h, hrun, Option.map_some]⟩

theorem seed_of_build {limit : Nat} {plan : PlantPlan} {settings : Settings} {garden : Garden}
    (h : build limit plan settings = .ok (some garden)) :
    ∃ seed : Seed Empty, plan.seed = .ok seed := by
  cases hseed : (plan.seed : Except PlanFault (Seed Empty)) with
  | ok seed => exact ⟨seed, rfl⟩
  | error fault => simp [build, Simulation.sow, hseed] at h

/-! ## Ticking -/

/-- The gardens that come up when a plan is planted and then ticked any number of times. -/
inductive Reached (plan : PlantPlan) (settings : Settings) : Garden → Prop where
  | planted {limit : Nat} {garden : Garden} (h : build limit plan settings = .ok (some garden)) :
      Reached plan settings garden
  | ticked {limit : Nat} {garden later : Garden} {report : TickSummary}
      (before : Reached plan settings garden)
      (h : Simulation.tick limit garden = some (report, later)) : Reached plan settings later

/-- Ticks a number of times. Returns what each tick did. -/
def ticks (limit : Nat) : Nat → Garden → Option (List TickSummary × Garden)
  | 0, garden => some ([], garden)
  | count + 1, garden => do
    let (report, garden) ← Simulation.tick limit garden
    let (reports, garden) ← ticks limit count garden
    pure (report :: reports, garden)

/-- The continuations that the next tick resumes, in their order. -/
def due (garden : Garden) : List (Continuation Empty) :=
  (garden.scheduler.queue ++ garden.world.parked.toList).take garden.scheduler.budget

/-- The world when the next tick begins to resume continuations. -/
def dawn (garden : Garden) : World Empty :=
  (garden.world.elapse garden.world.settings.tickSeconds).unpark.2

/-- The nested work that some resumption in the next tick begins with. -/
inductive Resumes (garden : Garden) : World Empty → List (Task Empty) → Prop where
  | intro {limit : Nat} {served rest back : List (Continuation Empty)} {work : Continuation Empty}
      {report : TickSummary} {w : World Empty} (split : garden.due = served ++ work :: rest)
      (h : Scheduler.serveAll limit served {} garden.dawn = some (report, back, w)) :
      Resumes garden (work.resume w).world (work.resume w).tasks

/-- A stage that comes up while a plan is planted or while its garden is ticked. -/
inductive Underway (plan : PlantPlan) (settings : Settings) :
    World Empty → List (Task Empty) → Prop where
  | planting {seed : Seed Empty} (h : plan.seed = .ok seed) :
      Underway plan settings (seedbed plan settings) [rootTask plan seed]
  | resuming {garden : Garden} {w : World Empty} {tasks : List (Task Empty)}
      (before : Reached plan settings garden) (h : garden.Resumes w tasks) :
      Underway plan settings w tasks
  | performing {w : World Empty} {task : Task Empty} {rest : List (Task Empty)}
      (before : Underway plan settings w (task :: rest)) :
      Underway plan settings (w.perform task).1 ((w.perform task).2 ++ rest)

theorem Underway.of_comes {plan : PlantPlan} {settings : Settings} {w later : World Empty}
    {tasks left : List (Task Empty)} (h : Underway plan settings w tasks)
    (hcomes : World.Comes w tasks later left) : Underway plan settings later left :=
  hcomes.invariant (P := Underway plan settings) (fun _ _ _ _ => Underway.performing) h

end Garden

namespace Scheduler

variable {limit more : Nat} {work : Continuation Empty} {works rest : List (Continuation Empty)}
  {back : List (Continuation Empty)} {report after : TickSummary} {w later : World Empty}

/-- What serving a continuation comes to: its resumption with all nested work done. -/
theorem serve_eq_some {step : Step} (h : serve limit work w = some (step, back, later)) :
    ∃ done, (work.resume w).world.Ends (work.resume w).tasks done ∧
      later = done.unpark.2 ∧ step = (work.resume w).step ∧
      back = match (work.resume w).step with
        | .pending => done.unpark.1 ++ [(work.resume w).continuation]
        | _ => done.unpark.1 := by
  simp only [serve, Option.bind_eq_bind, Option.pure_def, Option.bind_eq_some_iff] at h
  obtain ⟨_, hresume, h⟩ := h
  obtain ⟨-, done, hrun, rfl⟩ := World.resume_eq_some_iff.mp hresume
  refine ⟨done, ⟨limit, hrun⟩, ?_⟩
  cases hstep : (work.resume w).step with
  | pending => simp_all
  | complete => simp_all
  | unsupported reason => exact absurd hstep (work.step_resume_ne_unsupported w reason)

/-- No draw is refused while a continuation is served. -/
theorem refused_of_serve {step : Step} (h : serve limit work w = some (step, back, later)) :
    later.random.refused = w.random.refused := by
  obtain ⟨done, hdone, rfl, -⟩ := serve_eq_some h
  have hresumed := congrArg Random.refused (work.random_resume w)
  exact (World.ends_iff_comes.mp hdone).refused_eq.trans hresumed

theorem refused_of_serveAll (h : serveAll limit works report w = some (after, back, later)) :
    later.random.refused = w.random.refused := by
  induction works generalizing report w back with
  | nil =>
    cases h
    rfl
  | cons work works ih =>
    rw [serveAll_cons, Option.bind_eq_some_iff] at h
    obtain ⟨⟨step, first, mid⟩, hserve, h⟩ := h
    rw [Option.bind_eq_some_iff] at h
    obtain ⟨⟨report', second, last⟩, hrest, h⟩ := h
    cases h
    exact (ih hrest).trans (refused_of_serve hserve)

/-- A continuation is served as soon as its nested work gets done. -/
theorem exists_serve {done : World Empty}
    (h : (work.resume w).world.Ends (work.resume w).tasks done) :
    ∃ limit step back later, serve limit work w = some (step, back, later) := by
  obtain ⟨limit, hrun⟩ := h
  refine ⟨limit, ?_⟩
  have hresume := World.resume_eq_some_iff.mpr
    ⟨World.drewAll_of_random (work.random_resume w), done, hrun, rfl⟩
  simp only [serve, hresume, Option.bind_eq_bind, Option.pure_def, Option.bind_some]
  cases (work.resume w).step with
  | pending => exact ⟨_, _, _, rfl⟩
  | complete => exact ⟨_, _, _, rfl⟩
  | unsupported reason => exact ⟨_, _, _, rfl⟩

/-- A list is served if each continuation's nested work gets done when its turn comes. -/
theorem exists_serveAll (works : List (Continuation Empty)) (report : TickSummary)
    (w : World Empty)
    (h : ∀ limit served work rest report' back later, works = served ++ work :: rest →
      serveAll limit served report w = some (report', back, later) →
      ∃ done, (work.resume later).world.Ends (work.resume later).tasks done) :
    ∃ limit result, serveAll limit works report w = some result := by
  induction works generalizing report w with
  | nil => exact ⟨0, (report, [], w), rfl⟩
  | cons work works ih =>
    obtain ⟨done, hdone⟩ := h 0 [] work works report [] w rfl rfl
    obtain ⟨m, step, back, later, hserve⟩ := exists_serve hdone
    have hrest : ∃ limit result, serveAll limit works (report.count step) later = some result := by
      refine ih _ _ fun n served next rest report' back' last hsplit hserved => ?_
      refine h (max m n) (work :: served) next rest report' (back ++ back') last
        (by rw [hsplit, List.cons_append]) ?_
      rw [serveAll_cons, serve_mono hserve (Nat.le_max_left m n), Option.bind_some,
        serveAll_mono hserved (Nat.le_max_right m n), Option.bind_some]
    obtain ⟨n, result, hresult⟩ := hrest
    refine ⟨max m n, (result.1, back ++ result.2.1, result.2.2), ?_⟩
    rw [serveAll_cons, serve_mono hserve (Nat.le_max_left m n), Option.bind_some,
      serveAll_mono hresult (Nat.le_max_right m n), Option.bind_some]

/-- In a list that is served, each continuation's nested work gets done when its turn comes. -/
theorem ends_of_serveAll {served : List (Continuation Empty)}
    {result : TickSummary × List (Continuation Empty) × World Empty}
    (h : serveAll limit (served ++ work :: rest) report w = some result)
    (hserved : serveAll more served report w = some (after, back, later)) :
    ∃ done, (work.resume later).world.Ends (work.resume later).tasks done := by
  have hmax := serveAll_mono h (Nat.le_max_left limit more)
  rw [serveAll_append, serveAll_mono hserved (Nat.le_max_right limit more), Option.bind_some,
    serveAll_cons, Option.bind_assoc, Option.bind_eq_some_iff] at hmax
  obtain ⟨⟨step, back', last⟩, hserve, -⟩ := hmax
  obtain ⟨done, hdone, -⟩ := serve_eq_some hserve
  exact ⟨done, hdone⟩

end Scheduler

namespace Garden

/-- **A tick serves what is due** and puts the rest of the queue in front of what comes back. -/
theorem tick_eq (limit : Nat) (garden : Garden) :
    Simulation.tick limit garden =
      (Scheduler.serveAll limit garden.due {} garden.dawn).map fun served =>
        let queue := (garden.scheduler.queue ++ garden.world.parked.toList).drop
          garden.scheduler.budget ++ served.2.1
        ({ served.1 with queued := queue.length },
          { world := served.2.2, scheduler := { garden.scheduler with queue } }) := by
  show (Scheduler.turn limit garden.scheduler _ garden.scheduler.budget).bind _ = _
  simp only [Scheduler.turn, Option.bind_eq_bind, Option.pure_def]
  show ((Scheduler.serveAll limit garden.due {} garden.dawn).bind _).bind _ = _
  cases Scheduler.serveAll limit garden.due {} garden.dawn with
  | none => rfl
  | some served => rfl

/-- **A tick returns exactly if the nested work of every resumption in it gets done.** -/
theorem tick_returns_iff (garden : Garden) :
    (∃ limit result, Simulation.tick limit garden = some result) ↔
      ∀ w tasks, garden.Resumes w tasks → ∃ after, w.Ends tasks after := by
  constructor
  · rintro ⟨limit, result, htick⟩ w tasks ⟨hsplit, hserved⟩
    rw [tick_eq, Option.map_eq_some_iff] at htick
    obtain ⟨served, hall, -⟩ := htick
    rw [hsplit] at hall
    exact Scheduler.ends_of_serveAll hall hserved
  · intro h
    obtain ⟨limit, result, hall⟩ := Scheduler.exists_serveAll garden.due {} garden.dawn
      fun limit served work rest report back later hsplit hserved =>
        h _ _ (Resumes.intro hsplit hserved)
    exact ⟨limit, _, by rw [tick_eq, hall, Option.map_some]⟩

theorem tick_mono {limit more : Nat} {garden : Garden} {result : TickSummary × Garden}
    (h : Simulation.tick limit garden = some result) (hle : limit ≤ more) :
    Simulation.tick more garden = some result := by
  rw [tick_eq, Option.map_eq_some_iff] at h ⊢
  obtain ⟨served, hserved, hresult⟩ := h
  exact ⟨served, Scheduler.serveAll_mono hserved hle, hresult⟩

theorem ticks_succ (limit count : Nat) (garden : Garden) :
    ticks limit (count + 1) garden = (Simulation.tick limit garden).bind fun first =>
      (ticks limit count first.2).map fun later => (first.1 :: later.1, later.2) := by
  simp only [ticks, Option.bind_eq_bind, Option.pure_def, Option.map_eq_bind, Function.comp_def]

theorem ticks_mono {limit more count : Nat} {garden : Garden} {result : List TickSummary × Garden}
    (h : ticks limit count garden = some result) (hle : limit ≤ more) :
    ticks more count garden = some result := by
  induction count generalizing garden result with
  | zero => exact h
  | succ count ih =>
    rw [ticks_succ, Option.bind_eq_some_iff] at h ⊢
    obtain ⟨first, htick, h⟩ := h
    rw [Option.map_eq_some_iff] at h
    obtain ⟨later, hlater, rfl⟩ := h
    exact ⟨first, tick_mono htick hle, by rw [ih hlater, Option.map_some]⟩

/-- A garden comes up after any number of ticks. -/
theorem Reached.of_ticks {plan : PlantPlan} {settings : Settings} {limit count : Nat}
    {garden later : Garden} {reports : List TickSummary} (h : Reached plan settings garden)
    (hticks : ticks limit count garden = some (reports, later)) : Reached plan settings later := by
  induction count generalizing garden reports with
  | zero =>
    cases hticks
    exact h
  | succ count ih =>
    rw [ticks_succ, Option.bind_eq_some_iff] at hticks
    obtain ⟨first, htick, hticks⟩ := hticks
    rw [Option.map_eq_some_iff] at hticks
    obtain ⟨others, hlater, heq⟩ := hticks
    cases heq
    exact ih (h.ticked htick) hlater

/-- The garden that a plan comes to in so many ticks, if none of the calls takes more steps than the
limit. -/
def grown? (plan : PlantPlan) (settings : Settings) (limit count : Nat) : Option Garden :=
  match build limit plan settings with
  | .ok (some garden) => (ticks limit count garden).map (·.2)
  | _ => none

/-- What is computed comes up. -/
theorem Reached.of_grown? {plan : PlantPlan} {settings : Settings} {limit count : Nat} {garden : Garden}
    (h : garden ∈ grown? plan settings limit count) : Reached plan settings garden := by
  unfold grown? at h
  split at h
  next planted hbuild =>
    obtain ⟨result, hticks, rfl⟩ := Option.map_eq_some_iff.mp h
    exact (Reached.planted hbuild).of_ticks hticks
  next => cases h

/-- **Any number of ticks returns** from a garden with a property under which a tick returns and which
it keeps. -/
theorem exists_ticks {P : Garden → Prop}
    (returns : ∀ garden, P garden → ∃ limit result, Simulation.tick limit garden = some result)
    (keeps : ∀ limit garden report later, P garden →
      Simulation.tick limit garden = some (report, later) → P later)
    (count : Nat) {garden : Garden} (h : P garden) :
    ∃ limit result, ticks limit count garden = some result := by
  induction count generalizing garden with
  | zero => exact ⟨0, ([], garden), rfl⟩
  | succ count ih =>
    obtain ⟨first, ⟨report, next⟩, htick⟩ := returns garden h
    obtain ⟨rest, later, hlater⟩ := ih (keeps first garden report next h htick)
    refine ⟨max first rest, (report :: later.1, later.2), ?_⟩
    rw [ticks_succ, tick_mono htick (Nat.le_max_left first rest), Option.bind_some,
      ticks_mono hlater (Nat.le_max_right first rest), Option.map_some]

/-- **No draw was refused in any garden that comes up.** -/
theorem refused_of_reached {plan : PlantPlan} {settings : Settings} {garden : Garden}
    (h : Reached plan settings garden) : garden.world.random.refused = 0 := by
  induction h with
  | planted hbuild =>
    obtain ⟨seed, hseed⟩ := seed_of_build hbuild
    obtain ⟨after, hends, rfl⟩ := (build_eq_ok_iff hseed).mp ⟨_, hbuild⟩
    exact (World.ends_iff_comes.mp hends).refused_eq
  | ticked _ htick ih =>
    rw [tick_eq, Option.map_eq_some_iff] at htick
    obtain ⟨served, hserved, hlater⟩ := htick
    cases hlater
    exact (Scheduler.refused_of_serveAll hserved).trans ih

/-! ## Invariants -/

/-- A property of a world, its tasks and the waiting continuations that every step of growth keeps.
Parked continuations belong to the world until a tick takes them over. -/
structure Invariant (I : World Empty → List (Task Empty) → List (Continuation Empty) → Prop) :
    Prop where
  /-- Doing a task. -/
  perform : ∀ {w task rest waiting}, I w (task :: rest) waiting →
    I (w.perform task).1 ((w.perform task).2 ++ rest) waiting
  /-- Resuming a continuation, which goes on waiting if it is not done. -/
  resume : ∀ {w work waiting}, I w [] (work :: waiting) →
    I (work.resume w).world (work.resume w).tasks
      (if (work.resume w).step = .pending then (work.resume w).continuation :: waiting else waiting)
  /-- Waiting in another order. -/
  reorder : ∀ {w tasks waiting other}, waiting.Perm other → I w tasks waiting → I w tasks other
  /-- Taking over what is parked. -/
  unpark : ∀ {w waiting}, I w [] waiting → I w.unpark.2 [] (waiting ++ w.unpark.1)
  /-- Letting time pass. -/
  elapse : ∀ {w waiting} (seconds : Float), I w [] waiting → I (w.elapse seconds) [] waiting

namespace Invariant

variable {I : World Empty → List (Task Empty) → List (Continuation Empty) → Prop}

theorem of_comes (hI : Invariant I) {w later : World Empty} {tasks left : List (Task Empty)}
    {waiting : List (Continuation Empty)} (h : World.Comes w tasks later left)
    (start : I w tasks waiting) : I later left waiting :=
  h.invariant (P := fun w tasks => I w tasks waiting) (fun _ _ _ _ => hI.perform) start

theorem of_serve (hI : Invariant I) {limit : Nat} {work : Continuation Empty}
    {w later : World Empty} {step : Step} {back waiting : List (Continuation Empty)}
    (h : Scheduler.serve limit work w = some (step, back, later)) (start : I w [] (work :: waiting)) :
    I later [] (waiting ++ back) := by
  obtain ⟨done, hends, rfl, -, hback⟩ := Scheduler.serve_eq_some h
  have hdone := hI.unpark (hI.of_comes (World.ends_iff_comes.mp hends) (hI.resume start))
  refine hI.reorder ?_ hdone
  cases hstep : (work.resume w).step with
  | pending =>
    rw [hback, hstep, if_pos rfl, List.cons_append, ← List.append_assoc]
    exact (List.perm_append_singleton _ _).symm
  | complete =>
    rw [hback, hstep, if_neg (by simp)]
  | unsupported reason => exact absurd hstep (work.step_resume_ne_unsupported w reason)

theorem of_serveAll (hI : Invariant I) {limit : Nat} {works waiting back : List (Continuation Empty)}
    {report after : TickSummary} {w later : World Empty}
    (h : Scheduler.serveAll limit works report w = some (after, back, later))
    (start : I w [] (works ++ waiting)) : I later [] (waiting ++ back) := by
  induction works generalizing report w waiting back with
  | nil =>
    simp only [Scheduler.serveAll, Option.some.injEq, Prod.mk.injEq] at h
    obtain ⟨-, rfl, rfl⟩ := h
    rwa [List.append_nil]
  | cons work works ih =>
    rw [Scheduler.serveAll_cons, Option.bind_eq_some_iff] at h
    obtain ⟨⟨step, first, mid⟩, hserve, h⟩ := h
    rw [Option.bind_eq_some_iff] at h
    obtain ⟨⟨report', second, last⟩, hrest, h⟩ := h
    simp only [Option.some.injEq, Prod.mk.injEq] at h
    obtain ⟨rfl, rfl, rfl⟩ := h
    rw [List.cons_append] at start
    have hmid := hI.of_serve hserve start
    rw [List.append_assoc] at hmid
    have hlast := ih hrest hmid
    rwa [List.append_assoc] at hlast

/-- What a tick resumes and what it leaves is all that waits. -/
theorem dawn (hI : Invariant I) {garden : Garden}
    (start : I garden.world [] garden.scheduler.queue) :
    I garden.dawn [] (garden.due ++
      (garden.scheduler.queue ++ garden.world.parked.toList).drop garden.scheduler.budget) := by
  have h := hI.unpark (hI.elapse garden.world.settings.tickSeconds start)
  rw [due, List.take_append_drop]
  exact h

/-- An invariant that holds of a garden holds after a tick. -/
theorem of_tick (hI : Invariant I) {limit : Nat} {garden later : Garden} {report : TickSummary}
    (h : Simulation.tick limit garden = some (report, later))
    (start : I garden.world [] garden.scheduler.queue) : I later.world [] later.scheduler.queue := by
  rw [tick_eq, Option.map_eq_some_iff] at h
  obtain ⟨served, hserved, hlater⟩ := h
  simp only [Prod.mk.injEq] at hlater
  obtain ⟨-, rfl⟩ := hlater
  exact hI.of_serveAll hserved (hI.dawn start)

theorem of_ticks (hI : Invariant I) {limit count : Nat} {garden later : Garden}
    {reports : List TickSummary} (h : ticks limit count garden = some (reports, later))
    (start : I garden.world [] garden.scheduler.queue) : I later.world [] later.scheduler.queue := by
  induction count generalizing garden reports with
  | zero =>
    cases h
    exact start
  | succ count ih =>
    rw [ticks_succ, Option.bind_eq_some_iff] at h
    obtain ⟨⟨report, next⟩, htick, h⟩ := h
    rw [Option.map_eq_some_iff] at h
    obtain ⟨⟨others, last⟩, hlater, heq⟩ := h
    cases heq
    exact ih hlater (hI.of_tick htick start)

variable {plan : PlantPlan} {settings : Settings}

/-- **An invariant that holds when a plan is planted holds of every garden it grows into.** -/
theorem of_reached (hI : Invariant I)
    (start : ∀ seed, plan.seed = .ok seed →
      I (seedbed plan settings) [rootTask plan seed] [])
    {garden : Garden} (h : Reached plan settings garden) :
    I garden.world [] garden.scheduler.queue := by
  induction h with
  | planted hbuild =>
    obtain ⟨seed, hseed⟩ := seed_of_build hbuild
    obtain ⟨after, hends, rfl⟩ := (build_eq_ok_iff hseed).mp ⟨_, hbuild⟩
    exact hI.of_comes (World.ends_iff_comes.mp hends) (start seed hseed)
  | ticked _ htick ih => exact hI.of_tick htick ih

/-- An invariant holds when a tick resumes a continuation, of what waits then. -/
theorem of_resumes (hI : Invariant I) {garden : Garden} {w : World Empty}
    {tasks : List (Task Empty)} (start : I garden.world [] garden.scheduler.queue)
    (h : garden.Resumes w tasks) : ∃ waiting, I w tasks waiting := by
  obtain ⟨hsplit, hserved⟩ := h
  have hdawn := hI.dawn start
  rw [hsplit, List.append_assoc] at hdawn
  have hlater := hI.of_serveAll hserved hdawn
  rw [List.cons_append, List.cons_append] at hlater
  exact ⟨_, hI.resume hlater⟩

/-- **An invariant that holds when a plan is planted holds at every stage of its growth.** -/
theorem of_underway (hI : Invariant I)
    (start : ∀ seed, plan.seed = .ok seed →
      I (seedbed plan settings) [rootTask plan seed] [])
    {w : World Empty} {tasks : List (Task Empty)} (h : Underway plan settings w tasks) :
    ∃ waiting, I w tasks waiting := by
  induction h with
  | planting hseed => exact ⟨[], start _ hseed⟩
  | resuming hreached hresumes => exact hI.of_resumes (hI.of_reached start hreached) hresumes
  | performing _ ih =>
    obtain ⟨waiting, hw⟩ := ih
    exact ⟨waiting, hI.perform hw⟩

end Invariant
end Garden
end PlantGrowth
