import PlantGrowth.Proofs.Bracketed
import PlantGrowth.Proofs.Census

/-!
# What a tick costs

The budget of a tick bounds the continuations that it resumes. In a garden that grows *gradually*,
where no plant is baked and no branch names a symbol for its tip, it bounds the handlers that are
dispatched as well: no more are dispatched than continuations are resumed, and one node is made for
each (`Garden.budget_bounds_growth`).

The reason is that a chain parks after each handler. A resumption lets at most one chain go on, and
that is worth one *credit*. Looking for the next handler spends the credit on a dispatch, or ends
without one; nothing that a handler sets off in such a garden is worth another credit.
-/

namespace PlantGrowth

/-! ## Gradual plans -/

/-- No plant is baked and no branch names a symbol for its tip, in the plan and in the plans within
it. -/
inductive PlantPlan.Gradual : PlantPlan → Prop where
  | intro {plan : PlantPlan} (live : plan.traits.baked = false)
      (untipped : ∀ symbol, plan.tipOf? symbol = none)
      (within : ∀ symbol inner, plan.handlers.find? symbol = some (.seed inner) → Gradual inner) :
      Gradual plan

namespace PlantPlan.Gradual

variable {plan : PlantPlan} {seed : Seed Empty} {symbol : Char} {prototype : Prototype Empty}

theorem live (h : plan.Gradual) : plan.traits.baked = false := by
  cases h with
  | intro hlive _ _ => exact hlive

theorem within {inner : PlantPlan} (h : plan.Gradual)
    (hfind : plan.handlers.find? symbol = some (.seed inner)) : inner.Gradual := by
  cases h with
  | intro _ _ hwithin => exact hwithin symbol inner hfind

/-- Nothing starts a chain baking. -/
theorem not_baked (h : plan.Gradual) (hok : plan.seed = .ok seed)
    (hfind : seed.registry.find? symbol = some prototype) : prototype.baked = false := by
  obtain ⟨handler, hbound, hmade⟩ := PlantPlan.exists_of_find? hok hfind
  cases handler with
  | seed plant =>
    obtain ⟨inner, -, rfl⟩ := HandlerPlan.eq_of_prototype_seed hmade
    exact (h.within hbound).live
  | _ => exact (HandlerPlan.yields_of_prototype hmade fun inner => HandlerPlan.noConfusion).baked

theorem tipSymbol_eq_none (h : plan.Gradual) (hok : plan.seed = .ok seed)
    (hfind : seed.registry.find? symbol = some prototype) {shape : BranchShape}
    (hhandler : prototype.handler = .branch shape) : shape.tipSymbol = none := by
  rw [← PlantPlan.tipOf?_of_find? hok hfind hhandler]
  cases h with
  | intro _ huntipped _ => exact huntipped symbol

theorem tipsEnd (h : plan.Gradual) : plan.TipsEnd := by
  induction h with
  | intro _ huntipped _ ih => exact .of_untipped huntipped ih

end PlantPlan.Gradual

/-- The plants in a garden are those of gradual plans. -/
def Law.gradual : Law := Law.upright (PlantPlan.Yields PlantPlan.Gradual)

theorem Law.sound_gradual : Law.gradual.Sound :=
  Law.sound_upright fun hgrows => hgrows.within PlantPlan.Gradual.within

/-! ## Credits -/

/-- No node of the arena is baked. -/
def Arena.Unbaked (a : Arena) : Prop := ∀ mark ∈ a.marks, mark.baked = false

/-- What a task may come to, in dispatches. -/
def Task.credit : Task Empty → Nat
  | .advance .. => 1
  | .search .. => 1
  | _ => 0

/-- The task belongs to a plant that is not baked. -/
def Task.Live : Task Empty → Prop
  | .advance _ _ baked => baked = false
  | .search _ _ baked => baked = false
  | .call _ _ _ baked => baked = false
  | .ripen _ => False
  | .publish _ => False
  | _ => True

/-- What tasks may come to together. -/
def Task.credits (tasks : List (Task Empty)) : Nat := (tasks.map Task.credit).sum

/-- So many handlers were dispatched, and a node that is not baked was made for each of them. -/
structure World.Gains (w : World Empty) (made : Nat) (later : World Empty) : Prop
    extends World.Counts w made 0 later where
  unbaked : w.nodes.Unbaked → later.nodes.Unbaked

/-- What was dispatched and what the tasks may still come to is within the credit. -/
def World.Affords (w : World Empty) (credit : Nat) (next : World Empty × List (Task Empty)) : Prop :=
  ∃ made, w.Gains made next.1 ∧ made + Task.credits next.2 ≤ credit ∧ ∀ task ∈ next.2, task.Live

/-- A task that is live and worth nothing. -/
def Task.Free (task : Task Empty) : Prop := task.credit = 0 ∧ task.Live

section

variable {w mid later : World Empty} {made more credit : Nat} {tasks rest : List (Task Empty)}
  {task : Task Empty} {node : NodeId} {bundle : Bundle Empty}

theorem Task.credits_cons (task : Task Empty) (rest : List (Task Empty)) :
    Task.credits (task :: rest) = task.credit + Task.credits rest := by
  rw [credits, List.map_cons, List.sum_cons]
  rfl

theorem Task.credits_append (tasks rest : List (Task Empty)) :
    Task.credits (tasks ++ rest) = Task.credits tasks + Task.credits rest := by
  rw [credits, List.map_append, List.sum_append]
  rfl

theorem Task.credits_eq_zero (h : ∀ task ∈ tasks, task.Free) : Task.credits tasks = 0 := by
  induction tasks with
  | nil => rfl
  | cons task rest ih =>
    rw [credits_cons, (h task List.mem_cons_self).1,
      ih fun other hother => h other (List.mem_cons_of_mem task hother)]

namespace World.Gains

theorem refl (w : World Empty) : w.Gains 0 w := ⟨.refl w, id⟩

theorem trans (h : w.Gains made mid) (h' : mid.Gains more later) : w.Gains (made + more) later :=
  ⟨h.toCounts.trans h'.toCounts, h'.unbaked ∘ h.unbaked⟩

theorem of_quiet (h : w.Quiet later) : w.Gains 0 later := by
  refine ⟨.of_quiet h, fun hunbaked mark hmark => ?_⟩
  rw [h.marks] at hmark
  exact hunbaked mark hmark

theorem destroy (w : World Empty) (node : NodeId) : w.Gains 0 (w.destroy node) := by
  refine ⟨.destroy w node, fun hunbaked mark hmark => ?_⟩
  rw [World.destroy, World.mapNodes, Arena.marks_destroy] at hmark
  obtain ⟨id, hid⟩ := List.mem_iff_getElem?.mp hmark
  rw [List.getElem?_modify] at hid
  obtain ⟨before, hbefore, heq⟩ := Option.map_eq_some_iff.mp hid
  have hlive : before.baked = false := hunbaked before (List.mem_of_getElem? hbefore)
  rw [← heq]
  split
  · exact hlive
  · exact hlive

theorem make {draft : NodeDraft} (h : draft.baked = false) (w : World Empty) :
    w.Gains 1 (w.make draft) := by
  refine ⟨.make w draft, fun hunbaked mark hmark => ?_⟩
  rw [World.marks_make] at hmark
  rcases List.mem_append.mp hmark with hold | hnew
  · exact hunbaked mark hold
  · rw [List.mem_singleton.mp hnew]
    exact h

end World.Gains

theorem Task.Routine.free (h : task.Routine) : task.Free := by
  cases h with
  | _ => exact ⟨rfl, trivial⟩

namespace World.Affords

/-- Nothing is dispatched, and what is to be done costs nothing. -/
theorem of_routine (hworld : w.Gains 0 later) (htasks : ∀ task ∈ tasks, task.Routine) :
    w.Affords credit (later, tasks) := by
  refine ⟨0, hworld, ?_, fun task htask => (htasks task htask).free.2⟩
  show 0 + Task.credits tasks ≤ credit
  rw [Task.credits_eq_zero fun task htask => (htasks task htask).free]
  exact Nat.zero_le credit

theorem of_nothing (hworld : w.Gains 0 later) : w.Affords credit (later, []) :=
  of_routine hworld fun task htask => (by cases htask)

/-- The chain goes on with the same credit. -/
theorem of_single (hcredit : task.credit ≤ credit) (hlive : task.Live) :
    w.Affords credit (w, [task]) := by
  refine ⟨0, World.Gains.refl w, ?_, fun other hother => ?_⟩
  · show 0 + Task.credits [task] ≤ credit
    rw [Task.credits_cons, Nat.zero_add]
    exact hcredit
  · rw [List.mem_singleton.mp hother]
    exact hlive

/-- One handler is dispatched. -/
theorem of_make {draft : NodeDraft} (hdraft : draft.baked = false) (handler : Handler Empty) :
    w.Affords 1 (w.make draft, [.call handler node bundle false]) := by
  refine ⟨1, World.Gains.make hdraft w, Nat.le_refl 1, fun other hother => ?_⟩
  rw [List.mem_singleton.mp hother]
  rfl

end World.Affords

/-! ## One task -/

section

variable {chain : Chain Empty} {handler : Handler Empty}

theorem World.affords_carryOn (hunbaked : w.nodes.Unbaked) (node : NodeId) (chain : Chain Empty) :
    w.Affords 0 (w.carryOn node chain) := by
  rcases w.carryOn_cases node chain with ⟨-, state, hnode, hbaked⟩ | ⟨heq, -⟩
  · have hmark : w.nodes.marks[node]? = some state.mark := by
      rw [Arena.getElem?_marks, hnode, Option.map_some]
    have hlive : state.baked = false := hunbaked state.mark (List.mem_of_getElem? hmark)
    cases hbaked.symm.trans hlive
  · rw [heq]
    exact .of_nothing ⟨⟨rfl, rfl⟩, id⟩

theorem World.affords_advance (w : World Empty) (node : NodeId) (chain : Chain Empty) :
    w.Affords 1 (w.advance node chain false) := by
  rcases w.advance_cases node chain false with ⟨-, heq⟩ | ⟨-, heq⟩
  · rw [heq]
    exact .of_nothing (Gains.refl w)
  · rw [heq]
    exact .of_single (Nat.le_refl 1) rfl

/-- **A search dispatches at most one handler**, and when it has, it is over. -/
theorem World.affords_search (h : chain.Obeys Law.gradual) (w : World Empty) (node : NodeId) :
    w.Affords 1 (w.search node chain false) := by
  have hnothing : w.Affords 1 (w, []) := .of_nothing (Gains.refl w)
  have hfinds := w.finds_search node chain false
  generalize w.search node chain false = next at hfinds ⊢
  cases hfinds with
  | last _ _ => exact hnothing
  | blank _ _ => exact hnothing
  | ended _ _ => exact hnothing
  | found hcurrent hreading =>
    obtain ⟨seed, ⟨plan, hplan, hok⟩, -, hfind, -, heq⟩ :=
      Law.sound_gradual.dispatch_of_found h hcurrent hreading node false
    have hlive := hplan.not_baked hok hfind
    rw [heq, hlive]
    exact .of_make hlive _
  | exhausted _ _ _ => exact .of_single (Nat.le_refl 1) rfl

/-! ### Calls -/

theorem World.affords_handsOn {seed : Seed Empty} {s : Sentence} {gone : Bool}
    {effect : Effect Empty} (h : effect.HandsOn seed s gone w node bundle false) :
    w.Affords 0 (effect.world, effect.allTasks) := .of_routine (Gains.of_quiet h.1) h.routine

theorem World.affords_fork {seed : Seed Empty} {s : Sentence} {symbol : Char} {state : Node}
    (hfollows : bundle.Follows seed) (hs : bundle.find? Key.sentence = some (.sentence s))
    (hnode : w.nodes.get? node = some state) (hsymbol : state.symbol = symbol) (closing : Char) :
    w.Affords 0 ((w.fork closing node bundle).world, (w.fork closing node bundle).allTasks) := by
  have hopening : (w.nodes.get? node).map (·.symbol) = some symbol := by
    rw [hnode, Option.map_some, hsymbol]
  refine .of_routine ?_ (w.routine_fork closing node bundle)
  rw [World.fork_eq hfollows hs closing hopening]
  split
  next => exact Gains.refl w
  next cause _ _ =>
    have hwarned : w.Gains 0 (w.warn (.forkFailed node cause)) := ⟨⟨rfl, rfl⟩, id⟩
    exact hwarned.trans (Gains.destroy _ node)

/-- A branch without a tip makes no node and parks its growth. -/
theorem World.affords_branch {seed : Seed Empty} {s : Sentence} {shape : BranchShape} {state : Node}
    (hfollows : bundle.Follows seed) (hs : bundle.find? Key.sentence = some (.sentence s))
    (hnode : w.nodes.get? node = some state) (htip : shape.tipSymbol = none) :
    w.Affords 0 ((w.branch shape node bundle false).world,
      (w.branch shape node bundle false).allTasks) := by
  obtain ⟨heading, hheading⟩ := hfollows.heading
  rcases World.branch_eq (hfollows.core_eq hs) (Bundle.vec3?_of_find? hheading) shape hnode false with
    hnothing | ⟨placed, grow, hplaced, -, ⟨-, hworld, htasks⟩ | ⟨symbol, hsymbol, -⟩⟩
  · rw [hnothing]
    exact .of_nothing (Gains.refl w)
  · rw [hworld, htasks, hplaced]
    refine .of_routine (Gains.of_quiet (Quiet.place w node _)) fun task htask => ?_
    rcases List.mem_cons.mp htask with rfl | htask
    · exact .carryTip _
    · rw [List.mem_singleton.mp htask]
      exact .park _
  · rw [htip] at hsymbol
    cases hsymbol

theorem World.affords_seed (planted : Seed Empty) (w : World Empty) (node : NodeId)
    (bundle : Bundle Empty) :
    w.Affords 0 ((w.seedLive planted node bundle).2.world,
      (w.seedLive planted node bundle).2.allTasks) := by
  rw [World.seedLive]
  split
  · exact .of_nothing (Gains.refl w)
  · exact .of_routine (Gains.refl w)
      (Effect.routine_allTasks (planted.routine_startChain w node bundle))

/-- **No handler lets a chain go on at once.** -/
theorem World.affords_call (h : Law.gradual.Calls w node bundle handler) :
    w.Affords 0 ((handler.call w node bundle false).2.world,
      (handler.call w node bundle false).2.allTasks) := by
  cases h with
  | root _ _ => exact affords_seed _ w node bundle
  | @bound seed symbol prototype s state hgrows hfollows hs hfind _ hnode hsymbol =>
    rcases prototype.handler.handsOn_or with
      ⟨gone, hhands⟩ | ⟨closing, hfork⟩ | ⟨shape, hbranch⟩ | ⟨planted, hseed⟩
    · exact affords_handsOn
        (Handler.handsOn_call hhands hfollows hs (Arena.contains_of_get? hnode) false)
    · rw [hfork]
      exact affords_fork hfollows hs hnode hsymbol closing
    · obtain ⟨plan, hplan, hok⟩ := hgrows
      rw [hbranch]
      exact affords_branch hfollows hs hnode (hplan.tipSymbol_eq_none hok hfind hbranch)
    · rw [hseed]
      exact affords_seed planted w node bundle

/-- **A task spends its credit at most.** -/
theorem World.affords_perform (hunbaked : w.nodes.Unbaked) (h : Law.gradual.Heads w task)
    (hlive : task.Live) : w.Affords task.credit (w.perform task) := by
  rcases h with hobeys | ⟨handler, node, bundle, baked, rfl, hcalls⟩
  · cases task with
    | advance node chain baked =>
      obtain rfl : baked = false := hlive
      exact affords_advance w node chain
    | search node chain baked =>
      obtain rfl : baked = false := hlive
      exact affords_search hobeys w node
    | call handler node bundle baked => exact hobeys.elim
    | carryOn node chain => exact affords_carryOn hunbaked node chain
    | destroy node => exact .of_nothing (Gains.destroy w node)
    | park work => exact .of_nothing ⟨⟨rfl, rfl⟩, id⟩
    | carryTip growth =>
      exact .of_nothing (Gains.of_quiet (growth.quiet_carryTip w))
    | ripen growth => exact hlive.elim
    | publish prefab => exact hlive.elim
  · obtain rfl : baked = false := hlive
    exact affords_call hcalls

/-! ## Continuations -/

/-- **A continuation sets off tasks that are worth one credit at most.** -/
theorem Continuation.affords_resume (work : Continuation Empty) (w : World Empty) :
    w.Affords 1 ((work.resume w).world, (work.resume w).tasks) := by
  have hquiet := World.Gains.of_quiet (work.quiet_resume w)
  have hresumes := work.resumes w
  generalize work.resume w = resumption at hresumes hquiet ⊢
  cases hresumes with
  | due next =>
    cases next.work with
    | none => exact .of_nothing hquiet
    | some chain => exact .of_single (Nat.le_refl 1) rfl
  | late delay =>
    cases delay.work with
    | none => exact .of_routine hquiet (Task.routine_passing true delay.node)
    | some chain =>
      refine ⟨0, hquiet, Nat.le_refl 1, fun task htask => ?_⟩
      rcases List.mem_cons.mp htask with rfl | htask
      · rfl
      · rw [List.mem_singleton.mp htask]
        trivial
  | grown growth =>
    refine .of_routine hquiet fun task htask => ?_
    obtain ⟨chain, later, -, -, rfl⟩ := growth.exists_of_mem_finish w htask
    exact .carryOn _ _
  | unfolded unfolding blade =>
    refine .of_routine hquiet fun task htask => ?_
    simp only [Unfolding.finish] at htask
    cases hwork : unfolding.work with
    | none =>
      rw [hwork] at htask
      cases htask
    | some chain =>
      rw [hwork] at htask
      rw [List.mem_singleton.mp htask]
      exact .carryOn _ _
  | host work => exact work.elim
  | _ => exact .of_nothing hquiet

end

end

/-! ## A whole tick -/

/-- The garden's plants are those of gradual plans, and nothing in it is baked. -/
def World.Gradual (w : World Empty) (tasks : List (Task Empty))
    (waiting : List (Continuation Empty)) : Prop :=
  Law.gradual.Governs w tasks waiting ∧ w.nodes.Unbaked ∧ ∀ task ∈ tasks, task.Live

/-- **Gardens of gradual plans stay gradual.** -/
theorem World.Gradual.invariant : Garden.Invariant World.Gradual where
  perform := by
    intro w task rest waiting h
    obtain ⟨hgoverns, hunbaked, hlive⟩ := h
    obtain ⟨made, hgains, -, htasks⟩ := World.affords_perform hunbaked hgoverns.tasks.1
      (hlive task List.mem_cons_self)
    refine ⟨Law.sound_gradual.invariant.perform hgoverns, hgains.unbaked hunbaked,
      fun other hother => ?_⟩
    rcases List.mem_append.mp hother with hmem | hmem
    · exact htasks other hmem
    · exact hlive other (List.mem_cons_of_mem task hmem)
  resume := by
    intro w work waiting h
    obtain ⟨hgoverns, hunbaked, -⟩ := h
    obtain ⟨made, hgains, -, htasks⟩ := work.affords_resume w
    exact ⟨Law.sound_gradual.invariant.resume hgoverns, hgains.unbaked hunbaked, htasks⟩
  reorder := fun hperm h => ⟨Law.sound_gradual.invariant.reorder hperm h.1, h.2⟩
  unpark := fun h => ⟨Law.sound_gradual.invariant.unpark h.1, h.2⟩
  elapse := fun seconds h => ⟨Law.sound_gradual.invariant.elapse seconds h.1, h.2⟩

section

variable {w later : World Empty} {tasks left : List (Task Empty)} {credit : Nat}
  {works waiting back : List (Continuation Empty)} {report after : TickSummary} {limit : Nat}

/-- **A run spends no more credit than its tasks have.** -/
theorem World.Gradual.affords_of_comes (hcomes : World.Comes w tasks later left)
    (h : w.Gradual tasks waiting) : w.Affords (Task.credits tasks) (later, left) := by
  induction hcomes with
  | refl w tasks => exact ⟨0, Gains.refl w, Nat.le_of_eq (Nat.zero_add _), h.2.2⟩
  | @head w later task rest left goes hrest ih =>
    obtain ⟨made, hgains, hmade, -⟩ := World.affords_perform h.2.1 h.1.tasks.1
      (h.2.2 task List.mem_cons_self)
    obtain ⟨more, hlater, hmore, hlive⟩ := ih (World.Gradual.invariant.perform h)
    refine ⟨made + more, hgains.trans hlater, ?_, hlive⟩
    rw [Task.credits_append] at hmore
    rw [Task.credits_cons]
    omega

/-- **Serving one continuation dispatches at most one handler.** -/
theorem World.Gradual.gains_of_serve {work : Continuation Empty} {step : Step}
    (hserve : Scheduler.serve limit work w = some (step, back, later))
    (h : w.Gradual [] (work :: waiting)) : ∃ made ≤ 1, w.Gains made later := by
  obtain ⟨done, hends, rfl, -, -⟩ := Scheduler.serve_eq_some hserve
  obtain ⟨none, hresumed, hcredits, -⟩ := work.affords_resume w
  obtain ⟨made, hgains, hmade, -⟩ :=
    World.Gradual.affords_of_comes (World.ends_iff_comes.mp hends)
      (World.Gradual.invariant.resume h)
  have hunparked : done.Gains 0 done.unpark.2 := ⟨⟨rfl, rfl⟩, id⟩
  refine ⟨none + made, ?_, (hresumed.trans hgains).trans hunparked⟩
  have hspent : made ≤ Task.credits (work.resume w).tasks := Nat.le_trans (Nat.le_add_right _ _) hmade
  have hcredit : none + Task.credits (work.resume w).tasks ≤ 1 := hcredits
  omega

/-- Serving many dispatches at most one handler for each. -/
theorem World.Gradual.gains_of_serveAll
    (hserve : Scheduler.serveAll limit works report w = some (after, back, later))
    (h : w.Gradual [] (works ++ waiting)) : ∃ made ≤ works.length, w.Gains made later := by
  induction works generalizing report w waiting back with
  | nil =>
    simp only [Scheduler.serveAll, Option.some.injEq, Prod.mk.injEq] at hserve
    obtain ⟨-, -, rfl⟩ := hserve
    exact ⟨0, Nat.le_refl 0, Gains.refl w⟩
  | cons work works ih =>
    rw [List.cons_append] at h
    rw [Scheduler.serveAll_cons, Option.bind_eq_some_iff] at hserve
    obtain ⟨⟨step, first, mid⟩, hfirst, hserve⟩ := hserve
    rw [Option.bind_eq_some_iff] at hserve
    obtain ⟨⟨report', second, last⟩, hrest, hserve⟩ := hserve
    cases hserve
    obtain ⟨made, hmade, hgains⟩ := World.Gradual.gains_of_serve hfirst h
    have hmid := World.Gradual.invariant.of_serve hfirst h
    rw [List.append_assoc] at hmid
    obtain ⟨more, hmore, hlater⟩ := ih hrest hmid
    refine ⟨made + more, ?_, hgains.trans hlater⟩
    rw [List.length_cons]
    omega

/-- Every continuation that is served counts. -/
theorem Scheduler.resumed_of_serveAll
    (hserve : Scheduler.serveAll limit works report w = some (after, back, later)) :
    after.resumed = report.resumed + works.length := by
  obtain ⟨services, hworks, -, -, hafter⟩ := Scheduler.exists_serveAll_iff.mp ⟨limit, hserve⟩
  rw [hafter, Scheduler.count_services, ← hworks, List.length_map]

end

namespace Garden

variable {plan : PlantPlan} {settings : Settings} {garden later : Garden} {limit : Nat}
  {report : TickSummary}

/-- The budget of a tick is that of the settings. -/
theorem budget_of_reached (h : Reached plan settings garden) :
    garden.scheduler.budget = settings.maxStepsPerTick := by
  induction h with
  | planted hbuild =>
    obtain ⟨seed, hseed⟩ := seed_of_build hbuild
    obtain ⟨after, -, rfl⟩ := (build_eq_ok_iff hseed).mp ⟨_, hbuild⟩
    rfl
  | ticked _ htick ih =>
    rw [tick_eq, Option.map_eq_some_iff] at htick
    obtain ⟨served, -, hlater⟩ := htick
    cases hlater
    exact ih

theorem length_due (garden : Garden) :
    garden.due.length = min garden.scheduler.budget
      (garden.scheduler.queue.length + garden.world.parked.size) := by
  rw [due, List.length_take, List.length_append, Array.length_toList]

theorem gradual_of_reached (hgradual : plan.Gradual) (h : Reached plan settings garden) :
    garden.world.Gradual [] garden.scheduler.queue := by
  refine World.Gradual.invariant.of_reached (fun seed hseed => ?_) h
  refine ⟨Law.governs_seedbed ⟨plan, hgradual, hseed⟩, fun mark hmark => ?_, fun task htask => ?_⟩
  · rw [marks_seedbed] at hmark
    rw [List.mem_singleton.mp hmark]
    exact hgradual.live
  · rw [List.mem_singleton.mp htask]
    exact hgradual.live

/-- **The budget of a tick bounds growth.** In a garden of a plan where no plant is baked and no branch
names a symbol for its tip, every tick returns in which nothing can halt; it makes one node for each
handler that it dispatches, and dispatches no more handlers than it resumes continuations. Those are never
more than the settings allow, nor more than waited. -/
theorem budget_bounds_growth (hgradual : plan.Gradual) (settings : Settings)
    (h : Reached plan settings garden) :
    ((∃ seed : Seed Empty, plan.seed = .ok seed ∧ seed.Tame) →
      ∃ limit result, Simulation.tick limit garden = some result) ∧
    ∀ limit report later, Simulation.tick limit garden = some (report, later) →
      ∃ made, later.world.dispatched = garden.world.dispatched + made ∧
        later.world.nodes.size = garden.world.nodes.size + made ∧
        made ≤ report.resumed ∧ report.resumed ≤ settings.maxStepsPerTick ∧
        report.resumed ≤ garden.scheduler.queue.length + garden.world.parked.size := by
  refine ⟨?_, fun limit report later htick => ?_⟩
  · rintro ⟨seed, hok, htame⟩
    exact exists_tick hgradual.tipsEnd (neverHalts_of_tame hok htame) h
  rw [tick_eq, Option.map_eq_some_iff] at htick
  obtain ⟨⟨counted, back, last⟩, hserved, hlater⟩ := htick
  cases hlater
  have hresumed : counted.resumed = 0 + garden.due.length := Scheduler.resumed_of_serveAll hserved
  rw [length_due, budget_of_reached h] at hresumed
  have hdawn := World.Gradual.invariant.dawn (gradual_of_reached hgradual h)
  obtain ⟨made, hmade, hgains⟩ := World.Gradual.gains_of_serveAll hserved hdawn
  rw [length_due, budget_of_reached h] at hmade
  refine ⟨made, hgains.dispatched, hgains.size, ?_, ?_, ?_⟩
  · show made ≤ counted.resumed
    omega
  · show counted.resumed ≤ settings.maxStepsPerTick
    omega
  · show counted.resumed ≤ _
    omega

/-- A live plant of one move. -/
def runner : PlantPlan where
  traits := { start := "M" }
  handlers := ⟨[('M', .move 1 1)]⟩

/-- A plant that forks into a branch and a runner. -/
def sapling : PlantPlan where
  traits := { start := "[F]R" }
  handlers := ⟨[('[', .fork ']'), ('F', .branch {}), ('R', .seed runner)]⟩

theorem gradual_runner : runner.Gradual := by
  have hbound : ∀ symbol handler, runner.handlers.find? symbol = some handler →
      handler = .move 1 1 := by
    intro symbol handler hfind
    exact congrArg Prod.snd (List.mem_singleton.mp (SymbolTable.mem_of_find? hfind))
  refine .intro rfl (fun symbol => ?_) fun symbol inner hfind => (by cases hbound symbol _ hfind)
  rw [PlantPlan.tipOf?]
  split
  next shape hfind => cases hbound symbol _ hfind
  next => rfl

theorem gradual_sapling : sapling.Gradual := by
  have hbound : ∀ symbol handler, sapling.handlers.find? symbol = some handler →
      handler = .fork ']' ∨ handler = .branch {} ∨ handler = .seed runner := by
    intro symbol handler hfind
    have hmem := SymbolTable.mem_of_find? hfind
    simp only [sapling, List.mem_cons, List.not_mem_nil, or_false, Prod.mk.injEq] at hmem
    exact hmem.imp And.right (Or.imp And.right And.right)
  refine .intro rfl (fun symbol => ?_) fun symbol inner hfind => ?_
  · rw [PlantPlan.tipOf?]
    split
    next shape hfind =>
      obtain heq | heq | heq := hbound symbol _ hfind
      · cases heq
      · cases heq
        rfl
      · cases heq
    next => rfl
  · obtain heq | heq | heq := hbound symbol _ hfind
    · cases heq
    · cases heq
    · cases heq
      exact gradual_runner

theorem tame_sapling : ∃ seed : Seed Empty, sapling.seed = .ok seed ∧ seed.Tame := by
  obtain ⟨seed, inner, hseed, hceiling, hvariation, hhandlers, hlast, hplacing, hwithin⟩ :
      ∃ seed inner : Seed Empty, sapling.seed = .ok seed ∧ seed.ceiling = 0 ∧
        seed.traits.variation = {} ∧
        seed.registry.entries.map (fun entry => entry.2.handler) =
          [.fork ']', .branch {}, .seed inner] ∧
        inner.ceiling = 0 ∧ inner.traits.variation = {} ∧
        inner.registry.entries.map (fun entry => entry.2.handler) = [.move 1 1] :=
    ⟨_, _, rfl, rfl, rfl, rfl, rfl, rfl, rfl⟩
  have hrunner : inner.Tame := by
    refine .of_handlers (by rw [hlast]; decide) (by rw [hplacing]; decide +kernel) ?_
    rw [hwithin, List.forall_mem_singleton]
    exact ⟨by decide +kernel, nofun⟩
  refine ⟨seed, hseed,
    .of_handlers (by rw [hceiling]; decide) (by rw [hvariation]; decide +kernel) ?_⟩
  rw [hhandlers, List.forall_mem_cons, List.forall_mem_cons, List.forall_mem_singleton]
  exact ⟨⟨nofun, nofun⟩, ⟨nofun, nofun⟩, hrunner.handler⟩

theorem sapling_in_budget : (∃ seed : Seed Empty, sapling.seed = .ok seed ∧ seed.Tame) ∧
    ∃ garden report later,
    build 10 sapling { maxStepsPerTick := 1 } = .ok (some garden) ∧
    Simulation.tick 10 garden = some (report, later) ∧ garden.world.dispatched = 0 ∧
    later.world.dispatched = 1 ∧ ∃ made, later.world.dispatched = garden.world.dispatched + made ∧
      later.world.nodes.size = garden.world.nodes.size + made ∧
      made ≤ report.resumed ∧ report.resumed ≤ 1 := by
  obtain ⟨garden, hbuild, hnone⟩ : ∃ garden : Garden,
      build 10 sapling { maxStepsPerTick := 1 } = .ok (some garden) ∧ garden.world.dispatched = 0 :=
    ⟨_, rfl, rfl⟩
  obtain ⟨⟨report, later⟩, htick, hone⟩ : ∃ result, Simulation.tick 10 garden = some result ∧
      result.2.world.dispatched = 1 := by
    cases hbuild
    exact ⟨_, rfl, rfl⟩
  obtain ⟨-, hall⟩ :=
    budget_bounds_growth gradual_sapling { maxStepsPerTick := 1 } (.planted hbuild)
  obtain ⟨made, hdispatched, hsize, hmade, hresumed, -⟩ := hall 10 report later htick
  exact ⟨tame_sapling, garden, report, later, hbuild, htick, hnone, hone, made, hdispatched, hsize,
    hmade, hresumed⟩

end Garden
end PlantGrowth
