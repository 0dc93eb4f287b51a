import PlantGrowth.Proofs.Accounts
import PlantGrowth.Proofs.Course
import PlantGrowth.Proofs.Returning
import Mathlib.Data.List.Count
import Mathlib.Data.List.Perm.Basic

/-!
# The growth of a bracketed plant

The account of the visits is kept by every step, so it holds of every garden that a bracketed plan
grows into, whatever the budget of its ticks. When nothing is left to do, nothing is owed: the visits
made are those of the walk over the sentence, and the ethereal nodes are gone.

In a baked plant nothing ever waits, and the visits are made in the order of the walk.
-/

namespace PlantGrowth

/-! ## The account of a garden -/

/-- All visits of a walk are made or owed, of a world with tasks and waiting continuations. -/
structure Bed.Grows (bed : Bed) (total made : List Visit) (w : World Empty)
    (tasks : List (Task Empty)) (waiting : List (Continuation Empty)) : Prop where
  holds : bed.Holds w made
  dispatched : w.dispatched = made.length
  owing : ∃ byTasks byParked byWaiting, Owing (bed.Owes made) tasks byTasks ∧
    Owing (bed.Waits made) w.parked.toList byParked ∧ Owing (bed.Waits made) waiting byWaiting ∧
    (made ++ (byTasks ++ (byParked ++ byWaiting))).Perm total ∧
    (bed.root.baked = true → made ++ byTasks = total ∧ w.parked.toList = [] ∧ waiting = [])
  ending : ∀ node, bed.signs.Makes made node true →
    w.Ending tasks (w.parked.toList ++ waiting) node
  /-- The handler of a visit is still to be called, or has drawn all that it draws. -/
  drawn : ∀ k visit, made[k]? = some visit →
    (∃ handler bundle baked, .call handler (k + 1) bundle baked ∈ tasks) ∨
      (w.random.refused = 0 → bed.seed.Narrow bed.root.baked visit.symbol)

/-- There are no plants within a plant that agrees with its signs. -/
theorem Signs.Agree.ne_seed {signs : Signs} {seed planted : Seed Empty} {symbol : Char}
    {prototype : Prototype Empty} (h : signs.Agree seed)
    (hfind : seed.registry.find? symbol = some prototype) : prototype.handler ≠ .seed planted := by
  intro hseed
  by_cases hopening : symbol = signs.opening
  · rw [hopening] at hfind
    cases hseed.symm.trans (h.fork prototype hfind)
  · have hhands := h.handsOn symbol prototype hfind hopening
    rw [hseed] at hhands
    cases hhands

/-- **A call that draws all that it draws is one of a narrow symbol.** -/
theorem Bed.Calls.narrow {bed : Bed} {made owed : List Visit} {bundle : Bundle Empty}
    {handler : Handler Empty} {node : NodeId} {w : World Empty} {k : Nat} {visit : Visit}
    (hbed : bed.Proper) (h : bed.Calls made bundle handler node owed) (hnode : node = k + 1)
    (hvisit : made[k]? = some visit)
    (hdrew : ∀ bounds ∈ handler.draws w node bundle bed.root.baked, bounds.far = false) :
    bed.seed.Narrow bed.root.baked visit.symbol := by
  cases h with
  | intro hmade hfind hfollows _ hs _ _ _ _ _ =>
    obtain rfl := Nat.succ.inj hnode
    obtain rfl := Option.some.inj (hmade.symm.trans hvisit)
    intro prototype hbound bounds hmem
    obtain rfl := Option.some.inj (hfind.symm.trans hbound)
    exact hdrew bounds
      (Handler.mem_draws_of_mem_bounds hfollows hs (fun planted => hbed.agree.ne_seed hfind) hmem)

namespace Bed.Grows

variable {bed : Bed} {total made : List Visit} {w : World Empty} {task : Task Empty}
  {tasks rest : List (Task Empty)} {work : Continuation Empty}
  {waiting other : List (Continuation Empty)}

/-- **Doing a task keeps the account.** -/
theorem perform (hbed : bed.Proper) (h : bed.Grows total made w (task :: rest) waiting) :
    ∃ new, bed.Grows total (made ++ new) (w.perform task).1 ((w.perform task).2 ++ rest)
      waiting := by
  obtain ⟨byTasks, byParked, byWaiting, htasks, hparked, hwaiting, htotal, horder⟩ := h.owing
  cases htasks with
  | @cons _ _ owed byRest htask hrest =>
    obtain ⟨new, byNew, byWorks, works, hstep, hmore⟩ := htask.step hbed h.holds
    refine ⟨new, hstep.holds, ?_, ?_, fun node hmakes => ?_, fun k visit hvisit => ?_⟩
    · rw [hstep.dispatched, h.dispatched, List.length_append]
    · refine ⟨byNew ++ byRest, byParked ++ byWorks, byWaiting, ?_, ?_, ?_, ?_, ?_⟩
      · exact hstep.owes.append (hrest.imp fun _ _ howes => howes.append new)
      · rw [hmore]
        exact (hparked.imp fun _ _ hwaits => hwaits.append new).append hstep.waits
      · exact hwaiting.imp fun _ _ hwaits => hwaits.append new
      · have hsame := hstep.total
        rw [List.perm_iff_count] at htotal hsame ⊢
        intro visit
        have hcount := htotal visit
        have hcount' := hsame visit
        simp only [List.count_append] at hcount hcount' ⊢
        omega
      · intro hbaked
        obtain ⟨hall, hnone, hqueue⟩ := horder hbaked
        obtain ⟨howed, hworks⟩ := hstep.inOrder hbaked
        refine ⟨?_, ?_, hqueue⟩
        · rw [← hall, ← howed]
          simp only [List.append_assoc]
        · rw [hmore, hnone, hworks]
          rfl
    · have hdone : ∀ node, (w.perform task).1.Ending (w.perform task).2 works node →
          (w.perform task).1.Ending ((w.perform task).2 ++ rest)
            ((w.perform task).1.parked.toList ++ waiting) node := by
        intro node hending
        rw [hmore]
        refine hending.mono id (List.subset_append_left _ rest) fun work hwork => ?_
        exact List.mem_append_left waiting (List.mem_append_right _ hwork)
      rcases hmakes.of_append with hold | hnew
      · rcases (h.ending node hold).of_cons_task with hends | hother
        · exact hdone node (hstep.ending node hends hold)
        · rw [hmore]
          refine hother.mono (hstep.gone node) (List.subset_append_right _ rest) ?_
          rw [List.append_assoc]
          exact List.append_subset.mpr ⟨List.subset_append_left _ _,
            fun work hwork => List.mem_append_right _ (List.mem_append_right _ hwork)⟩
      · -- a node that was just made is ending because its handler is called next
        obtain ⟨handler, bundle, baked, hcall⟩ := hstep.called node hnew hmakes.le_length
        exact hdone node (World.Ending.of_task hcall rfl)
    · by_cases hlt : k < made.length
      · rw [List.getElem?_append_left hlt] at hvisit
        rcases h.drawn k visit hvisit with ⟨handler, bundle, baked, hcall⟩ | hnarrow
        · rcases List.mem_cons.mp hcall with rfl | hother
          · cases htask with
            | call hbaked hcalls =>
              rw [hbaked, World.refused_perform]
              refine Or.inr fun hzero => hcalls.narrow (w := w) hbed rfl hvisit ?_
              exact Bounds.refusals_eq_zero.mp (Nat.eq_zero_of_add_eq_zero_left hzero)
          · exact Or.inl ⟨handler, bundle, baked, List.mem_append_right _ hother⟩
        · refine Or.inr fun hzero => hnarrow ?_
          exact Nat.eq_zero_of_le_zero (hzero ▸ w.refused_le_perform task)
      · obtain ⟨hbound, -⟩ := List.getElem?_eq_some_iff.mp hvisit
        obtain ⟨handler, bundle, baked, hcall⟩ :=
          hstep.called (k + 1) (Nat.lt_succ_of_le (Nat.le_of_not_lt hlt)) hbound
        exact Or.inl ⟨handler, bundle, baked, List.mem_append_left rest hcall⟩

/-- **Resuming a continuation keeps the account.** -/
theorem resume (h : bed.Grows total made w [] (work :: waiting)) :
    bed.Grows total made (work.resume w).world (work.resume w).tasks
      (if (work.resume w).step = .pending then (work.resume w).continuation :: waiting
        else waiting) := by
  obtain ⟨byTasks, byParked, byWaiting, htasks, hparked, hwaiting, htotal, horder⟩ := h.owing
  have hlive : bed.root.baked = false := by
    cases hbaked : bed.root.baked with
    | false => rfl
    | true =>
      obtain ⟨-, -, hqueue⟩ := horder hbaked
      cases hqueue
  cases htasks with
  | nil =>
    cases hwaiting with
    | @cons _ _ owed byRest hwork hrest =>
      obtain ⟨hquiet, byNew, byWorks, hstep⟩ := hwork.step h.holds hlive
      have hsame : made ++ [] = made := List.append_nil made
      have hqueue : (if (work.resume w).step = .pending then (work.resume w).continuation :: waiting
          else waiting) = (if (work.resume w).step = .pending then [(work.resume w).continuation]
          else []) ++ waiting := by
        by_cases hpending : (work.resume w).step = .pending
        · rw [if_pos hpending, if_pos hpending]
          rfl
        · rw [if_neg hpending, if_neg hpending]
          rfl
      have hholds := hstep.holds
      have howes := hstep.owes
      have hwaits := hstep.waits
      rw [hsame] at hholds howes hwaits
      rw [hqueue]
      refine ⟨hholds, ?_, ?_, fun node hmakes => ?_, fun k visit hvisit => ?_⟩
      · rw [hquiet.dispatched, h.dispatched]
      · refine ⟨byNew, byParked, byWorks ++ byRest, howes, ?_, hwaits.append hrest, ?_, ?_⟩
        · rw [hquiet.parked]
          exact hparked
        · have hsum := hstep.total
          rw [List.perm_iff_count] at htotal hsum ⊢
          intro visit
          have hcount := htotal visit
          have hcount' := hsum visit
          simp only [List.count_append, List.nil_append] at hcount hcount' ⊢
          omega
        · intro hbaked
          rw [hlive] at hbaked
          cases hbaked
      · rw [hquiet.parked]
        rcases (h.ending node hmakes).of_middle_work with hends | hother
        · refine (hstep.ending node hends hmakes).mono id (List.Subset.refl _) fun next hnext => ?_
          exact List.mem_append_right _ (List.mem_append_left waiting hnext)
        · refine hother.mono (hstep.gone node) (List.nil_subset _) ?_
          exact List.append_subset.mpr ⟨List.subset_append_left _ _,
            fun next hnext => List.mem_append_right _ (List.mem_append_right _ hnext)⟩
      · rw [work.random_resume w]
        exact Or.inr ((h.drawn k visit hvisit).resolve_left fun ⟨_, _, _, hcall⟩ => by cases hcall)

theorem reorder (h : bed.Grows total made w tasks waiting) (hperm : waiting.Perm other) :
    bed.Grows total made w tasks other := by
  obtain ⟨byTasks, byParked, byWaiting, htasks, hparked, hwaiting, htotal, horder⟩ := h.owing
  obtain ⟨more, hmore, hsame⟩ := hwaiting.perm hperm
  refine ⟨h.holds, h.dispatched, ⟨byTasks, byParked, more, htasks, hparked, hmore, ?_, ?_⟩, ?_,
    h.drawn⟩
  · refine List.Perm.trans ?_ htotal
    exact ((hsame.symm.append_left byParked).append_left byTasks).append_left made
  · intro hbaked
    obtain ⟨hall, hnone, rfl⟩ := horder hbaked
    exact ⟨hall, hnone, hperm.symm.eq_nil⟩
  · intro node hmakes
    refine (h.ending node hmakes).mono id (List.Subset.refl tasks) ?_
    exact (hperm.append_left w.parked.toList).subset

theorem unpark (h : bed.Grows total made w [] waiting) :
    bed.Grows total made w.unpark.2 [] (waiting ++ w.unpark.1) := by
  obtain ⟨byTasks, byParked, byWaiting, htasks, hparked, hwaiting, htotal, horder⟩ := h.owing
  refine ⟨h.holds.of_marks rfl, h.dispatched, ⟨byTasks, [], byWaiting ++ byParked, htasks, Owing.nil,
    hwaiting.append hparked, ?_, ?_⟩, ?_, h.drawn⟩
  · refine List.Perm.trans ?_ htotal
    have hswap : (byWaiting ++ byParked).Perm (byParked ++ byWaiting) := List.perm_append_comm
    exact (hswap.append_left byTasks).append_left made
  · intro hbaked
    obtain ⟨hall, hnone, hqueue⟩ := horder hbaked
    refine ⟨hall, rfl, ?_⟩
    rw [hqueue]
    exact hnone
  · intro node hmakes
    refine (h.ending node hmakes).mono (fun hgone => hgone.of_marks rfl) (List.Subset.refl _) ?_
    show w.parked.toList ++ waiting ⊆ waiting ++ w.parked.toList
    exact List.perm_append_comm.subset

theorem elapse (h : bed.Grows total made w [] waiting) (seconds : Float) :
    bed.Grows total made (w.elapse seconds) [] waiting := by
  refine ⟨h.holds.of_marks rfl, h.dispatched, h.owing, fun node hmakes => ?_, h.drawn⟩
  exact (h.ending node hmakes).mono (fun hgone => hgone.of_marks rfl) (List.Subset.refl _)
    (List.Subset.refl _)

/-- Nothing is owed when nothing is left to do. -/
theorem perm_of_idle (h : bed.Grows total made w [] []) (hparked : w.parked.toList = []) :
    made.Perm total := by
  obtain ⟨byTasks, byParked, byWaiting, htasks, howed, hwaiting, htotal, -⟩ := h.owing
  rw [hparked] at howed
  cases htasks with
  | nil =>
    cases howed with
    | nil =>
      cases hwaiting with
      | nil =>
        rw [List.append_nil, List.append_nil, List.append_nil] at htotal
        exact htotal

/-- In a baked plant nothing is left to do when there are no tasks, and the visits are in order. -/
theorem eq_of_baked (h : bed.Grows total made w [] waiting) (hbaked : bed.root.baked = true) :
    made = total ∧ w.parked.toList = [] ∧ waiting = [] := by
  obtain ⟨byTasks, -, -, htasks, -, -, -, horder⟩ := h.owing
  obtain ⟨hall, hparked, hwaiting⟩ := horder hbaked
  cases htasks with
  | nil =>
    rw [List.append_nil] at hall
    exact ⟨hall, hparked, hwaiting⟩

end Bed.Grows

/-- What is left when a plant is grown: the nodes of its visits, of which the ethereal ones are gone.
-/
structure Bed.Grown (bed : Bed) (made : List Visit) (w : World Empty) : Prop where
  holds : bed.Holds w made
  dispatched : w.dispatched = made.length
  gone : ∀ node, bed.signs.Makes made node true → w.Gone node

/-- The nodes of a grown plant are gone exactly if they are ethereal. -/
theorem Bed.Grown.destroyed_eq {bed : Bed} {made : List Visit} {w : World Empty}
    (h : bed.Grown made w) {k : Nat} {visit : Visit} (hvisit : made[k]? = some visit) {mark : Mark}
    (hmark : w.nodes.marks[k + 1]? = some mark) : mark.destroyed = mark.ethereal := by
  obtain ⟨shown, hshown, hshows⟩ := h.holds.node k visit hvisit
  obtain rfl : mark = shown := Option.some.inj (hmark.symm.trans hshown)
  cases hsolid : mark.ethereal with
  | false => exact hshows.present hsolid
  | true =>
    have hmakes : bed.signs.Makes made (k + 1) true := by
      rw [← hsolid, hshows.ethereal]
      exact Signs.Makes.node hvisit
    obtain ⟨gone, hgone, hdestroyed⟩ := h.gone _ hmakes
    obtain rfl : mark = gone := Option.some.inj (hmark.symm.trans hgone)
    exact hdestroyed

theorem Bed.Grows.grown {bed : Bed} {total made : List Visit} {w : World Empty}
    (h : bed.Grows total made w [] []) (hparked : w.parked.toList = []) : bed.Grown made w := by
  refine ⟨h.holds, h.dispatched, fun node hmakes => ?_⟩
  have hending := h.ending node hmakes
  rw [hparked] at hending
  exact hending.gone

/-! ## Gardens -/

/-- What is followed while a plan grows. -/
def PlantPlan.bed (plan : PlantPlan) (seed : Seed Empty) (opening closing : Char) : Bed where
  seed
  signs := plan.signs opening closing
  root := plan.traits.root.mark

/-- The visits of the walk over a sentence. -/
def PlantPlan.visits (plan : PlantPlan) (opening closing : Char) (symbols : List Char) :
    List Visit :=
  (plan.signs opening closing).visits none symbols.zipIdx

section Gardens

variable {plan : PlantPlan} {settings : Settings} {seed : Seed Empty} {opening closing : Char}
  {symbols : List Char} {garden : Garden}

namespace PlantPlan.Bracketed

theorem proper_bed (h : plan.Bracketed opening closing symbols) (hok : plan.seed = .ok seed) :
    (plan.bed seed opening closing).Proper :=
  ⟨h.agree hok, h.ceiling_eq hok, rfl, rfl, rfl⟩

theorem whole (h : plan.Bracketed opening closing symbols) :
    (plan.signs opening closing).Whole symbols.zipIdx := by
  show Matched opening closing (symbols.zipIdx.map Prod.fst)
  rw [List.zipIdx_map_fst]
  exact h.matched

/-- At the start all visits are owed for the chain that begins at the root. -/
theorem grows_seedbed (h : plan.Bracketed opening closing symbols) (hok : plan.seed = .ok seed)
    (settings : Settings) (position : Vec3) :
    (plan.bed seed opening closing).Grows (plan.visits opening closing symbols) []
      (Garden.seedbed plan settings) [.carryOn 0 (seed.chain position .empty)] [] := by
  have hmarks := Garden.marks_seedbed plan settings
  have hunread : seed.grammar.1.unread = symbols := by
    rw [Sentence.unread_of_cursor_eq seed.cursor_grammar, h.symbols_grammar hok]
  have hcarries : (plan.bed seed opening closing).Carries [] 0 (seed.chain position .empty)
      (plan.visits opening closing symbols) := by
    refine Bed.Carries.intro (Seed.follows_chain Bundle.tidy_empty) ?_
      (Int.le_of_eq seed.cursor_grammar.symm) ?_ h.whole ?_ Signs.Leaves.root
    · exact Int.le_of_eq (Seed.generation_chain Bundle.tidy_empty).symm
    · rw [List.zipIdx_map_fst]
      exact hunread.symm
    · have hproper := h.proper
      rw [← hunread] at hproper
      exact hproper
  refine ⟨⟨?_, ?_, fun k visit hvisit => (by cases hvisit)⟩, rfl, ?_, fun node hmakes => ?_,
    fun k visit hvisit => (by cases hvisit)⟩
  · rw [hmarks]
    rfl
  · rw [hmarks]
    rfl
  · refine ⟨plan.visits opening closing symbols, [], [], Owing.single (Bed.Owes.carryOn hcarries),
      Owing.nil, Owing.nil, ?_, fun _ => ⟨rfl, rfl, rfl⟩⟩
    rw [List.append_nil, List.append_nil]
    exact List.Perm.refl _
  · obtain ⟨k, visit, -, hvisit, -⟩ := hmakes.exists_visit
    cases hvisit

end PlantPlan.Bracketed

namespace Garden

/-- A stage of the growth of a bracketed plan: the root has not been called yet, or the account of
the visits is kept. -/
def Sprouts (plan : PlantPlan) (settings : Settings) (seed : Seed Empty) (opening closing : Char)
    (symbols : List Char) (w : World Empty) (tasks : List (Task Empty))
    (waiting : List (Continuation Empty)) : Prop :=
  (∃ made, (plan.bed seed opening closing).Grows (plan.visits opening closing symbols) made w tasks
      waiting) ∨
    (w = seedbed plan settings ∧ tasks = [rootTask plan seed] ∧ waiting = [])

/-- **Every step of growth keeps the account.** -/
theorem invariant_sprouts (h : plan.Bracketed opening closing symbols) (hok : plan.seed = .ok seed)
    (settings : Settings) : Invariant (Sprouts plan settings seed opening closing symbols) where
  perform := by
    rintro w task rest waiting (⟨made, hgrows⟩ | ⟨rfl, htasks, rfl⟩)
    · obtain ⟨new, hnew⟩ := hgrows.perform (h.proper_bed hok)
      exact Or.inl ⟨_, hnew⟩
    · cases htasks
      obtain ⟨position, hroot⟩ := perform_rootTask hok h.unshared settings
      rw [hroot]
      exact Or.inl ⟨[], h.grows_seedbed hok settings position⟩
  resume := by
    rintro w work waiting (⟨made, hgrows⟩ | ⟨-, htasks, -⟩)
    · exact Or.inl ⟨made, hgrows.resume⟩
    · cases htasks
  reorder := by
    rintro w tasks waiting other hperm (⟨made, hgrows⟩ | ⟨rfl, rfl, rfl⟩)
    · exact Or.inl ⟨made, hgrows.reorder hperm⟩
    · exact Or.inr ⟨rfl, rfl, hperm.symm.eq_nil⟩
  unpark := by
    rintro w waiting (⟨made, hgrows⟩ | ⟨-, htasks, -⟩)
    · exact Or.inl ⟨made, hgrows.unpark⟩
    · cases htasks
  elapse := by
    rintro w waiting seconds (⟨made, hgrows⟩ | ⟨-, htasks, -⟩)
    · exact Or.inl ⟨made, hgrows.elapse seconds⟩
    · cases htasks

theorem sprouts_seedbed (hok : plan.seed = .ok seed) (other : Seed Empty) (hother : plan.seed = .ok other) :
    Sprouts plan settings seed opening closing symbols (seedbed plan settings) [rootTask plan other]
      [] := by
  obtain rfl : seed = other := Except.ok.inj (hok.symm.trans hother)
  exact Or.inr ⟨rfl, rfl, rfl⟩

theorem exists_grows (h : plan.Bracketed opening closing symbols) (hok : plan.seed = .ok seed)
    (hreached : Reached plan settings garden) :
    ∃ made, (plan.bed seed opening closing).Grows (plan.visits opening closing symbols) made
      garden.world [] garden.scheduler.queue := by
  rcases (invariant_sprouts h hok settings).of_reached (sprouts_seedbed hok) hreached with
    hgrows | ⟨-, htasks, -⟩
  · exact hgrows
  · cases htasks

/-- In an idle garden nothing is owed. -/
theorem exists_grows_of_idle (h : plan.Bracketed opening closing symbols) (hok : plan.seed = .ok seed)
    (hreached : Reached plan settings garden) (hidle : garden.isIdle = true) :
    ∃ made, (plan.bed seed opening closing).Grows (plan.visits opening closing symbols) made
      garden.world [] [] ∧ garden.world.parked.toList = [] := by
  obtain ⟨made, hgrows⟩ := exists_grows h hok hreached
  obtain ⟨hqueue, hparked⟩ := Bool.and_eq_true_iff.mp hidle
  have hnone : garden.scheduler.queue = [] := List.isEmpty_iff.mp hqueue
  rw [hnone] at hgrows
  exact ⟨made, hgrows, by rw [Array.isEmpty_iff.mp hparked]⟩

/-- **An idle garden has made all visits of the walk**, in some order. -/
theorem exists_grown (h : plan.Bracketed opening closing symbols) (hok : plan.seed = .ok seed)
    (hreached : Reached plan settings garden) (hidle : garden.isIdle = true) :
    ∃ made, made.Perm (plan.visits opening closing symbols) ∧
      (plan.bed seed opening closing).Grown made garden.world := by
  obtain ⟨made, hgrows, hparked⟩ := exists_grows_of_idle h hok hreached hidle
  exact ⟨made, hgrows.perm_of_idle hparked, hgrows.grown hparked⟩

/-- **A baked garden has made all visits in the order of the walk**, and is idle. -/
theorem grown_of_baked (h : plan.Bracketed opening closing symbols) (hok : plan.seed = .ok seed)
    (hbaked : plan.traits.baked = true) (hreached : Reached plan settings garden) :
    garden.isIdle = true ∧
      (plan.bed seed opening closing).Grown (plan.visits opening closing symbols) garden.world := by
  obtain ⟨made, hgrows⟩ := exists_grows h hok hreached
  obtain ⟨hall, hparked, hqueue⟩ := hgrows.eq_of_baked hbaked
  rw [hall, hqueue] at hgrows
  refine ⟨Bool.and_eq_true_iff.mpr ⟨?_, ?_⟩, hgrows.grown hparked⟩
  · exact List.isEmpty_iff.mpr hqueue
  · rw [Array.isEmpty_iff, ← Array.toList_eq_nil_iff]
    exact hparked

/-- **Where the garden is idle, all handlers of its plant have drawn all that they draw.** -/
theorem narrow_of_idle (h : plan.Bracketed opening closing symbols) (hok : plan.seed = .ok seed)
    (hreached : Reached plan settings garden) (hidle : garden.isIdle = true) :
    ∀ symbol ∈ symbols, seed.Narrow plan.traits.baked symbol := by
  obtain ⟨made, hgrows, hparked⟩ := exists_grows_of_idle h hok hreached hidle
  have hperm := hgrows.perm_of_idle hparked
  intro symbol hsymbol prototype hfind
  have hvisited : symbol ∈ made.map Visit.symbol := by
    have hbound : symbol ∈ symbols.filter (plan.signs opening closing).binds :=
      List.mem_filter.mpr ⟨hsymbol, (h.agree hok).binds symbol prototype hfind⟩
    have hall := Signs.map_symbol_visits_perm h.regular h.whole none
    rw [List.zipIdx_map_fst] at hall
    exact ((hperm.map Visit.symbol).trans hall).mem_iff.mpr hbound
  obtain ⟨visit, hmem, rfl⟩ := List.mem_map.mp hvisited
  obtain ⟨k, hvisit⟩ := List.getElem?_of_mem hmem
  rcases hgrows.drawn k visit hvisit with ⟨_, _, _, hcall⟩ | hnarrow
  · cases hcall
  · exact hnarrow (refused_of_reached hreached) prototype hfind

/-- **Nothing halts in the garden of a bracketed plan whose symbols are all narrow.** -/
theorem neverHalts_of_bracketed (h : plan.Bracketed opening closing symbols)
    (hok : plan.seed = .ok seed)
    (hnarrow : ∀ symbol ∈ symbols, seed.Narrow plan.traits.baked symbol) :
    NeverHalts plan settings := by
  refine neverHalts_of_calls hok h.unshared (by rw [h.ceiling_eq hok]; decide)
    (fun symbol prototype hfind planted => (h.agree hok).ne_seed hfind) ?_
  intro w handler node bundle baked rest hunderway
  obtain ⟨waiting, ⟨made, hgrows⟩ | ⟨hworld, htasks, -⟩⟩ :=
    (invariant_sprouts h hok settings).of_underway (sprouts_seedbed hok) hunderway
  · obtain ⟨byTasks, byParked, byWaiting, htasks, -, -, htotal, -⟩ := hgrows.owing
    cases htasks with
    | cons hhead _ =>
      cases hhead with
      | call hbaked hcalls =>
        cases hcalls with
        | @intro k visit prototype s row _ hvisit hfind _ _ _ _ _ _ _ _ =>
          rw [hbaked]
          refine Or.inr (hnarrow visit.symbol ?_ prototype hfind)
          have hmem := htotal.mem_iff.mp (List.mem_append_left _ (List.mem_of_getElem? hvisit))
          have hall := Signs.map_symbol_visits_perm h.regular h.whole none
          rw [List.zipIdx_map_fst] at hall
          exact (List.mem_filter.mp (hall.mem_iff.mp (List.mem_map_of_mem hmem))).1
  · exact Or.inl ⟨hworld, (List.cons.inj htasks).1⟩

end Garden
end Gardens
end PlantGrowth
