import PlantGrowth.Proofs.Law

/-!
# What is left for later

A handler that does not end at once leaves a continuation, which is parked as soon as the tasks that
the handler sets off are done. Handlers leave something only where they act live, and it belongs to
their own node (`World.left_perform`). Besides, a chain that is carried on live parks its next
dispatch, and an instance that is placed may grow in; nothing else is ever parked
(`World.parked_perform`).
-/

namespace PlantGrowth

variable {law : Law} {w : World Empty} {node : NodeId} {bundle : Bundle Empty} {baked : Bool}
  {effect : Effect Empty} {work : Continuation Empty}

/-! ## Calls -/

/-- All that is left of a call is its own continuation. -/
theorem Effect.continuation_of_park (htasks : Task.park work ∉ effect.tasks)
    (h : Task.park work ∈ effect.allTasks) : effect.continuation = some work := by
  rw [Effect.allTasks] at h
  cases hleft : effect.continuation with
  | none =>
    rw [hleft] at h
    exact absurd h htasks
  | some other =>
    rw [hleft] at h
    rcases List.mem_append.mp h with hmem | hlast
    · exact absurd hmem htasks
    · rw [Task.park.inj (List.mem_singleton.mp hlast)]

theorem Effect.not_park_of_nothing (later : World Empty) :
    Task.park work ∉ ({ world := later } : Effect Empty).allTasks := fun h => by cases h

theorem Seed.Starts.not_park {planted : Seed Empty} (h : planted.Starts w node bundle effect) :
    Task.park work ∉ effect.allTasks := by
  intro hpark
  have hwork := Effect.continuation_of_park (fun hmem => ?_) hpark
  · rw [h.continuation] at hwork
    cases hwork
  · rcases h.tasks _ hmem with ⟨position, heq⟩ | ⟨prefab, heq⟩
    · cases heq
    · cases heq

theorem Effect.HandsOn.left {seed : Seed Empty} {s : Sentence} {gone : Bool}
    (h : effect.HandsOn seed s gone w node bundle baked) (hpark : Task.park work ∈ effect.allTasks) :
    baked = false ∧ work.anchor? = some node := by
  obtain ⟨-, ⟨later, -, hnone, htasks⟩ | ⟨hlive, htasks, other, hother, hkeeps⟩⟩ := h
  · have hwork := Effect.continuation_of_park (fun hmem => ?_) hpark
    · rw [hnone] at hwork
      cases hwork
    · rw [htasks] at hmem
      rcases List.mem_cons.mp hmem with heq | hmem
      · cases heq
      · cases gone with
        | true => cases List.mem_singleton.mp hmem
        | false => cases hmem
  · have hwork := Effect.continuation_of_park (fun hmem => ?_) hpark
    · obtain rfl : other = work := Option.some.inj (hother.symm.trans hwork)
      cases hkeeps with
      | wait hnode _ => exact ⟨hlive, congrArg some hnode⟩
      | leaf hnode _ => exact ⟨hlive, congrArg some hnode⟩
    · rw [htasks] at hmem
      cases hmem

theorem World.Branches.left {core : Core Empty} {shape : BranchShape} {growth : Elongation Empty}
    {tipTasks : List (Task Empty)}
    (h : w.Branches core shape node bundle baked growth tipTasks effect)
    (hpark : Task.park work ∈ effect.allTasks) : baked = false ∧ work.anchor? = some node := by
  have hwork := Effect.continuation_of_park (fun hmem => ?_) hpark
  · rw [h.continuation] at hwork
    cases baked with
    | true => cases hwork
    | false =>
      cases hwork
      exact ⟨rfl, congrArg some h.node⟩
  · rw [h.tasks] at hmem
    rcases List.mem_append.mp hmem with hmem | hmem
    · cases h.tip with
      | none _ => cases hmem
      | call _ _ _ _ _ => cases List.mem_singleton.mp hmem
    · cases baked with
      | true => simp at hmem
      | false => simp at hmem

namespace World

theorem not_park_fork (closing : Char) :
    Task.park work ∉ (w.fork closing node bundle).allTasks := by
  rw [fork, coreOrWarn]
  cases bundle.core with
  | error missing => exact Effect.not_park_of_nothing _
  | ok core =>
    dsimp only
    split
    · simp [Effect.allTasks]
    · exact Effect.not_park_of_nothing _

/-- **A handler leaves something for later only where it acts live**, and at its own node. -/
theorem left_call {handler : Handler Empty} (hcalls : law.Calls w node bundle handler)
    (hpark : Task.park work ∈ (handler.call w node bundle baked).2.allTasks) :
    baked = false ∧ work.anchor? = some node := by
  cases hcalls with
  | @root planted _ _ =>
    exact absurd hpark (Handler.starts_call planted w node bundle baked).not_park
  | @bound seed symbol prototype s state _ hfollows hs _ _ hnode _ =>
    generalize prototype.handler = handler at hpark
    rcases handler.handsOn_or with ⟨gone, hgone⟩ | ⟨closing, rfl⟩ | ⟨shape, rfl⟩ | ⟨planted, rfl⟩
    · exact (Handler.handsOn_call hgone hfollows hs (Arena.contains_of_get? hnode) baked).left hpark
    · exact absurd hpark (not_park_fork closing)
    · rcases branch_cases_of_follows hfollows hs shape w node baked with
        ⟨-, hnone⟩ | ⟨-, growth, tipTasks, hbranches⟩
      · replace hpark : Task.park work ∈ (w.branch shape node bundle baked).allTasks := hpark
        rw [hnone] at hpark
        exact absurd hpark (Effect.not_park_of_nothing w)
      · exact hbranches.left hpark
    · exact absurd hpark (Handler.starts_call planted w node bundle baked).not_park

/-! ## Tasks -/

variable {task : Task Empty}

theorem not_park_search (sound : law.Sound) {chain : Chain Empty} (hobeys : chain.Obeys law) :
    Task.park work ∉ (w.search node chain baked).2 := by
  have hfinds := w.finds_search node chain baked
  generalize w.search node chain baked = next at hfinds ⊢
  intro hpark
  cases hfinds with
  | found hcurrent hreading =>
    obtain ⟨-, -, -, -, -, heq⟩ :=
      sound.dispatch_of_found hobeys hcurrent hreading node baked
    rw [heq] at hpark
    cases List.mem_singleton.mp hpark
  | exhausted _ _ _ => cases List.mem_singleton.mp hpark
  | _ => cases hpark

/-- **Only calls leave something for later.** -/
theorem left_perform (sound : law.Sound) (hheads : law.Heads w task) (h : Task.park work ∈ (w.perform task).2) :
    ∃ handler node bundle, task = .call handler node bundle false ∧ work.anchor? = some node := by
  rcases hheads with hobeys | ⟨handler, node, bundle, baked, rfl, hcalls⟩
  · cases task with
    | advance node chain baked => cases mem_advance h
    | search node chain baked => exact absurd h (not_park_search sound hobeys)
    | call handler node bundle baked => exact hobeys.elim
    | carryOn node chain => cases mem_carryOn h
    | ripen growth =>
      obtain ⟨chain, later, -, -, heq⟩ := growth.exists_of_mem_ripen w h
      cases heq
    | _ => cases h
  · obtain ⟨rfl, hanchor⟩ := left_call hcalls h
    exact ⟨handler, node, bundle, rfl, hanchor⟩

theorem calm_call {handler : Handler Empty} (hcalls : law.Calls w node bundle handler) :
    ∀ work ∈ (handler.call w node bundle baked).2.world.parked.toList, work ∈ w.parked.toList ∨
      ∃ scaling, work = .emergence scaling := by
  cases hcalls with
  | @root planted _ _ => exact (Handler.starts_call planted w node bundle baked).calm.parked
  | @bound seed symbol prototype s state _ hfollows hs _ _ hnode _ =>
    generalize prototype.handler = handler
    rcases handler.handsOn_or with ⟨gone, hgone⟩ | ⟨closing, rfl⟩ | ⟨shape, rfl⟩ | ⟨planted, rfl⟩
    · have hhands :=
        Handler.handsOn_call hgone hfollows hs (Arena.contains_of_get? hnode) baked
      exact hhands.1.calm.parked
    · show ∀ work ∈ (w.fork closing node bundle).world.parked.toList, _
      rw [fork_eq hfollows hs closing (congrArg (Option.map (·.symbol)) hnode)]
      split
      · exact fun _ => Or.inl
      · exact fun _ => Or.inl
    · show ∀ work ∈ (w.branch shape node bundle baked).world.parked.toList, _
      rcases branch_cases_of_follows hfollows hs shape w node baked with
        ⟨-, hnone⟩ | ⟨-, growth, tipTasks, hbranches⟩
      · rw [hnone]
        exact fun _ => Or.inl
      · exact hbranches.calm.parked
    · exact (Handler.starts_call planted w node bundle baked).calm.parked

/-- **What is parked** was parked before or was to be parked, is an instance that grows in or a
dispatch that is due. -/
theorem parked_perform (sound : law.Sound) (hheads : law.Heads w task) {work : Continuation Empty}
    (h : work ∈ (w.perform task).1.parked.toList) : work ∈ w.parked.toList ∨ task = .park work ∨
      (∃ scaling, work = .emergence scaling) ∨ ∃ next, work = .dispatch next := by
  have hcalm {later : World Empty} (hcalm : w.Calm later) (hmem : work ∈ later.parked.toList) :
      work ∈ w.parked.toList ∨ task = .park work ∨
        (∃ scaling, work = .emergence scaling) ∨ ∃ next, work = .dispatch next :=
    (hcalm.parked work hmem).imp_right fun hscaling => Or.inr (Or.inl hscaling)
  have hpush {other : Continuation Empty} (hmem : work ∈ (w.park other).parked.toList) :
      work ∈ w.parked.toList ∨ work = other := by
    rw [park, Array.toList_push] at hmem
    exact (List.mem_append.mp hmem).imp_right List.mem_singleton.mp
  rcases hheads with hobeys | ⟨handler, node, bundle, baked, rfl, hcalls⟩
  · cases task with
    | advance node chain baked =>
      replace h : work ∈ (w.advance node chain baked).1.parked.toList := h
      rw [fst_advance] at h
      exact Or.inl h
    | search node chain baked =>
      have hfinds := w.finds_search node chain baked
      replace h : work ∈ (w.search node chain baked).1.parked.toList := h
      generalize w.search node chain baked = next at hfinds h
      cases hfinds with
      | found hcurrent hreading =>
        obtain ⟨-, -, -, -, -, heq⟩ :=
          sound.dispatch_of_found hobeys hcurrent hreading node baked
        rw [heq] at h
        exact Or.inl h
      | _ => exact Or.inl h
    | call handler node bundle baked => exact hobeys.elim
    | carryOn node chain =>
      replace h : work ∈ (w.carryOn node chain).1.parked.toList := h
      rcases w.carryOn_cases node chain with ⟨heq, -⟩ | ⟨heq, -⟩
      · rw [heq] at h
        exact Or.inl h
      · rw [heq] at h
        exact (hpush h).imp_right fun hnext => Or.inr (Or.inr ⟨_, hnext⟩)
    | destroy node => exact Or.inl h
    | park other => exact (hpush h).imp_right fun heq => Or.inl (congrArg Task.park heq.symm)
    | carryTip growth => exact hcalm (growth.quiet_carryTip w).calm h
    | ripen growth => exact hcalm (growth.quiet_ripen w).calm h
    | publish prefab => exact hcalm (calm_publish w prefab) h
  · exact (calm_call hcalls work h).imp_right fun hscaling => Or.inr (Or.inl hscaling)

end World

/-- A continuation that is resumed parks nothing. -/
theorem Continuation.not_park_resume (work : Continuation Empty) (w : World Empty)
    {other : Continuation Empty} : Task.park other ∉ (work.resume w).tasks := by
  intro hpark
  rcases work.exists_of_mem_resume w hpark with
    ⟨node, heq⟩ | ⟨node, chain, later, -, -, -, ⟨baked, heq⟩ | heq⟩
  · cases heq
  · cases heq
  · cases heq

end PlantGrowth
