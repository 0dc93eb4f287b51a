import PlantGrowth.Proofs.Calls
import PlantGrowth.Proofs.Leaves

/-!
# What pending work names

A task or a continuation names the nodes that it may write to, and so may the bundles that it hands
on: a branch leaves the next branch of its chain a callback that names it. Which nodes are named does
not grow on its own, so a node that no pending work names is never written to again unless it is made
anew.

Some work *holds* a node, which is to say that the node is going to be destroyed by it.
-/

namespace PlantGrowth

variable {H : Type}

/-! ## Names -/

/-- The branch that is told a radius. -/
def Callback.mentioned : Callback H → List NodeId
  | .topRadius node _ => [node]
  | .host _ => []

/-- The nodes that a bundle names. -/
def Bundle.mentioned (bundle : Bundle H) : List NodeId :=
  (bundle.callback? Key.growLoop).toList.flatMap Callback.mentioned

/-- The nodes that a chain names. -/
def Chain.mentioned (chain : Chain H) : List NodeId := chain.bundle.mentioned

/-- The nodes that a growing branch names. -/
def Elongation.mentioned (growth : Elongation H) : List NodeId :=
  growth.node :: (growth.tip.toList ++ (growth.callback.toList.flatMap Callback.mentioned ++
    growth.work.toList.flatMap Chain.mentioned))

/-- The nodes that a continuation names. -/
def Continuation.mentioned : Continuation H → List NodeId
  | .dispatch next => next.predecessor :: next.work.toList.flatMap Chain.mentioned
  | .wait delay => delay.node :: delay.work.toList.flatMap Chain.mentioned
  | .branch growth => growth.mentioned
  | .leaf unfolding => unfolding.node :: unfolding.work.toList.flatMap Chain.mentioned
  | .emergence scaling => [scaling.node]
  | .host _ => []

/-- The nodes that a task names. -/
def Task.mentioned : Task H → List NodeId
  | .advance predecessor chain _ => predecessor :: chain.mentioned
  | .search predecessor chain _ => predecessor :: chain.mentioned
  | .call _ node bundle _ => node :: bundle.mentioned
  | .carryOn node chain => node :: chain.mentioned
  | .destroy node => [node]
  | .park work => work.mentioned
  | .carryTip growth => growth.mentioned
  | .ripen growth => growth.mentioned
  | .publish prefab => [prefab.node]

/-! ## Holdings -/

/-- Does the handler act at ethereal nodes? -/
def Handler.isEthereal : Handler H → Bool
  | .fork _ => true
  | .pause .. => true
  | .turnRotation .. => true
  | .turnHeading .. => true
  | _ => false

/-- The nodes that a continuation is going to destroy. -/
def Continuation.held : Continuation H → List NodeId
  | .wait delay => [delay.node]
  | _ => []

/-- The nodes that a task is going to destroy. -/
def Task.held : Task H → List NodeId
  | .call handler node _ _ => if handler.isEthereal then [node] else []
  | .destroy node => [node]
  | .park work => work.held
  | _ => []

/-- Work names what it holds. -/
theorem Continuation.held_subset (work : Continuation H) : work.held ⊆ work.mentioned := by
  intro id hid
  cases work with
  | wait delay =>
    rw [List.mem_singleton.mp hid]
    exact List.mem_cons_self
  | _ => cases hid

theorem Task.held_subset (task : Task H) : task.held ⊆ task.mentioned := by
  intro id hid
  cases task with
  | call handler node bundle baked =>
    simp only [held] at hid
    split at hid
    · rw [List.mem_singleton.mp hid]
      exact List.mem_cons_self
    · cases hid
  | destroy node => exact hid
  | park work => exact work.held_subset hid
  | _ => cases hid

/-! ## Bundles -/

namespace Bundle

variable {bundle : Bundle H} {key other : String} {value : Value H}

theorem mentioned_of_find? {later : Bundle H}
    (h : later.find? Key.growLoop = bundle.find? Key.growLoop) : later.mentioned = bundle.mentioned := by
  unfold mentioned callback?
  rw [h]

theorem mentioned_write (h : key ≠ Key.growLoop) (bundle : Bundle H) (value : Value H) :
    (bundle.write key value).mentioned = bundle.mentioned :=
  mentioned_of_find? (find?_write_of_ne h.symm bundle value)

theorem mentioned_add (h : key ≠ Key.growLoop) (bundle : Bundle H) (value : Value H) :
    (bundle.add key value).2.mentioned = bundle.mentioned := by
  refine mentioned_of_find? ?_
  rw [find?_add, if_neg fun hnew => h hnew.1.symm]

/-- A callback that is written is named, and nothing else is that was not. -/
theorem mem_mentioned_write {callback : Callback H} {id : NodeId}
    (h : id ∈ (bundle.write Key.growLoop (.callback callback)).mentioned) :
    id ∈ callback.mentioned ∨ id ∈ bundle.mentioned := by
  have hinsert : id ∈ (bundle.insert Key.growLoop (.callback callback)).mentioned →
      id ∈ callback.mentioned := by
    unfold mentioned callback?
    rw [find?_insert, if_pos rfl]
    intro hid
    simpa using hid
  by_cases htakes : bundle.Takes Key.growLoop (Value.callback callback).kind
  · rw [write_of_takes htakes] at h
    exact Or.inl (hinsert h)
  · rw [write_of_not_takes htakes] at h
    exact Or.inr h

end Bundle

/-! ## Chains -/

theorem Seed.mentioned_chain (seed : Seed H) (position : Vec3) (bundle : Bundle H) :
    (seed.chain position bundle).mentioned = bundle.mentioned := by
  rw [Chain.mentioned, Seed.chain_eq, Seed.orient]
  have hentered : (seed.enter bundle).mentioned = bundle.mentioned := by
    unfold enter
    rw [Bundle.mentioned_write (by decide), Bundle.mentioned_write (by decide),
      Bundle.mentioned_write (by decide), Bundle.mentioned_write (by decide),
      Bundle.mentioned_write (by decide)]
  dsimp only
  split
  · rw [Bundle.mentioned_add (by decide), Bundle.mentioned_add (by decide), hentered]
  · rw [Bundle.mentioned_write (by decide), Bundle.mentioned_add (by decide), hentered]

theorem Chain.mentioned_renew {usual : Nat} {chain later : Chain H}
    (h : chain.renew? usual = some later) : later.mentioned = chain.mentioned := by
  simp only [Chain.renew?] at h
  split at h
  · cases h
  · cases h
    rw [Chain.mentioned, Bundle.mentioned_write (by decide), Bundle.mentioned_write (by decide)]
    rfl

theorem Chain.Current.mentioned {usual : Nat} {chain current : Chain H}
    (h : chain.Current usual current) : current.mentioned = chain.mentioned := by
  cases h with
  | same _ => rfl
  | renewed _ hrenew => exact Chain.mentioned_renew hrenew

theorem Unfolding.mentioned_handOn (unfolding : Unfolding H) (bundle : Bundle H) :
    (unfolding.handOn bundle).mentioned = bundle.mentioned := by
  unfold handOn
  rw [Bundle.mentioned_write (by decide), Bundle.mentioned_write (by decide),
    Bundle.mentioned_write (by decide)]

/-- **A branch makes the next one name it**, and nothing else that was not named. -/
theorem Elongation.mem_mentioned_handOn {growth : Elongation H} {bundle : Bundle H} {id : NodeId}
    (h : id ∈ (growth.handOn bundle).mentioned) : id = growth.node ∨ id ∈ bundle.mentioned := by
  unfold handOn at h
  rcases Bundle.mem_mentioned_write h with hnode | hold
  · exact Or.inl (List.mem_singleton.mp hnode)
  · rw [Bundle.mentioned_write (by decide), Bundle.mentioned_write (by decide),
      Bundle.mentioned_write (by decide), Bundle.mentioned_write (by decide)] at hold
    exact Or.inr hold

/-! ## Calls -/

/-- The tasks name no other nodes than these. -/
def Task.Within (ids : List NodeId) (tasks : List (Task H)) : Prop :=
  ∀ task ∈ tasks, task.mentioned ⊆ ids

namespace Task.Within

variable {ids : List NodeId} {task : Task H} {tasks more : List (Task H)}

theorem nil : Within ids ([] : List (Task H)) := by
  intro task htask
  cases htask

theorem cons (h : task.mentioned ⊆ ids) (h' : Within ids tasks) : Within ids (task :: tasks) := by
  intro other hother
  rcases List.mem_cons.mp hother with rfl | hmem
  · exact h
  · exact h' other hmem

theorem append (h : Within ids tasks) (h' : Within ids more) : Within ids (tasks ++ more) := by
  intro task htask
  rcases List.mem_append.mp htask with hmem | hmem
  · exact h task hmem
  · exact h' task hmem

end Task.Within

namespace World

variable {w : World H} {node : NodeId} {bundle later : Bundle H} {baked : Bool}

theorem within_carryOn (core : Core H) (h : later.mentioned ⊆ bundle.mentioned) :
    Task.Within (node :: bundle.mentioned) [.carryOn node { core, bundle := later }] :=
  Task.Within.nil.cons (List.cons_subset_cons node h)

theorem within_destroy (node : NodeId) (ids : List NodeId) :
    Task.Within (node :: ids) ([.destroy node] : List (Task H)) :=
  Task.Within.nil.cons (List.cons_subset_cons node (List.nil_subset ids))

theorem within_carryOnOrWarn (handler : String) (core : Except MissingEntry (Core H))
    (h : later.mentioned ⊆ bundle.mentioned) :
    Task.Within (node :: bundle.mentioned)
      (andDestroy node (w.carryOnOrWarn handler node core later)).allTasks ∧
    Task.Within (node :: bundle.mentioned) (w.carryOnOrWarn handler node core later).allTasks := by
  cases core with
  | ok core => exact ⟨(within_carryOn core h).append (within_destroy node _), within_carryOn core h⟩
  | error missing => exact ⟨within_destroy node _, Task.Within.nil⟩

theorem within_leaf (w : World H) (shape : LeafShape) (node : NodeId) (bundle : Bundle H)
    (baked : Bool) :
    Task.Within (node :: bundle.mentioned) (w.leaf shape node bundle baked).allTasks := by
  have hfinish {unfolding : Unfolding H} (hbuds : unfolding.Buds shape node bundle) (later : World H)
      (blade : Option Blade) : Task.Within (node :: bundle.mentioned)
        (Effect.allTasks { world := (unfolding.finish later blade).world
                           tasks := (unfolding.finish later blade).tasks }) := by
    obtain ⟨rfl, -, core, hwork⟩ := hbuds
    simp only [Unfolding.finish, hwork, Effect.allTasks]
    refine within_carryOn core ?_
    rw [unfolding.mentioned_handOn]
    exact List.Subset.refl _
  have hunfolds := w.unfolds_leaf shape node bundle baked
  generalize w.leaf shape node bundle baked = effect at hunfolds ⊢
  cases hunfolds with
  | nothing _ _ => exact Task.Within.nil
  | bakes hbuds _ => exact hfinish hbuds _ _
  | ripe hbuds => exact hfinish hbuds _ _
  | begins hbuds =>
    obtain ⟨rfl, -, core, hwork⟩ := hbuds
    refine Task.Within.nil.cons (List.cons_subset_cons _ fun id hid => ?_)
    simpa [hwork, Chain.mentioned] using hid

end World

/-- **A handler that hands its chain on names no other nodes than it was given.** -/
theorem Handler.within_call [Host H] {handler : Handler H} {gone : Bool}
    (hhandler : handler.handsOn? = some gone) (w : World H) (node : NodeId) (bundle : Bundle H)
    (baked : Bool) :
    Task.Within (node :: bundle.mentioned) (handler.call w node bundle baked).2.allTasks := by
  have hsame : bundle.mentioned ⊆ bundle.mentioned := List.Subset.refl _
  cases handler with
  | pause minSeconds maxSeconds =>
    show Task.Within _ (w.pause minSeconds maxSeconds node bundle baked).allTasks
    unfold World.pause
    split
    · exact Task.Within.nil
    next core _ _ =>
      cases baked with
      | true => exact (World.within_carryOn core hsame).append (World.within_destroy node _)
      | false =>
        refine Task.Within.nil.cons (List.cons_subset_cons node fun id hid => ?_)
        simpa [Chain.mentioned] using hid
  | turnRotation eulerMin eulerMax =>
    show Task.Within _ (w.turnRotation eulerMin eulerMax node bundle).allTasks
    unfold World.turnRotation
    dsimp only
    split
    · refine (World.within_carryOnOrWarn _ _ ?_).1
      rw [Bundle.mentioned_write (by decide)]
      exact hsame
    · exact (World.within_carryOnOrWarn _ _ hsame).1
  | turnHeading axis angleMin angleMax =>
    show Task.Within _ (w.turnHeading axis angleMin angleMax node bundle).allTasks
    unfold World.turnHeading
    dsimp only
    split
    · refine (World.within_carryOnOrWarn _ _ ?_).1
      split
      · rw [Bundle.mentioned_write (by decide)]
        exact hsame
      · exact hsame
    · exact (World.within_carryOnOrWarn _ _ hsame).1
  | move distanceMin distanceMax =>
    show Task.Within _ (w.move distanceMin distanceMax node bundle).allTasks
    unfold World.move
    dsimp only
    split
    · exact (World.within_carryOnOrWarn _ _ hsame).2
    · exact (World.within_carryOnOrWarn _ _ hsame).2
  | leaf shape => exact w.within_leaf shape node bundle baked
  | fork closing => cases hhandler
  | branch shape => cases hhandler
  | seed planted => cases hhandler
  | host foreign => cases hhandler

/-- A handler's node is gone after the chain was handed on exactly if it is ethereal. -/
theorem Handler.gone_of_handsOn? {handler : Handler H} {gone : Bool}
    (h : handler.handsOn? = some gone) : gone = handler.isEthereal := by
  cases handler with
  | pause minSeconds maxSeconds =>
    cases h
    rfl
  | turnRotation eulerMin eulerMax =>
    cases h
    rfl
  | turnHeading axis angleMin angleMax =>
    cases h
    rfl
  | move distanceMin distanceMax =>
    cases h
    rfl
  | leaf shape =>
    cases h
    rfl
  | fork closing => cases h
  | branch shape => cases h
  | seed planted => cases h
  | host foreign => cases h

theorem World.continuation_carryOnOrWarn (w : World H) (handler : String) (node : NodeId)
    (core : Except MissingEntry (Core H)) (bundle : Bundle H) :
    (w.carryOnOrWarn handler node core bundle).continuation = none := by
  cases core with
  | ok core => rfl
  | error missing => rfl

/-- Turns do not wait. -/
theorem World.continuation_turnRotation (w : World H) (eulerMin eulerMax : Vec3) (node : NodeId)
    (bundle : Bundle H) : (w.turnRotation eulerMin eulerMax node bundle).continuation = none := by
  unfold turnRotation andDestroy
  dsimp only
  split
  · exact World.continuation_carryOnOrWarn _ _ _ _ _
  · exact World.continuation_carryOnOrWarn _ _ _ _ _

theorem World.continuation_turnHeading (w : World H) (axis : Vec3) (angleMin angleMax : Float)
    (node : NodeId) (bundle : Bundle H) :
    (w.turnHeading axis angleMin angleMax node bundle).continuation = none := by
  unfold turnHeading andDestroy
  dsimp only
  split
  · exact World.continuation_carryOnOrWarn _ _ _ _ _
  · exact World.continuation_carryOnOrWarn _ _ _ _ _

/-- **Only pauses hand their chains on later and are gone then.** -/
theorem Handler.pause_of_continuation [Host H] {handler : Handler H}
    (hhandler : handler.handsOn? = some true) {w : World H} {node : NodeId} {bundle : Bundle H}
    {baked : Bool} {work : Continuation H}
    (h : (handler.call w node bundle baked).2.continuation = some work) :
    ∃ minSeconds maxSeconds, handler = .pause minSeconds maxSeconds := by
  cases handler with
  | pause minSeconds maxSeconds => exact ⟨minSeconds, maxSeconds, rfl⟩
  | turnRotation eulerMin eulerMax =>
    have hnone := w.continuation_turnRotation eulerMin eulerMax node bundle
    exact absurd (hnone.symm.trans h) (by simp)
  | turnHeading axis angleMin angleMax =>
    have hnone := w.continuation_turnHeading axis angleMin angleMax node bundle
    exact absurd (hnone.symm.trans h) (by simp)
  | move distanceMin distanceMax => cases hhandler
  | leaf shape => cases hhandler
  | fork closing => cases hhandler
  | branch shape => cases hhandler
  | seed planted => cases hhandler
  | host foreign => cases hhandler

/-! ## Branches and continuations -/

section

variable {growth : Elongation H} {id : NodeId}

theorem Elongation.node_mem_mentioned : growth.node ∈ growth.mentioned := List.mem_cons_self

theorem Elongation.tip_mem_mentioned (h : growth.tip = some id) : id ∈ growth.mentioned := by
  simp [mentioned, h]

theorem Elongation.callback_mem_mentioned {callback : Callback H}
    (h : growth.callback = some callback) (hid : id ∈ callback.mentioned) : id ∈ growth.mentioned := by
  simp [mentioned, h, hid]

theorem Elongation.work_mem_mentioned {chain : Chain H} (h : growth.work = some chain)
    (hid : id ∈ chain.mentioned) : id ∈ growth.mentioned := by
  simp [mentioned, h, hid]

/-- A branch that is full-grown names no other nodes. -/
theorem Elongation.within_finish [Host H] (growth : Elongation H) (w : World H) :
    Task.Within growth.mentioned (growth.finish w).tasks := by
  unfold finish
  dsimp only
  split
  next chain hwork =>
    refine Task.Within.nil.cons fun id hid => ?_
    rcases List.mem_cons.mp hid with rfl | hid
    · exact node_mem_mentioned
    · rcases mem_mentioned_handOn hid with rfl | hold
      · exact node_mem_mentioned
      · exact work_mem_mentioned hwork hold
  next => exact Task.Within.nil

/-- A branch that has handed its chain on names fewer nodes. -/
theorem Elongation.mentioned_grown (growth : Elongation H) :
    (Continuation.branch { growth with bottomRadius := growth.radius, work := none }).mentioned ⊆
      growth.mentioned := by
  intro id hid
  simp only [Continuation.mentioned, mentioned, Option.toList_none, List.flatMap_nil,
    List.append_nil, List.mem_cons, List.mem_append] at hid ⊢
  rcases hid with h | h | h
  · exact Or.inl h
  · exact Or.inr (Or.inl h)
  · exact Or.inr (Or.inr (Or.inl h))

/-- **A continuation that is resumed names no other nodes than before**, nor does what it sets off. -/
theorem Continuation.within_resume [Host H] (work : Continuation H) (w : World H) :
    Task.Within work.mentioned (work.resume w).tasks ∧
      (work.resume w).continuation.mentioned ⊆ work.mentioned := by
  have hresumes := work.resumes w
  generalize work.resume w = resumption at hresumes ⊢
  cases hresumes with
  | due next =>
    refine ⟨?_, List.cons_subset_cons _ (List.nil_subset _)⟩
    simp only [mentioned]
    split
    next chain hwork => exact Task.Within.nil.cons (List.cons_subset_cons _ (by simp [hwork]))
    next => exact Task.Within.nil
  | late delay =>
    refine ⟨?_, List.cons_subset_cons _ (List.nil_subset _)⟩
    simp only [mentioned]
    split
    next chain hwork =>
      exact (World.within_destroy _ _).cons (List.cons_subset_cons _ (by simp [hwork]))
    next => exact World.within_destroy _ _
  | grown growth => exact ⟨growth.within_finish w, growth.mentioned_grown⟩
  | unfolded unfolding blade =>
    refine ⟨?_, List.cons_subset_cons _ (List.nil_subset _)⟩
    simp only [Unfolding.finish]
    split
    next chain hwork =>
      refine Task.Within.nil.cons (List.cons_subset_cons _ ?_)
      rw [Chain.mentioned, unfolding.mentioned_handOn]
      simp [hwork, Chain.mentioned]
    next => exact Task.Within.nil
  | _ => exact ⟨Task.Within.nil, List.Subset.refl _⟩

end

end PlantGrowth
