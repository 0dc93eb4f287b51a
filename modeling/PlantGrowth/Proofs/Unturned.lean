import PlantGrowth.Proofs.Law
import PlantGrowth.Proofs.Leaves
import PlantGrowth.Proofs.Steps

/-!
# Rotations turn nothing in a garden

A rotation multiplies the rotation that its bundle carries; if the bundle carries none it warns and
hands the bundle on as it is. No handler brings a rotation into a bundle that has none: seeds write
the heading and the position, branches and leaves their sizes, and a rotation only writes over what
is there. A plant is planted with an empty bundle. So of the two cases of a rotation only the second
one ever comes up in a garden.

* `World.turnRotation_of_carried`, `World.turnRotation_of_missing`: what a rotation does;
* `Task.Unturned`: no bundle of a task carries a rotation, which every task and every resumption
  passes on (`World.unturned_perform`, `Continuation.unturned_resume`);
* `Garden.turns_nothing`: every rotation of a garden misses what it is to turn.
-/

namespace PlantGrowth

/-! ## What a rotation does -/

namespace World

variable {H : Type} {w : World H} {node : NodeId} {bundle : Bundle H} {core : Core H}

/-- **A rotation that is carried along is turned**, and goes along with the chain. -/
theorem turnRotation_of_carried (hcore : bundle.core = .ok core) {rotation : Rotation}
    (h : bundle.rotation? Key.rotation = some rotation) (w : World H) (eulerMin eulerMax : Vec3)
    (node : NodeId) :
    w.turnRotation eulerMin eulerMax node bundle =
      { world := (w.drawRotation eulerMin eulerMax).2
        tasks :=
          [.carryOn node
            { core
              bundle := bundle.write Key.rotation
                (.rotation (rotation.mul (w.drawRotation eulerMin eulerMax).1)) },
            .destroy node] } := by
  rw [turnRotation, hcore, h]
  rfl

/-- A rotation that has nothing to turn warns, draws no numbers and hands the bundle on as it is. -/
theorem turnRotation_of_missing (hcore : bundle.core = .ok core)
    (h : bundle.rotation? Key.rotation = none) (w : World H) (eulerMin eulerMax : Vec3)
    (node : NodeId) :
    w.turnRotation eulerMin eulerMax node bundle =
      { world := w.warn (.nothingToTurn node Key.rotation)
        tasks := [.carryOn node { core, bundle }, .destroy node] } := by
  rw [turnRotation, hcore, h]
  rfl

end World

/-- A rotation that is written over another one is found. -/
theorem Bundle.rotation?_write {H : Type} {bundle : Bundle H} {key : String} {old : Rotation}
    (h : bundle.rotation? key = some old) (new : Rotation) :
    (bundle.write key (.rotation new)).rotation? key = some new := by
  have htakes : bundle.Takes key (Value.rotation (H := H) new).kind := by
    intro value hvalue
    rw [rotation?, hvalue] at h
    split at h
    next heq =>
      cases heq
      rfl
    next => cases h
  rw [rotation?, find?_write_self htakes]

/-! ## Bundles without a rotation -/

/-- There is no rotation in the bundle, and nothing else under that name. -/
def Bundle.Unturned (bundle : Bundle Empty) : Prop := bundle.find? Key.rotation = none

namespace Bundle.Unturned

variable {bundle : Bundle Empty} {key : String}

theorem rotation?_eq (h : bundle.Unturned) : bundle.rotation? Key.rotation = none := by
  have hnone : bundle.find? Key.rotation = none := h
  rw [rotation?, hnone]

theorem write (h : bundle.Unturned) (hne : Key.rotation ≠ key) (value : Value Empty) :
    (bundle.write key value).Unturned :=
  (find?_write_of_ne hne bundle value).trans h

theorem add (h : bundle.Unturned) (hne : Key.rotation ≠ key) (value : Value Empty) :
    (bundle.add key value).2.Unturned := by
  have hnone : bundle.find? Key.rotation = none := h
  rw [Bundle.Unturned, find?_add, if_neg (fun heq => hne heq.1)]
  exact hnone

end Bundle.Unturned

/-- The chain's bundle carries no rotation. -/
def Chain.Unturned (chain : Chain Empty) : Prop := chain.bundle.Unturned

/-- The chain that waits, if any, carries no rotation. -/
def Continuation.Unturned (work : Continuation Empty) : Prop :=
  ∀ chain, work.chain? = some chain → chain.Unturned

/-- No bundle that a task hands on or calls a handler with carries a rotation. -/
def Task.Unturned : Task Empty → Prop
  | .advance _ chain _ => chain.Unturned
  | .search _ chain _ => chain.Unturned
  | .call _ _ bundle _ => bundle.Unturned
  | .carryOn _ chain => chain.Unturned
  | .destroy _ => True
  | .park work => work.Unturned
  | .carryTip growth => (Continuation.branch growth).Unturned
  | .ripen growth => (Continuation.branch growth).Unturned
  | .publish _ => True

/-! ### What is written on the way -/

section Writes

variable {bundle : Bundle Empty} {chain later : Chain Empty}

/-- A seed writes a heading, and no rotation. -/
theorem Seed.unturned_chain (seed : Seed Empty) (position : Vec3) (h : bundle.Unturned) :
    (seed.chain position bundle).Unturned := by
  rw [Chain.Unturned, Seed.chain]
  dsimp only
  split
  · refine .add (.add (.write (.write (.write (.write (.write h ?_ _) ?_ _) ?_ _) ?_ _) ?_ _) ?_ _)
      ?_ _ <;> decide
  · refine .write (.add (.write (.write (.write (.write (.write h ?_ _) ?_ _) ?_ _) ?_ _) ?_ _) ?_ _)
      ?_ _ <;> decide

theorem Chain.Unturned.renew (h : chain.Unturned) {usual : Nat}
    (hrenew : chain.renew? usual = some later) : later.Unturned := by
  rw [Chain.renew?] at hrenew
  dsimp only at hrenew
  split at hrenew
  · cases hrenew
  · cases hrenew
    exact (Bundle.Unturned.write h (by decide) _).write (by decide) _

theorem Elongation.unturned_handOn (growth : Elongation Empty) (h : bundle.Unturned) :
    (growth.handOn bundle).Unturned :=
  ((((h.write (by decide) _).write (by decide) _).write (by decide) _).write (by decide) _).write
    (by decide) _

theorem Unfolding.unturned_handOn (unfolding : Unfolding Empty) (h : bundle.Unturned) :
    (unfolding.handOn bundle).Unturned :=
  ((h.write (by decide) _).write (by decide) _).write (by decide) _

theorem Elongation.unturned_finish (growth : Elongation Empty)
    (h : (Continuation.branch growth).Unturned) (w : World Empty) :
    ∀ task ∈ (growth.finish w).tasks, task.Unturned := by
  intro task htask
  simp only [finish] at htask
  cases hwork : growth.work with
  | none =>
    rw [hwork] at htask
    cases htask
  | some chain =>
    rw [hwork] at htask
    rw [List.mem_singleton.mp htask]
    exact unturned_handOn _ (h chain hwork)

theorem Elongation.unturned_ripen (growth : Elongation Empty)
    (h : (Continuation.branch growth).Unturned) (w : World Empty) :
    ∀ task ∈ (growth.ripen w).2, task.Unturned :=
  growth.unturned_finish h (w.mapNodes (·.place growth.node fun t =>
    { t with position := growth.origin.add (growth.direction.scale growth.length) }))

theorem Unfolding.unturned_finish (unfolding : Unfolding Empty)
    (h : (Continuation.leaf unfolding).Unturned) (w : World Empty) (blade : Option Blade) :
    ∀ task ∈ (unfolding.finish w blade).tasks, task.Unturned := by
  intro task htask
  simp only [finish] at htask
  cases hwork : unfolding.work with
  | none =>
    rw [hwork] at htask
    cases htask
  | some chain =>
    rw [hwork] at htask
    rw [List.mem_singleton.mp htask]
    exact unturned_handOn _ (h chain hwork)

end Writes

/-! ### Calls -/

/-- Neither what an effect sets off nor what it leaves for later carries a rotation. -/
structure Effect.Unturned (w : World Empty) (effect : Effect Empty) : Prop where
  tasks : ∀ task ∈ effect.tasks, task.Unturned
  continuation : ∀ work, effect.continuation = some work → work.Unturned
  parked : ∀ work ∈ effect.world.parked.toList, work ∈ w.parked.toList ∨ work.Unturned

/-- The task that parks what is left for later carries no rotation either. -/
theorem Effect.Unturned.allTasks {w : World Empty} {effect : Effect Empty} (h : effect.Unturned w) :
    ∀ task ∈ effect.allTasks, task.Unturned := by
  intro task htask
  rw [Effect.allTasks] at htask
  cases hwork : effect.continuation with
  | none =>
    rw [hwork] at htask
    exact h.tasks task htask
  | some work =>
    rw [hwork] at htask
    rcases List.mem_append.mp htask with hmem | hlast
    · exact h.tasks task hmem
    · rw [List.mem_singleton.mp hlast]
      exact h.continuation work hwork

theorem World.Calm.unturned {w later : World Empty} (h : w.Calm later) :
    ∀ work ∈ later.parked.toList, work ∈ w.parked.toList ∨ work.Unturned := by
  intro work hwork
  rcases h.parked work hwork with hold | ⟨scaling, rfl⟩
  · exact Or.inl hold
  · exact Or.inr fun chain hchain => by cases hchain

namespace World

variable {w later : World Empty} {node : NodeId} {bundle : Bundle Empty}

theorem unturned_of_nothing (hparked : later.parked = w.parked) :
    Effect.Unturned w { world := later } where
  tasks task htask := by cases htask
  continuation work hwork := by cases hwork
  parked work hwork := Or.inl (hparked ▸ hwork)

theorem unturned_fork (h : bundle.Unturned) (closing : Char) :
    (w.fork closing node bundle).Unturned w := by
  rw [fork, coreOrWarn]
  cases hcore : bundle.core with
  | error missing => exact unturned_of_nothing rfl
  | ok core =>
    dsimp only
    split
    · refine ⟨fun task htask => ?_, fun work hwork => (by cases hwork), fun work => Or.inl⟩
      simp only [List.mem_cons, List.not_mem_nil, or_false] at htask
      rcases htask with rfl | rfl | rfl
      · exact h
      · exact h
      · trivial
    · exact unturned_of_nothing rfl

theorem unturned_pause (h : bundle.Unturned) (minSeconds maxSeconds : Float) (baked : Bool) :
    (w.pause minSeconds maxSeconds node bundle baked).Unturned w := by
  rw [pause, coreOrWarn]
  cases hcore : bundle.core with
  | error missing => exact unturned_of_nothing rfl
  | ok core =>
    cases baked with
    | true =>
      refine ⟨fun task htask => ?_, fun work hwork => (by cases hwork), fun work => Or.inl⟩
      rcases List.mem_pair.mp htask with rfl | rfl
      · exact h
      · trivial
    | false =>
      refine ⟨fun task htask => (by cases htask), fun work hwork => ?_, fun work => Or.inl⟩
      cases hwork
      intro chain hchain
      cases hchain
      exact h

theorem unturned_carryOnOrWarn (hparked : later.parked = w.parked) (h : bundle.Unturned)
    (title : String) (core : Except MissingEntry (Core Empty)) :
    (later.carryOnOrWarn title node core bundle).Unturned w := by
  cases core with
  | error missing => exact unturned_of_nothing hparked
  | ok core =>
    refine ⟨fun task htask => ?_, fun work hwork => (by cases hwork), fun work hwork => ?_⟩
    · rw [List.mem_singleton.mp htask]
      exact h
    · exact Or.inl (hparked ▸ hwork)

theorem unturned_andDestroy {effect : Effect Empty} (h : effect.Unturned w) :
    (andDestroy node effect).Unturned w := by
  refine ⟨fun task htask => ?_, h.continuation, h.parked⟩
  rcases List.mem_append.mp htask with htask | htask
  · exact h.tasks task htask
  · rw [List.mem_singleton.mp htask]
    trivial

theorem unturned_turnRotation (h : bundle.Unturned) (eulerMin eulerMax : Vec3) :
    (w.turnRotation eulerMin eulerMax node bundle).Unturned w := by
  rw [turnRotation, h.rotation?_eq]
  refine unturned_andDestroy (unturned_carryOnOrWarn ?_ h _ _)
  rfl

theorem unturned_turnHeading (h : bundle.Unturned) (axis : Vec3) (angleMin angleMax : Float) :
    (w.turnHeading axis angleMin angleMax node bundle).Unturned w := by
  rw [turnHeading]
  refine unturned_andDestroy ?_
  dsimp only
  split
  · refine unturned_carryOnOrWarn ?_ ?_ _ _
    · rfl
    · split
      · exact h.write (by decide) _
      · exact h
  · refine unturned_carryOnOrWarn ?_ h _ _
    rfl

theorem unturned_move (h : bundle.Unturned) (distanceMin distanceMax : Float) :
    (w.move distanceMin distanceMax node bundle).Unturned w := by
  rw [move]
  dsimp only
  split
  · refine unturned_carryOnOrWarn ?_ h _ _
    rfl
  · refine unturned_carryOnOrWarn ?_ h _ _
    rfl

theorem unturned_branch (h : bundle.Unturned) (shape : BranchShape) (baked : Bool) :
    (w.branch shape node bundle baked).Unturned w := by
  cases hcore : bundle.core with
  | error missing =>
    rw [branch, coreOrWarn, hcore]
    exact unturned_of_nothing rfl
  | ok core =>
    cases hheading : bundle.vec3? Key.heading with
    | none =>
      rw [branch, coreOrWarn, hcore, hheading]
      exact unturned_of_nothing rfl
    | some heading =>
      rcases branch_cases hcore hheading shape w node baked with
        ⟨-, hnothing⟩ | ⟨-, growth, tipTasks, hbranches⟩
      · rw [hnothing]
        exact unturned_of_nothing rfl
      · have hgrowth : (Continuation.branch growth).Unturned := by
          intro chain hchain
          rw [← Option.some.inj (hbranches.work.symm.trans hchain)]
          exact h
        refine ⟨fun task htask => ?_, fun work hwork => ?_, hbranches.calm.unturned⟩
        · rw [hbranches.tasks] at htask
          rcases List.mem_append.mp htask with htip | htask
          · cases hbranches.tip with
            | none _ => cases htip
            | call _ _ _ _ _ =>
              rw [List.mem_singleton.mp htip]
              exact h
          · cases baked with
            | true =>
              rcases List.mem_pair.mp htask with rfl | rfl
              · exact hgrowth
              · exact hgrowth
            | false =>
              rw [List.mem_singleton.mp htask]
              exact hgrowth
        · rw [hbranches.continuation] at hwork
          cases baked with
          | true => cases hwork
          | false =>
            cases hwork
            exact hgrowth

theorem unturned_finish {unfolding : Unfolding Empty} (h : (Continuation.leaf unfolding).Unturned)
    (hparked : later.parked = w.parked) (blade : Option Blade) :
    Effect.Unturned w { world := (unfolding.finish later blade).world
                        tasks := (unfolding.finish later blade).tasks } :=
  ⟨unfolding.unturned_finish h later blade, fun work hwork => (by cases hwork),
    fun work hwork => Or.inl (hparked ▸ hwork)⟩

theorem unturned_leaf (h : bundle.Unturned) (shape : LeafShape) (baked : Bool) :
    (w.leaf shape node bundle baked).Unturned w := by
  have hleaf {unfolding : Unfolding Empty} (hbuds : unfolding.Buds shape node bundle) :
      (Continuation.leaf unfolding).Unturned := by
    obtain ⟨-, -, core, hwork⟩ := hbuds
    intro chain hchain
    rw [← Option.some.inj (hwork.symm.trans hchain)]
    exact h
  have hunfolds := w.unfolds_leaf shape node bundle baked
  generalize w.leaf shape node bundle baked = effect at hunfolds ⊢
  cases hunfolds with
  | nothing _ _ => exact unturned_of_nothing rfl
  | @bakes heading warnings unfolding blade later hbuds hblade =>
    have hquiet := quiet_bakedOutline (w.facing node heading warnings) unfolding
    rw [hblade] at hquiet
    have hparked : later.parked = w.parked := hquiet.parked
    exact unturned_finish (hleaf hbuds) hparked blade
  | ripe hbuds =>
    refine unturned_finish (hleaf hbuds) ?_ _
    rfl
  | begins hbuds =>
    refine ⟨fun task htask => (by cases htask), fun work hwork => ?_, fun work => Or.inl⟩
    cases hwork
    exact hleaf hbuds

theorem unturned_seed (h : bundle.Unturned) (planted : Seed Empty) (baked : Bool) :
    ((Handler.seed planted).call w node bundle baked).2.Unturned w := by
  have hstarts := Handler.starts_call planted w node bundle baked
  refine ⟨fun task htask => ?_, fun work hwork => ?_, hstarts.calm.unturned⟩
  · rcases hstarts.tasks task htask with ⟨position, rfl⟩ | ⟨prefab, rfl⟩
    · exact planted.unturned_chain position h
    · trivial
  · rw [hstarts.continuation] at hwork
    cases hwork

/-- **No handler brings a rotation into a bundle without one.** -/
theorem unturned_call (h : bundle.Unturned) (handler : Handler Empty) (baked : Bool) :
    (handler.call w node bundle baked).2.Unturned w := by
  cases handler with
  | fork closing => exact unturned_fork h closing
  | pause minSeconds maxSeconds => exact unturned_pause h minSeconds maxSeconds baked
  | turnRotation eulerMin eulerMax => exact unturned_turnRotation h eulerMin eulerMax
  | turnHeading axis angleMin angleMax => exact unturned_turnHeading h axis angleMin angleMax
  | move distanceMin distanceMax => exact unturned_move h distanceMin distanceMax
  | branch shape => exact unturned_branch h shape baked
  | leaf shape => exact unturned_leaf h shape baked
  | seed planted => exact unturned_seed h planted baked
  | host foreign => exact foreign.elim

end World

/-! ### Steps -/

/-- What follows a step carries no rotation, and neither does what it parks. -/
def World.Unturned (w : World Empty) (next : World Empty × List (Task Empty)) : Prop :=
  (∀ task ∈ next.2, task.Unturned) ∧
    ∀ work ∈ next.1.parked.toList, work ∈ w.parked.toList ∨ work.Unturned

namespace World

variable {w : World Empty} {node : NodeId} {chain : Chain Empty}

theorem Unturned.of_calm {later : World Empty} (h : w.Calm later) : w.Unturned (later, []) :=
  ⟨fun task htask => (by cases htask), h.unturned⟩

theorem unturned_single {later : World Empty} {task : Task Empty} (hcalm : w.Calm later)
    (h : task.Unturned) : w.Unturned (later, [task]) :=
  ⟨fun _ hother => List.mem_singleton.mp hother ▸ h, hcalm.unturned⟩

theorem unturned_park {work : Continuation Empty} (h : work.Unturned) :
    w.Unturned (w.park work, []) := by
  refine ⟨fun task htask => (by cases htask), fun other hother => ?_⟩
  rw [park, Array.toList_push] at hother
  rcases List.mem_append.mp hother with hold | hnew
  · exact Or.inl hold
  · exact Or.inr (List.mem_singleton.mp hnew ▸ h)

theorem unturned_search (h : chain.Unturned) (node : NodeId) (baked : Bool) :
    w.Unturned (w.search node chain baked) := by
  have hcurrent : ∀ {current}, chain.Current w.settings.maxGenerations current →
      current.Unturned := by
    intro current hcurrent
    cases hcurrent with
    | same _ => exact h
    | renewed _ hrenew => exact h.renew hrenew
  have hfinds := w.finds_search node chain baked
  generalize w.search node chain baked = next at hfinds ⊢
  cases hfinds with
  | last _ _ => exact .of_calm (Calm.refl w)
  | blank _ _ => exact .of_calm (Calm.refl w)
  | ended _ _ => exact .of_calm (Calm.refl w)
  | @found current symbol prototype s hat _ =>
    by_cases htakes : current.bundle.Takes Key.sentence .sentence
    · rw [dispatch_of_takes htakes]
      exact unturned_single (Calm.of_eq rfl rfl) ((hcurrent hat).write (by decide) _)
    · rw [dispatch_of_not_takes htakes]
      exact .of_calm (Quiet.warn w _ rfl).calm
  | @exhausted current s hat _ _ =>
    have hunturned : current.Unturned := hcurrent hat
    exact unturned_single (Calm.refl w) hunturned

theorem unturned_carryOn (h : chain.Unturned) (node : NodeId) :
    w.Unturned (w.carryOn node chain) := by
  rcases w.carryOn_cases node chain with ⟨heq, -⟩ | ⟨heq, -⟩
  · rw [heq]
    exact unturned_single (Calm.refl w) h
  · rw [heq]
    refine unturned_park fun other hother => ?_
    rw [← Option.some.inj hother]
    exact h

/-- **One step brings up no rotation.** -/
theorem unturned_perform {task : Task Empty} (h : task.Unturned) : w.Unturned (w.perform task) := by
  cases task with
  | advance predecessor chain baked =>
    rcases w.advance_cases predecessor chain baked with ⟨-, heq⟩ | ⟨-, heq⟩
    · rw [perform, heq]
      exact .of_calm (Calm.refl w)
    · rw [perform, heq]
      exact unturned_single (Calm.refl w) h
  | search predecessor chain baked => exact unturned_search h predecessor baked
  | call handler node bundle baked =>
    have heffect : (handler.call w node bundle baked).2.Unturned w := unturned_call h handler baked
    refine ⟨fun task htask => ?_, heffect.parked⟩
    exact heffect.allTasks task htask
  | carryOn node chain => exact unturned_carryOn h node
  | destroy node => exact .of_calm (Calm.of_eq rfl rfl)
  | park work => exact unturned_park h
  | carryTip growth => exact .of_calm (growth.quiet_carryTip w).calm
  | ripen growth =>
    exact ⟨growth.unturned_ripen h w, (growth.quiet_ripen w).calm.unturned⟩
  | publish prefab => exact .of_calm (calm_publish w prefab)

end World

namespace Continuation

/-- Resuming brings up no rotation. -/
theorem unturned_resume {work : Continuation Empty} (h : work.Unturned) (w : World Empty) :
    w.Unturned ((work.resume w).world, (work.resume w).tasks) ∧
      (work.resume w).continuation.Unturned := by
  refine ⟨⟨?_, (work.quiet_resume w).calm.unturned⟩,
    fun chain hchain => h chain (work.chain?_of_resume w hchain)⟩
  have hresumes := work.resumes w
  generalize work.resume w = resumption at hresumes ⊢
  intro task htask
  cases hresumes with
  | due next =>
    cases hwork : next.work with
    | none =>
      simp only [hwork] at htask
      cases htask
    | some chain =>
      simp only [hwork] at htask
      rw [List.mem_singleton.mp htask]
      exact h chain hwork
  | late delay =>
    cases hwork : delay.work with
    | none =>
      simp only [hwork] at htask
      rw [List.mem_singleton.mp htask]
      trivial
    | some chain =>
      simp only [hwork] at htask
      rcases List.mem_pair.mp htask with rfl | rfl
      · exact h chain hwork
      · trivial
  | grown growth => exact growth.unturned_finish h w task htask
  | unfolded unfolding blade => exact unfolding.unturned_finish h w blade task htask
  | host work => exact work.elim
  | _ => cases htask

end Continuation

/-! ## Gardens -/

namespace Garden

/-- Nowhere in a garden does a bundle carry a rotation. -/
structure Unturned (w : World Empty) (tasks : List (Task Empty))
    (waiting : List (Continuation Empty)) : Prop where
  tasks : ∀ task ∈ tasks, task.Unturned
  parked : ∀ work ∈ w.parked.toList, work.Unturned
  waiting : ∀ work ∈ waiting, work.Unturned

theorem unturned_invariant : Invariant Unturned where
  perform := by
    intro w task rest waiting h
    obtain ⟨htasks, hparked⟩ := World.unturned_perform (w := w) (h.tasks task List.mem_cons_self)
    refine ⟨fun other hother => ?_, fun work hwork => ?_, h.waiting⟩
    · rcases List.mem_append.mp hother with hmem | hmem
      · exact htasks other hmem
      · exact h.tasks other (List.mem_cons_of_mem task hmem)
    · exact (hparked work hwork).elim (h.parked work) id
  resume := by
    intro w work waiting h
    obtain ⟨⟨htasks, hparked⟩, hleft⟩ :=
      Continuation.unturned_resume (h.waiting work List.mem_cons_self) w
    refine ⟨htasks, fun other hother => (hparked other hother).elim (h.parked other) id, ?_⟩
    intro other hother
    split at hother
    · rcases List.mem_cons.mp hother with rfl | hmem
      · exact hleft
      · exact h.waiting other (List.mem_cons_of_mem work hmem)
    · exact h.waiting other (List.mem_cons_of_mem work hother)
  reorder := by
    intro w tasks waiting other hperm h
    exact ⟨h.tasks, h.parked, fun work hwork => h.waiting work (hperm.mem_iff.mpr hwork)⟩
  unpark := by
    intro w waiting h
    refine ⟨fun task htask => (by cases htask), fun work hwork => (by cases hwork), ?_⟩
    intro work hwork
    exact (List.mem_append.mp hwork).elim (h.waiting work) (h.parked work)
  elapse := by
    intro w waiting seconds h
    exact ⟨h.tasks, h.parked, h.waiting⟩

variable {plan : PlantPlan} {settings : Settings}

/-- A plant is planted with an empty bundle. -/
theorem unturned_seedbed (seed : Seed Empty) :
    Unturned (seedbed plan settings) [rootTask plan seed] [] := by
  refine ⟨fun task htask => ?_, fun work hwork => (by cases hwork), fun work hwork => (by cases hwork)⟩
  rw [List.mem_singleton.mp htask]
  exact Dictionary.find?_empty Key.rotation

/-- The core entries are never missing in a garden. -/
theorem exists_core_of_underway {w : World Empty} {eulerMin eulerMax : Vec3} {node : NodeId}
    {bundle : Bundle Empty} {baked : Bool} {rest : List (Task Empty)}
    (h : Underway plan settings w
      (.call (.turnRotation eulerMin eulerMax) node bundle baked :: rest)) :
    ∃ core, bundle.core = .ok core := by
  obtain ⟨waiting, hgoverns⟩ := Law.sound_planned.governs_underway
    (fun seed hseed => ⟨plan, trivial, hseed⟩) h
  rcases hgoverns.tasks.1 with hobeys | ⟨handler, other, given, mode, heq, hcalls⟩
  · exact hobeys.elim
  · cases heq
    generalize hhandler : Handler.turnRotation eulerMin eulerMax = handler at hcalls
    cases hcalls with
    | root _ _ => cases hhandler
    | bound _ hfollows hsentence _ _ _ _ => exact ⟨_, hfollows.core_eq hsentence⟩

/-- **A rotation turns what its bundle carries, and in a garden that is nothing.** Wherever a bundle
carries a rotation, live or baked, and a turn can be drawn, it is multiplied by that turn and goes along
with the chain, and there is no warning. But whatever plan is planted and however often its garden is
ticked, each call of a rotation finds none: it warns, draws nothing and hands its bundle on as it is. -/
theorem turns_nothing (w : World Empty) (eulerMin eulerMax : Vec3) (node : NodeId)
    (bundle : Bundle Empty) (baked : Bool) :
    (∀ core rotation, bundle.core = .ok core → bundle.rotation? Key.rotation = some rotation →
      (∀ bounds ∈ eulerMin.bounds eulerMax, bounds.far = false) →
      w.halts (.call (.turnRotation eulerMin eulerMax) node bundle baked) = false ∧
      ∃ later, later.rotation? Key.rotation =
          some (rotation.mul (w.drawRotation eulerMin eulerMax).1) ∧
        w.perform (.call (.turnRotation eulerMin eulerMax) node bundle baked) =
          ((w.drawRotation eulerMin eulerMax).2,
            [.carryOn node { core, bundle := later }, .destroy node])) ∧
    ∀ plan settings rest,
      Underway plan settings w
          (.call (.turnRotation eulerMin eulerMax) node bundle baked :: rest) →
        bundle.rotation? Key.rotation = none ∧
        w.halts (.call (.turnRotation eulerMin eulerMax) node bundle baked) = false ∧ ∃ core,
          w.perform (.call (.turnRotation eulerMin eulerMax) node bundle baked) =
            (w.warn (.nothingToTurn node Key.rotation),
              [.carryOn node { core, bundle }, .destroy node]) := by
  constructor
  · intro core rotation hcore hrotation hnarrow
    have hturned := World.turnRotation_of_carried hcore hrotation w eulerMin eulerMax node
    refine ⟨World.halts_eq_false_iff.mpr ⟨rfl, ?_⟩, _, Bundle.rotation?_write hrotation _, ?_⟩
    · show ∀ bounds ∈ (if (bundle.rotation? Key.rotation).isSome then eulerMin.bounds eulerMax
        else []), bounds.far = false
      rw [hrotation]
      exact hnarrow
    · simp only [World.perform, Handler.call, hturned]
      rfl
  · intro plan settings rest h
    obtain ⟨waiting, hunturned⟩ := unturned_invariant.of_underway (fun seed _ => unturned_seedbed seed) h
    have hbundle : bundle.Unturned := hunturned.tasks _ List.mem_cons_self
    obtain ⟨core, hcore⟩ := exists_core_of_underway h
    have hmissed := World.turnRotation_of_missing hcore hbundle.rotation?_eq w eulerMin eulerMax node
    refine ⟨hbundle.rotation?_eq, World.halts_eq_false_iff.mpr ⟨rfl, ?_⟩, core, ?_⟩
    · show ∀ bounds ∈ (if (bundle.rotation? Key.rotation).isSome then eulerMin.bounds eulerMax
        else []), bounds.far = false
      rw [hbundle.rotation?_eq]
      exact fun bounds hmem => (by cases hmem)
    · simp only [World.perform, Handler.call, hmissed]
      rfl

/-- A baked plant with one rotation, by a fixed angle. -/
def weathercock : PlantPlan where
  traits := { start := "+", baked := true }
  handlers := ⟨[('+', .turnRotation ⟨0, 90, 0⟩ ⟨0, 90, 0⟩)]⟩

/-- A bundle as a host could fill it, with a rotation. -/
def breeze : Bundle Empty :=
  (((Bundle.empty.insert Key.sentence (.sentence (.ofString "+"))).insert Key.registry
    (.registry .empty)).insert Key.rules (.rules {})).insert Key.rotation (.rotation Rotation.identity)

/-- The rotation of this plant finds nothing to turn, and would turn what a host brought along. -/
theorem weathercock_misses : ∃ w node bundle rest,
    Underway weathercock {} w
        (.call (.turnRotation ⟨0, 90, 0⟩ ⟨0, 90, 0⟩) node bundle true :: rest) ∧
      bundle.rotation? Key.rotation = none ∧
      ∃ core later, later.rotation? Key.rotation =
          some (Rotation.identity.mul (w.drawRotation ⟨0, 90, 0⟩ ⟨0, 90, 0⟩).1) ∧
        w.perform (.call (.turnRotation ⟨0, 90, 0⟩ ⟨0, 90, 0⟩) node breeze true) =
          ((w.drawRotation ⟨0, 90, 0⟩ ⟨0, 90, 0⟩).2,
            [.carryOn node { core, bundle := later }, .destroy node]) := by
  have h : Underway weathercock {} (seedbed weathercock {}) [rootTask weathercock _] :=
    .planting rfl
  have hlast := h.performing.performing.performing.performing
  have hcore : breeze.core = .ok { sentence := .ofString "+", registry := .empty, rules := {} } :=
    Bundle.core_of_find? rfl rfl rfl
  have hnarrow : ∀ bounds ∈ Vec3.bounds ⟨0, 90, 0⟩ ⟨0, 90, 0⟩, bounds.far = false := by decide +kernel
  exact ⟨_, _, _, _, hlast, ((turns_nothing _ _ _ _ _ _).2 _ _ _ hlast).1, _,
    ((turns_nothing _ _ _ _ breeze _).1 _ Rotation.identity hcore rfl hnarrow).2⟩

/-- **A planned rotation is skipped.** -/
theorem weathercock_warned : ∃ garden : Garden, build 20 weathercock {} = .ok (some garden) ∧
    garden.world.warnings.toList = [.nothingToTurn 1 Key.rotation] :=
  ⟨_, rfl, rfl⟩

end Garden
end PlantGrowth
