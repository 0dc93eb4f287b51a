import PlantGrowth.Proofs.Chain
import PlantGrowth.Proofs.Marks
import PlantGrowth.Proofs.Resuming

/-!
# What a call of a handler comes to

The handlers differ in what they draw and where they move things. For the course of growth this does
not matter, and the lemmas here leave it out: a handler hands its chain on, at once or later, or it
takes the chain apart, or it starts a chain of its own. How the world differs afterwards is said by
`World.Quiet`.

All of this is for bundles of a seed's plant, which have the core entries and a heading, so no
handler gives up for want of them.

The search for the next handler is described in the same way, by `World.Finds`.
-/

namespace PlantGrowth

variable {H : Type}

/-! ## Quiet changes -/

/-- The failed fork that a warning is about. -/
def Warning.forkFailure? : Warning → Option (NodeId × CutError)
  | .forkFailed node cause => some (node, cause)
  | _ => none

namespace World

/-- The failed forks so far. -/
def forkFailures (w : World H) : List (NodeId × CutError) :=
  w.warnings.toList.filterMap Warning.forkFailure?

/-- A change of what is drawn only: no node was made or is gone, nothing was parked or dispatched,
and no fork failed. -/
structure Quiet (w later : World H) : Prop where
  marks : later.nodes.marks = w.nodes.marks
  parked : later.parked = w.parked
  dispatched : later.dispatched = w.dispatched
  forkFailures : later.forkFailures = w.forkFailures

namespace Quiet

variable {w mid later : World H}

theorem refl (w : World H) : Quiet w w := ⟨rfl, rfl, rfl, rfl⟩

theorem trans (h : Quiet w mid) (h' : Quiet mid later) : Quiet w later :=
  ⟨h'.marks.trans h.marks, h'.parked.trans h.parked, h'.dispatched.trans h.dispatched,
    h'.forkFailures.trans h.forkFailures⟩

theorem mapNodes {change : Arena → Arena} (h : (change w.nodes).marks = w.nodes.marks) :
    Quiet w (w.mapNodes change) := ⟨h, rfl, rfl, rfl⟩

theorem place (w : World H) (node : NodeId) (change : Transform → Transform) :
    Quiet w (w.mapNodes (·.place node change)) := mapNodes (Arena.marks_place _ _ _)

theorem drawBetween (w : World H) (first second : Float) :
    Quiet w (w.drawBetween first second).2 := ⟨rfl, rfl, rfl, rfl⟩

theorem drawRotation (w : World H) (first second : Vec3) :
    Quiet w (w.drawRotation first second).2 := ⟨rfl, rfl, rfl, rfl⟩

theorem warn (w : World H) (warning : Warning) (h : warning.forkFailure? = none) :
    Quiet w (w.warn warning) := by
  refine ⟨rfl, rfl, rfl, ?_⟩
  rw [World.forkFailures, World.warn, Array.toList_push, List.filterMap_append]
  rw [List.filterMap_cons_none h, List.filterMap_nil, List.append_nil]
  rfl

end Quiet

/-- A change in which no fork fails, and nothing is parked but instances that grow in. -/
structure Calm (w later : World H) : Prop where
  forkFailures : later.forkFailures = w.forkFailures
  parked : ∀ work ∈ later.parked.toList, work ∈ w.parked.toList ∨
    ∃ scaling, work = .emergence scaling

namespace Calm

variable {w mid later : World H}

/-- A change of neither the warnings nor what is parked. -/
theorem of_eq (hwarnings : later.warnings = w.warnings) (hparked : later.parked = w.parked) :
    Calm w later := by
  refine ⟨by rw [World.forkFailures, World.forkFailures, hwarnings], fun work h => Or.inl ?_⟩
  rwa [hparked] at h

theorem refl (w : World H) : Calm w w := of_eq rfl rfl

theorem trans (h : Calm w mid) (h' : Calm mid later) : Calm w later := by
  refine ⟨h'.forkFailures.trans h.forkFailures, fun work hwork => ?_⟩
  rcases h'.parked work hwork with hmid | hscaling
  · exact h.parked work hmid
  · exact Or.inr hscaling

end Calm

theorem Quiet.calm {w later : World H} (h : Quiet w later) : Calm w later := by
  refine ⟨h.forkFailures, fun work hwork => Or.inl ?_⟩
  rwa [h.parked] at hwork

end World

/-! ## The search -/

/-- The chain that a search reads on: the given one, or the next generation of it if there is nothing
left to read. -/
inductive Chain.Current (usual : Nat) (chain : Chain H) : Chain H → Prop where
  | same (h : chain.core.sentence.hasUnread = true) : Current usual chain chain
  | renewed {later : Chain H} (h : chain.core.sentence.hasUnread = false)
      (hrenew : chain.renew? usual = some later) : Current usual chain later

/-- What one round of the search comes to. -/
inductive World.Finds (w : World H) (node : NodeId) (chain : Chain H) (baked : Bool) :
    World H × List (Task H) → Prop where
  /-- The last generation was read to its end. -/
  | last (h : chain.core.sentence.hasUnread = false)
      (hrenew : chain.renew? w.settings.maxGenerations = none) : Finds w node chain baked (w, [])
  /-- The next generation has no symbols. -/
  | blank {current : Chain H} (hcurrent : chain.Current w.settings.maxGenerations current)
      (h : current.core.sentence.unread = []) : Finds w node chain baked (w, [])
  | ended {current : Chain H} (hcurrent : chain.Current w.settings.maxGenerations current)
      (h : current.core.sentence.readTo current.core.registry current.core.sentence.unread = .ended) :
      Finds w node chain baked (w, [])
  | found {current : Chain H} {symbol : Char} {prototype : Prototype H} {s : Sentence}
      (hcurrent : chain.Current w.settings.maxGenerations current)
      (h : current.core.sentence.readTo current.core.registry current.core.sentence.unread =
        .found symbol prototype s) :
      Finds w node chain baked (w.dispatch node symbol prototype s current.bundle baked)
  | exhausted {current : Chain H} {s : Sentence}
      (hcurrent : chain.Current w.settings.maxGenerations current)
      (hsome : current.core.sentence.unread ≠ [])
      (h : current.core.sentence.readTo current.core.registry current.core.sentence.unread =
        .exhausted s) :
      Finds w node chain baked
        (w, [.search node { current with core := { current.core with sentence := s } } baked])

/-- **One round of the search has no other outcome.** -/
theorem World.finds_search (w : World H) (node : NodeId) (chain : Chain H) (baked : Bool) :
    w.Finds node chain baked (w.search node chain baked) := by
  have hcurrent : ∀ current, (if chain.core.sentence.hasUnread then some chain
      else chain.renew? w.settings.maxGenerations) = some current →
        chain.Current w.settings.maxGenerations current := by
    intro current h
    cases hread : chain.core.sentence.hasUnread with
    | true =>
      rw [if_pos hread] at h
      cases h
      exact Chain.Current.same hread
    | false =>
      rw [if_neg (by simp [hread])] at h
      exact Chain.Current.renewed hread h
  simp only [World.search]
  split
  next hnone =>
    cases hread : chain.core.sentence.hasUnread with
    | true =>
      rw [if_pos hread] at hnone
      cases hnone
    | false =>
      rw [if_neg (by simp [hread])] at hnone
      exact Finds.last hread hnone
  next current hsome =>
    split
    next hblank => exact Finds.blank (hcurrent current hsome) hblank
    next hunread =>
      split
      next hended => exact Finds.ended (hcurrent current hsome) hended
      next hfound => exact Finds.found (hcurrent current hsome) hfound
      next hexhausted => exact Finds.exhausted (hcurrent current hsome) hunread hexhausted

section

variable {w : World H} {node : NodeId} {chain later : Chain H} {baked : Bool}

/-- A search that has something to read. -/
theorem World.search_of_unread (hread : chain.core.sentence.hasUnread = true)
    (hsome : chain.core.sentence.unread ≠ []) :
    w.search node chain baked =
      match chain.core.sentence.readTo chain.core.registry chain.core.sentence.unread with
      | .ended => (w, [])
      | .found symbol prototype s => w.dispatch node symbol prototype s chain.bundle baked
      | .exhausted s =>
        (w, [.search node { chain with core := { chain.core with sentence := s } } baked]) := by
  obtain ⟨first, rest, hunread⟩ := List.exists_cons_of_ne_nil hsome
  rw [hunread]
  cases hreading : chain.core.sentence.readTo chain.core.registry (first :: rest) with
  | _ => simp only [World.search, hread, if_true, hunread, hreading]

/-- A search that finds a bound symbol without taking the next generation. -/
theorem World.search_of_found {symbol : Char} {prototype : Prototype H} {s : Sentence}
    (hread : chain.core.sentence.hasUnread = true)
    (h : chain.core.sentence.readTo chain.core.registry chain.core.sentence.unread =
      .found symbol prototype s) :
    w.search node chain baked = w.dispatch node symbol prototype s chain.bundle baked := by
  have hsome : chain.core.sentence.unread ≠ [] := by
    intro hnil
    rw [hnil] at h
    cases h
  rw [World.search_of_unread hread hsome, h]

/-- A search that has nothing to read goes on with the next generation, if that has any symbols. -/
theorem World.search_of_read (hread : chain.core.sentence.hasUnread = false)
    (hrenew : chain.renew? w.settings.maxGenerations = some later)
    (hlater : later.core.sentence.hasUnread = true) :
    w.search node chain baked = w.search node later baked := by
  simp only [World.search, hread, hrenew, hlater, if_true, Bool.false_eq_true, if_false]

theorem World.search_of_last (hread : chain.core.sentence.hasUnread = false)
    (hrenew : chain.renew? w.settings.maxGenerations = none) :
    w.search node chain baked = (w, []) := by
  simp only [World.search, hread, hrenew, Bool.false_eq_true, if_false]

theorem World.search_of_blank (hread : chain.core.sentence.hasUnread = false)
    (hrenew : chain.renew? w.settings.maxGenerations = some later)
    (hblank : later.core.sentence.unread = []) : w.search node chain baked = (w, []) := by
  simp only [World.search, hread, hrenew, hblank, Bool.false_eq_true, if_false]

end

/-! ## Going on with a chain -/

section

variable {w : World H} {node : NodeId} {state : Node} {task : Task H}

/-- A node that is alive is searched from. -/
theorem World.advance_eq (hnode : w.nodes.get? node = some state) (hdead : state.dead = false)
    (chain : Chain H) (baked : Bool) :
    w.advance node chain baked = (w, [.search node chain baked]) := by
  simp only [World.advance, Arena.isDead, hnode, hdead, Bool.false_eq_true, if_false]

/-- **A chain is searched on from a node, unless that is dead.** -/
theorem World.advance_cases (w : World H) (node : NodeId) (chain : Chain H) (baked : Bool) :
    w.nodes.isDead node = true ∧ w.advance node chain baked = (w, []) ∨
      w.nodes.isDead node = false ∧ w.advance node chain baked = (w, [.search node chain baked]) := by
  rw [World.advance]
  cases w.nodes.isDead node with
  | true => exact Or.inl ⟨rfl, rfl⟩
  | false => exact Or.inr ⟨rfl, rfl⟩

theorem World.fst_advance (w : World H) (node : NodeId) (chain : Chain H) (baked : Bool) :
    (w.advance node chain baked).1 = w := by
  rcases w.advance_cases node chain baked with ⟨-, heq⟩ | ⟨-, heq⟩
  · rw [heq]
  · rw [heq]

theorem World.mem_advance {chain : Chain H} {baked : Bool}
    (h : task ∈ (w.advance node chain baked).2) : task = .search node chain baked := by
  rcases w.advance_cases node chain baked with ⟨-, heq⟩ | ⟨-, heq⟩
  · rw [heq] at h
    cases h
  · rw [heq] at h
    exact List.mem_singleton.mp h

/-- How a chain goes on after a node that is there. -/
theorem World.carryOn_eq (hnode : w.nodes.get? node = some state) (chain : Chain H) :
    w.carryOn node chain =
      if state.baked then (w, [.advance node chain true]) else (w.parkNext node chain, []) := by
  rw [World.carryOn, hnode]

/-- **A chain goes on at once after a baked node**, and is parked after any other. -/
theorem World.carryOn_cases (w : World H) (node : NodeId) (chain : Chain H) :
    w.carryOn node chain = (w, [.advance node chain true]) ∧
        (∃ state, w.nodes.get? node = some state ∧ state.baked = true) ∨
      w.carryOn node chain = (w.parkNext node chain, []) ∧
        ∀ state, w.nodes.get? node = some state → state.baked = false := by
  cases hnode : w.nodes.get? node with
  | none =>
    refine Or.inr ⟨?_, fun state hstate => (by cases hstate)⟩
    rw [World.carryOn, hnode]
  | some state =>
    rw [World.carryOn_eq hnode]
    cases hbaked : state.baked with
    | true => exact Or.inl ⟨rfl, state, rfl, hbaked⟩
    | false =>
      refine Or.inr ⟨rfl, fun other hother => ?_⟩
      rw [← Option.some.inj hother]
      exact hbaked

theorem World.mem_carryOn {chain : Chain H} (h : task ∈ (w.carryOn node chain).2) :
    task = .advance node chain true := by
  rcases w.carryOn_cases node chain with ⟨heq, -⟩ | ⟨heq, -⟩
  · rw [heq] at h
    exact List.mem_singleton.mp h
  · rw [heq] at h
    cases h

end

/-! ## Dispatches -/

/-- What the node of a dispatched handler is made from. -/
def Prototype.draft (prototype : Prototype H) (symbol : Char) (previous : Option NodeId)
    (baked : Bool) : NodeDraft :=
  { symbol, name := prototype.name, previous, ethereal := prototype.ethereal
    baked := baked || prototype.baked, prefab := prototype.prefab }

/-- The world with one more node, for a handler that is dispatched. -/
def World.make (w : World H) (draft : NodeDraft) : World H :=
  { w with nodes := (w.nodes.addNode draft).2 }.countDispatch

/-- **A dispatch makes a node and calls the handler there**, with the sentence in the bundle. -/
theorem World.dispatch_of_takes {bundle : Bundle H} (h : bundle.Takes Key.sentence .sentence)
    (w : World H) (node : NodeId) (symbol : Char) (prototype : Prototype H) (s : Sentence)
    (baked : Bool) :
    w.dispatch node symbol prototype s bundle baked =
      (w.make (prototype.draft symbol (w.nodes.nearestAnchor node) baked),
        [.call prototype.handler w.nodes.size (bundle.write Key.sentence (.sentence s))
          (baked || prototype.baked)]) := by
  have htakes : bundle.Takes Key.sentence (Value.sentence (H := H) s).kind := h
  rw [dispatch, Bundle.assign_of_takes htakes, Bundle.write_of_takes htakes]
  rfl

/-- A dispatch does nothing but to warn where the sentence cannot be written. -/
theorem World.dispatch_of_not_takes {bundle : Bundle H} (h : ¬ bundle.Takes Key.sentence .sentence)
    (w : World H) (node : NodeId) (symbol : Char) (prototype : Prototype H) (s : Sentence)
    (baked : Bool) :
    w.dispatch node symbol prototype s bundle baked = (w.warn (.wrongSentenceKind node), []) := by
  have htakes : ¬ bundle.Takes Key.sentence (Value.sentence (H := H) s).kind := h
  rw [dispatch, Bundle.assign_of_not_takes htakes]

theorem World.dispatch_eq {bundle : Bundle H} (tidy : bundle.Tidy) (w : World H) (node : NodeId)
    (symbol : Char) (prototype : Prototype H) (s : Sentence) (baked : Bool) :
    w.dispatch node symbol prototype s bundle baked =
      (w.make (prototype.draft symbol (w.nodes.nearestAnchor node) baked),
        [.call prototype.handler w.nodes.size (bundle.write Key.sentence (.sentence s))
          (baked || prototype.baked)]) :=
  dispatch_of_takes (tidy.takes rfl) w node symbol prototype s baked

theorem World.marks_make (w : World H) (draft : NodeDraft) :
    (w.make draft).nodes.marks = w.nodes.marks ++ [draft.mark] := w.nodes.marks_addNode draft

/-- The node that was made for a handler. -/
theorem World.get?_make (w : World H) (draft : NodeDraft) :
    ∃ state, (w.make draft).nodes.get? w.nodes.size = some state ∧ state.mark = draft.mark :=
  w.nodes.get?_addNode_size draft

/-- The bundle that a dispatched handler is called with. -/
theorem Bundle.Follows.dispatch {seed : Seed H} {bundle : Bundle H} (h : bundle.Follows seed)
    (s : Sentence) :
    Bundle.Succeeds seed bundle (bundle.write Key.sentence (.sentence s)) ∧
      (bundle.write Key.sentence (.sentence s)).find? Key.sentence = some (.sentence s) := by
  refine ⟨h.succeeds.write _ _ rfl (by decide) (by decide), ?_⟩
  rw [find?_write h.tidy _ _ rfl, if_pos rfl]

/-! ## Handlers that hand their chain on -/

/-- Handlers that do nothing else to a chain than to hand it on, and whether their nodes are gone
when they have done so. -/
def Handler.handsOn? : Handler H → Option Bool
  | .pause .. => some true
  | .turnRotation .. => some true
  | .turnHeading .. => some true
  | .move .. => some false
  | .leaf _ => some false
  | _ => none

/-- The end of a node after it has handed its chain on. -/
def Task.passing (gone : Bool) (node : NodeId) : List (Task H) := if gone then [.destroy node] else []

/-- A continuation that will hand a chain on after a node. -/
inductive Continuation.Keeps (chain : Chain H) (node : NodeId) : Bool → Continuation H → Prop where
  | wait {delay : Delay H} (hnode : delay.node = node) (hwork : delay.work = some chain) :
      Keeps chain node true (.wait delay)
  | leaf {unfolding : Unfolding H} (hnode : unfolding.node = node)
      (hwork : unfolding.work = some chain) : Keeps chain node false (.leaf unfolding)

/-- The core entries of a bundle of a seed's plant. -/
def Seed.core (seed : Seed H) (s : Sentence) : Core H :=
  { sentence := s, registry := seed.registry, rules := seed.grammar.2 }

theorem Seed.follows_core {seed : Seed H} {bundle : Bundle H} (h : bundle.Follows seed)
    (s : Sentence) : ({ core := seed.core s, bundle } : Chain H).Follows seed := ⟨rfl, rfl, h⟩

/-- The work that is left for later is parked last. -/
theorem Effect.exists_allTasks (effect : Effect H) :
    ∃ more, effect.allTasks = effect.tasks ++ more := by
  rw [Effect.allTasks]
  cases effect.continuation with
  | none => exact ⟨[], (List.append_nil _).symm⟩
  | some work => exact ⟨_, rfl⟩

/-- A task that hands a chain on, ends a node, parks what is left or carries a tip along. -/
inductive Task.Routine : Task H → Prop where
  | carryOn (node : NodeId) (chain : Chain H) : Routine (.carryOn node chain)
  | destroy (node : NodeId) : Routine (.destroy node)
  | park (work : Continuation H) : Routine (.park work)
  | carryTip (growth : Elongation H) : Routine (.carryTip growth)

theorem Task.routine_passing (gone : Bool) (node : NodeId) :
    ∀ task ∈ (Task.passing gone node : List (Task H)), task.Routine := by
  intro task htask
  cases gone with
  | true =>
    rw [List.mem_singleton.mp htask]
    exact .destroy node
  | false => cases htask

theorem Effect.mem_allTasks {effect : Effect H} {task : Task H} (h : task ∈ effect.allTasks) :
    task ∈ effect.tasks ∨ ∃ work, task = .park work := by
  rw [Effect.allTasks] at h
  cases hwork : effect.continuation with
  | none =>
    rw [hwork] at h
    exact Or.inl h
  | some work =>
    rw [hwork] at h
    exact (List.mem_append.mp h).imp id fun hlast => ⟨work, List.mem_singleton.mp hlast⟩

theorem Effect.routine_allTasks {effect : Effect H} (h : ∀ task ∈ effect.tasks, task.Routine) :
    ∀ task ∈ effect.allTasks, task.Routine := by
  intro task htask
  rcases Effect.mem_allTasks htask with hmem | ⟨work, rfl⟩
  · exact h task hmem
  · exact .park work

/-- The chain is handed on at once, or, in a plant that is not baked, in a later tick. -/
def Effect.HandsOn (seed : Seed H) (s : Sentence) (gone : Bool) (w : World H) (node : NodeId)
    (bundle : Bundle H) (baked : Bool) (effect : Effect H) : Prop :=
  w.Quiet effect.world ∧
    ((∃ later, Bundle.Succeeds seed bundle later ∧ effect.continuation = none ∧
        effect.tasks = .carryOn node { core := seed.core s, bundle := later } ::
          Task.passing gone node) ∨
      (baked = false ∧ effect.tasks = [] ∧
        ∃ work, effect.continuation = some work ∧
          work.Keeps { core := seed.core s, bundle } node gone))

section

variable {seed : Seed H} {bundle : Bundle H} {s : Sentence} {w : World H} {node : NodeId}
  {baked : Bool}

/-- **Handing a chain on is routine.** -/
theorem Effect.HandsOn.routine {gone : Bool} {effect : Effect H}
    (h : effect.HandsOn seed s gone w node bundle baked) : ∀ task ∈ effect.allTasks, task.Routine := by
  obtain ⟨-, ⟨later, -, -, htasks⟩ | ⟨-, htasks, -⟩⟩ := h
  · refine Effect.routine_allTasks fun task htask => ?_
    rw [htasks] at htask
    rcases List.mem_cons.mp htask with rfl | htask
    · exact .carryOn node _
    · exact Task.routine_passing gone node task htask
  · refine Effect.routine_allTasks fun task htask => ?_
    rw [htasks] at htask
    cases htask

theorem World.coreOrWarn_eq (h : bundle.Follows seed)
    (hs : bundle.find? Key.sentence = some (.sentence s)) (w : World H) (handler : String)
    (node : NodeId) : w.coreOrWarn handler node bundle = (some (seed.core s), w) := by
  rw [World.coreOrWarn, h.core_eq hs]
  rfl

theorem World.handsOn_pause (h : bundle.Follows seed)
    (hs : bundle.find? Key.sentence = some (.sentence s)) (minSeconds maxSeconds : Float) :
    (w.pause minSeconds maxSeconds node bundle baked).HandsOn seed s true w node bundle baked := by
  rw [World.pause, World.coreOrWarn_eq h hs]
  cases baked with
  | true => exact ⟨Quiet.refl w, Or.inl ⟨bundle, h.succeeds, rfl, rfl⟩⟩
  | false =>
    exact ⟨Quiet.drawBetween w _ _, Or.inr ⟨rfl, rfl, _, rfl, Continuation.Keeps.wait rfl rfl⟩⟩

theorem World.handsOn_turnRotation (h : bundle.Follows seed)
    (hs : bundle.find? Key.sentence = some (.sentence s)) (eulerMin eulerMax : Vec3) :
    (w.turnRotation eulerMin eulerMax node bundle).HandsOn seed s true w node bundle baked := by
  rw [World.turnRotation, h.core_eq hs]
  cases bundle.rotation? Key.rotation with
  | none =>
    exact ⟨Quiet.warn w _ rfl, Or.inl ⟨bundle, h.succeeds, rfl, rfl⟩⟩
  | some rotation =>
    refine ⟨Quiet.drawRotation w _ _, Or.inl ⟨_, ?_, rfl, rfl⟩⟩
    exact h.succeeds.write _ _ rfl (by decide) (by decide)

theorem World.handsOn_turnHeading (h : bundle.Follows seed)
    (hs : bundle.find? Key.sentence = some (.sentence s)) (axis : Vec3)
    (angleMin angleMax : Float) :
    (w.turnHeading axis angleMin angleMax node bundle).HandsOn seed s true w node bundle baked := by
  obtain ⟨heading, hheading⟩ := h.heading
  rw [World.turnHeading, h.core_eq hs, Bundle.vec3?_of_find? hheading]
  refine ⟨Quiet.drawBetween w _ _, Or.inl ⟨_, ?_, rfl, rfl⟩⟩
  cases axis.direction? machineEpsilon with
  | none => exact h.succeeds
  | some axis => exact h.succeeds.write _ _ rfl (by decide) (by decide)

theorem World.handsOn_move (h : bundle.Follows seed)
    (hs : bundle.find? Key.sentence = some (.sentence s)) (distanceMin distanceMax : Float) :
    (w.move distanceMin distanceMax node bundle).HandsOn seed s false w node bundle baked := by
  obtain ⟨heading, hheading⟩ := h.heading
  rw [World.move, h.core_eq hs, Bundle.vec3?_of_find? hheading]
  exact ⟨(Quiet.drawBetween w _ _).trans (Quiet.place _ _ _),
    Or.inl ⟨bundle, h.succeeds, rfl, rfl⟩⟩

/-! ### Leaves -/

theorem Unfolding.quiet_record (unfolding : Unfolding H) (w : World H) (blade : Option Blade) :
    w.Quiet (unfolding.record w blade) :=
  World.Quiet.mapNodes (Arena.marks_modify_of_kept fun _ => rfl)

theorem World.quiet_bakedOutline (w : World H) (unfolding : Unfolding H) :
    w.Quiet (w.bakedOutline unfolding).2 := by
  rw [World.bakedOutline]
  split
  · exact Quiet.refl w
  · split
    · exact Quiet.refl w
    · split
      · exact ⟨rfl, rfl, rfl, rfl⟩
      · exact Quiet.refl w

theorem World.handsOn_leaf (h : bundle.Follows seed)
    (hs : bundle.find? Key.sentence = some (.sentence s)) (hnode : w.nodes.contains node = true)
    (shape : LeafShape) :
    (w.leaf shape node bundle baked).HandsOn seed s false w node bundle baked := by
  obtain ⟨heading, hheading⟩ := h.heading
  rw [World.leaf, World.coreOrWarn_eq h hs, Bundle.vec3?_of_find? hheading]
  have hwarned : ∀ checked : World H, checked = (if shape.hasSegments then w
      else w.warn (.noSegments node shape.medialSegments shape.lateralSegments)) →
      w.Quiet checked ∧ checked.nodes = w.nodes := by
    rintro checked rfl
    by_cases hsegments : shape.hasSegments = true
    · rw [if_pos hsegments]
      exact ⟨Quiet.refl w, rfl⟩
    · rw [if_neg hsegments]
      exact ⟨Quiet.warn w _ rfl, rfl⟩
  obtain ⟨checked, hchecked⟩ : ∃ checked : World H, checked = (if shape.hasSegments then w
      else w.warn (.noSegments node shape.medialSegments shape.lateralSegments)) := ⟨_, rfl⟩
  obtain ⟨hquiet, hnodes⟩ := hwarned checked hchecked
  simp only [← hchecked, hnodes, hnode, if_true]
  have hplaced := hquiet.trans (Quiet.place checked node (·.face heading))
  cases baked with
  | true =>
    refine ⟨(hplaced.trans (World.quiet_bakedOutline _ _)).trans (Unfolding.quiet_record _ _ _),
      Or.inl ⟨_, Unfolding.succeeds_handOn _ h.succeeds, rfl, rfl⟩⟩
  | false =>
    cases shape.animate with
    | true =>
      exact ⟨hplaced, Or.inr ⟨rfl, rfl, _, rfl, Continuation.Keeps.leaf rfl rfl⟩⟩
    | false =>
      exact ⟨hplaced.trans (Unfolding.quiet_record _ _ _),
        Or.inl ⟨_, Unfolding.succeeds_handOn _ h.succeeds, rfl, rfl⟩⟩

/-- **A handler that hands its chain on does so for every bundle of a seed's plant.** -/
theorem Handler.handsOn_call [Host H] {handler : Handler H} {gone : Bool}
    (hhandler : handler.handsOn? = some gone) (h : bundle.Follows seed)
    (hs : bundle.find? Key.sentence = some (.sentence s)) (hnode : w.nodes.contains node = true)
    (baked : Bool) :
    (handler.call w node bundle baked).2.HandsOn seed s gone w node bundle baked := by
  cases handler with
  | pause minSeconds maxSeconds =>
    cases hhandler
    exact World.handsOn_pause h hs minSeconds maxSeconds
  | turnRotation eulerMin eulerMax =>
    cases hhandler
    exact World.handsOn_turnRotation h hs eulerMin eulerMax
  | turnHeading axis angleMin angleMax =>
    cases hhandler
    exact World.handsOn_turnHeading h hs axis angleMin angleMax
  | move distanceMin distanceMax =>
    cases hhandler
    exact World.handsOn_move h hs distanceMin distanceMax
  | leaf shape =>
    cases hhandler
    exact World.handsOn_leaf h hs hnode shape
  | fork closing => cases hhandler
  | branch shape => cases hhandler
  | seed planted => cases hhandler
  | host foreign => cases hhandler

/-- Without handlers of a host there are no others than these. -/
theorem Handler.handsOn_or (handler : Handler Empty) :
    (∃ gone, handler.handsOn? = some gone) ∨ (∃ closing, handler = .fork closing) ∨
      (∃ shape, handler = .branch shape) ∨ ∃ planted, handler = .seed planted := by
  cases handler with
  | pause minSeconds maxSeconds => exact Or.inl ⟨true, rfl⟩
  | turnRotation eulerMin eulerMax => exact Or.inl ⟨true, rfl⟩
  | turnHeading axis angleMin angleMax => exact Or.inl ⟨true, rfl⟩
  | move distanceMin distanceMax => exact Or.inl ⟨false, rfl⟩
  | leaf shape => exact Or.inl ⟨false, rfl⟩
  | fork closing => exact Or.inr (Or.inl ⟨closing, rfl⟩)
  | branch shape => exact Or.inr (Or.inr (Or.inl ⟨shape, rfl⟩))
  | seed planted => exact Or.inr (Or.inr (Or.inr ⟨planted, rfl⟩))
  | host foreign => exact foreign.elim

/-! ## Forks -/

/-- **A fork hands on two chains, or its chain is lost.** -/
theorem World.fork_eq (h : bundle.Follows seed)
    (hs : bundle.find? Key.sentence = some (.sentence s)) (closing : Char) {opening : Char}
    (hnode : (w.nodes.get? node).map (·.symbol) = some opening) :
    w.fork closing node bundle =
      match s.takeBranch opening closing with
      | (.ok interior, residue) =>
        { world := w
          tasks := [.carryOn node { core := seed.core residue, bundle },
            .carryOn node { core := seed.core interior, bundle }, .destroy node] }
      | (.error cause, _) => { world := (w.warn (.forkFailed node cause)).destroy node } := by
  rw [World.fork, World.coreOrWarn_eq h hs]
  simp only [hnode, Option.getD_some]
  rfl

theorem World.routine_fork (w : World H) (closing : Char) (node : NodeId) (bundle : Bundle H) :
    ∀ task ∈ (w.fork closing node bundle).allTasks, task.Routine := by
  unfold World.fork World.coreOrWarn
  intro task htask
  cases hcore : bundle.core with
  | error missing =>
    simp only [hcore, Effect.allTasks] at htask
    cases htask
  | ok core =>
    simp only [hcore] at htask
    split at htask
    · simp only [Effect.allTasks, List.mem_cons, List.not_mem_nil, or_false] at htask
      rcases htask with rfl | rfl | rfl
      · exact .carryOn node _
      · exact .carryOn node _
      · exact .destroy node
    · cases htask

/-! ## Branches -/

/-- Would the next branch of a chain be too short or too thin? -/
def Bundle.stunts (bundle : Bundle H) (shape : BranchShape) : Bool :=
  (bundle.float? Key.branchLength).getD shape.startLength < shape.lengthCutoff ||
    (bundle.float? Key.branchRadius).getD shape.startRadius < shape.radiusCutoff

/-- How a branch has its tip attended to, before it grows: if the symbol for the tip is bound, its
handler acts at a dead node. -/
inductive World.AttendsTip (registry : Registry H) (shape : BranchShape) (bundle : Bundle H)
    (baked : Bool) (later : World H) : List (Task H) → Prop where
  | none (h : shape.tipSymbol.bind registry.find? = none) :
      AttendsTip registry shape bundle baked later []
  | call {symbol : Char} {prototype : Prototype H} {tip : NodeId} {state : Node}
      (hsymbol : shape.tipSymbol = some symbol) (hfind : registry.find? symbol = some prototype)
      (htip : later.nodes.get? tip = some state) (hstate : state.symbol = symbol)
      (hdead : state.dead = true) :
      AttendsTip registry shape bundle baked later [.call prototype.handler tip bundle baked]

/-- A branch that grows, and all that it sets off. -/
structure World.Branches (w : World H) (core : Core H) (shape : BranchShape) (node : NodeId)
    (bundle : Bundle H) (baked : Bool) (growth : Elongation H) (tipTasks : List (Task H))
    (effect : Effect H) : Prop where
  tip : World.AttendsTip core.registry shape bundle baked effect.world tipTasks
  node : growth.node = node
  work : growth.work = some { core, bundle }
  tasks : effect.tasks =
    tipTasks ++ (if baked then [.carryTip growth, .ripen growth] else [.carryTip growth])
  continuation : effect.continuation = if baked then none else some (.branch growth)
  calm : w.Calm effect.world

theorem World.attendsTip_attachTip (w : World H) (owner : NodeId) (registry : Registry H)
    (bundle : Bundle H) (baked : Bool) {symbol : Char} {shape : BranchShape}
    (hsymbol : shape.tipSymbol = some symbol) :
    (w.attachTip owner registry symbol bundle baked).2.1.AttendsTip registry shape bundle baked
        (w.attachTip owner registry symbol bundle baked).2.2 ∧
      w.Calm (w.attachTip owner registry symbol bundle baked).2.1 := by
  rw [World.attachTip]
  cases hfind : registry.find? symbol with
  | none =>
    refine ⟨AttendsTip.none ?_, (Quiet.warn w _ rfl).calm⟩
    rw [hsymbol, Option.bind_some, hfind]
  | some prototype =>
    refine ⟨?_, Calm.of_eq rfl rfl⟩
    obtain ⟨made, hmade, hmark⟩ := w.nodes.get?_addNode_size
      { symbol, name := prototype.name, previous := some owner, ethereal := prototype.ethereal
        baked, prefab := prototype.prefab }
    exact AttendsTip.call hsymbol hfind (Arena.get?_kill hmade) (congrArg Mark.symbol hmark) rfl

/-- **What a branch does**: nothing if it would be too short or too thin, and otherwise it grows. -/
theorem World.branch_cases {core : Core H} {heading : Vec3} (hcore : bundle.core = .ok core)
    (hheading : bundle.vec3? Key.heading = some heading) (shape : BranchShape) (w : World H)
    (node : NodeId) (baked : Bool) :
    ((bundle.stunts shape = true ∨ w.nodes.get? node = none) ∧
        w.branch shape node bundle baked = { world := w }) ∨
      (bundle.stunts shape = false ∧ ∃ growth tipTasks,
        w.Branches core shape node bundle baked growth tipTasks
          (w.branch shape node bundle baked)) := by
  rw [World.branch, World.coreOrWarn, hcore, hheading]
  cases hstunts : bundle.stunts shape with
  | true =>
    refine Or.inl ⟨Or.inl rfl, ?_⟩
    rw [Bundle.stunts] at hstunts
    simp only [hstunts, if_true]
  | false =>
    rw [Bundle.stunts] at hstunts
    simp only [hstunts, Bool.false_eq_true, if_false]
    cases hnode : w.nodes.get? node with
    | none => exact Or.inl ⟨Or.inr rfl, rfl⟩
    | some state =>
      refine Or.inr ⟨trivial, ?_⟩
      have hplaced := (Quiet.place w node (·.face heading)).calm
      cases hsymbol : shape.tipSymbol with
      | none =>
        have htip : ∀ later : World H, later.AttendsTip core.registry shape bundle baked [] :=
          fun later => AttendsTip.none (by rw [hsymbol]; rfl)
        cases baked with
        | true => exact ⟨_, [], htip _, rfl, rfl, rfl, rfl, hplaced⟩
        | false => exact ⟨_, [], htip _, rfl, rfl, rfl, rfl, hplaced⟩
      | some symbol =>
        obtain ⟨htip, hcalm⟩ := World.attendsTip_attachTip
          (w.mapNodes (·.place node (·.face heading))) node core.registry bundle baked hsymbol
        cases baked with
        | true => exact ⟨_, _, htip, rfl, rfl, rfl, rfl, hplaced.trans hcalm⟩
        | false => exact ⟨_, _, htip, rfl, rfl, rfl, rfl, hplaced.trans hcalm⟩

/-- The same for a bundle of a seed's plant. -/
theorem World.branch_cases_of_follows (h : bundle.Follows seed)
    (hs : bundle.find? Key.sentence = some (.sentence s)) (shape : BranchShape) (w : World H)
    (node : NodeId) (baked : Bool) :
    ((bundle.stunts shape = true ∨ w.nodes.get? node = none) ∧
        w.branch shape node bundle baked = { world := w }) ∨
      (bundle.stunts shape = false ∧ ∃ growth tipTasks,
        w.Branches (seed.core s) shape node bundle baked growth tipTasks
          (w.branch shape node bundle baked)) := by
  obtain ⟨heading, hheading⟩ := h.heading
  exact World.branch_cases (h.core_eq hs) (Bundle.vec3?_of_find? hheading) shape w node baked

/-! ## Seeds -/

/-- A seed starts its plant, or places structure that is there already. -/
structure Seed.Starts (planted : Seed H) (w : World H) (node : NodeId) (bundle : Bundle H)
    (effect : Effect H) : Prop where
  tasks : ∀ task ∈ effect.tasks, (∃ position, task = .carryOn node (planted.chain position bundle)) ∨
    ∃ prefab, task = .publish prefab
  continuation : effect.continuation = none
  calm : w.Calm effect.world

theorem Seed.mem_startChain (planted : Seed H) (w : World H) (node : NodeId) (bundle : Bundle H)
    {task : Task H} (h : task ∈ (planted.startChain w node bundle).2) :
    ∃ position, task = .carryOn node (planted.chain position bundle) := by
  rw [Seed.startChain] at h
  by_cases hexecuted : planted.executed = true
  · rw [if_pos hexecuted] at h
    cases h
  · rw [if_neg hexecuted] at h
    exact ⟨_, List.mem_singleton.mp h⟩

theorem Seed.routine_startChain (planted : Seed H) (w : World H) (node : NodeId)
    (bundle : Bundle H) : ∀ task ∈ (planted.startChain w node bundle).2, task.Routine := by
  intro task htask
  obtain ⟨position, rfl⟩ := planted.mem_startChain w node bundle htask
  exact .carryOn node _

theorem World.calm_emerge (w : World H) (variation : Variation) (node : NodeId) :
    w.Calm (w.emerge variation node) := by
  rw [World.emerge]
  split
  · exact Calm.refl w
  · split
    · exact Calm.refl w
    · refine ⟨rfl, fun work h => ?_⟩
      rw [World.park, Array.toList_push] at h
      rcases List.mem_append.mp h with hold | hnew
      · exact Or.inl hold
      · exact Or.inr ⟨_, List.mem_singleton.mp hnew⟩

theorem World.calm_placeInstance (w : World H) (identifier : String) (prototype : NodeId)
    (parent : Option NodeId) (placement : Transform) (variation : Variation) :
    w.Calm (w.placeInstance identifier prototype parent placement variation) := by
  rw [World.placeInstance]
  split
  · exact Calm.of_eq rfl rfl
  · refine Calm.trans ?_ (World.calm_emerge _ variation _)
    exact Calm.of_eq rfl rfl

theorem World.calm_publish (w : World H) (prefab : Prefab) : w.Calm (w.publish prefab) := by
  rw [World.publish]
  generalize (w.nodes.moveToOrigin prefab.node).copySubtree prefab.node prefab.anchor
    prefab.placement = copied
  generalize w.prefabs.register prefab.identifier prefab.node = registration
  obtain ⟨copy, nodes⟩ := copied
  obtain ⟨registered, prefabs⟩ := registration
  obtain ⟨frozen, hfrozen⟩ : ∃ frozen : World H, frozen = { w with
      nodes := (nodes.freeze prefab.node).rename prefab.node ("Prototype_" ++ prefab.identifier)
      prefabs } := ⟨_, rfl⟩
  have hkept : w.Calm frozen := by
    rw [hfrozen]
    exact Calm.of_eq rfl rfl
  simp only [← hfrozen]
  cases registered with
  | ok _ =>
    cases copy with
    | none => exact hkept
    | some root =>
      refine Calm.trans ?_ (World.calm_emerge _ _ root)
      exact hkept.trans (Calm.of_eq rfl rfl)
  | error cause =>
    have hwarned := hkept.trans
      (Quiet.warn frozen (.bakeRefused prefab.node cause) rfl).calm
    cases copy with
    | none => exact hwarned
    | some root =>
      refine Calm.trans ?_ (World.calm_emerge _ _ root)
      exact hwarned.trans (Calm.of_eq rfl rfl)

theorem World.starts_seedLive (planted : Seed H) (w : World H) (node : NodeId)
    (bundle : Bundle H) : planted.Starts w node bundle (w.seedLive planted node bundle).2 := by
  rw [World.seedLive]
  split
  · exact ⟨fun task h => (by cases h), rfl, Calm.refl w⟩
  · exact ⟨fun task h => Or.inl (planted.mem_startChain w node bundle h), rfl, Calm.refl w⟩

theorem World.starts_seedBaked (planted : Seed H) (w : World H) (node : NodeId)
    (bundle : Bundle H) : planted.Starts w node bundle (w.seedBaked planted node bundle).2 := by
  have hnothing : ∀ later : World H, w.Calm later →
      planted.Starts w node bundle { world := later } :=
    fun later h => ⟨fun task h => (by cases h), rfl, h⟩
  rw [World.seedBaked]
  split
  · exact hnothing w (Calm.refl w)
  · split
    · exact hnothing w (Calm.refl w)
    · split
      · exact ⟨fun task h => Or.inl (planted.mem_startChain w node bundle h), rfl, Calm.refl w⟩
      · simp only []
        split
        · refine hnothing _ (Calm.trans ?_ (World.calm_placeInstance _ _ _ _ _ _))
          exact Calm.of_eq rfl rfl
        · exact hnothing _ (Calm.of_eq rfl rfl)
        · refine ⟨fun task h => ?_, rfl, Calm.of_eq rfl rfl⟩
          rcases List.mem_append.mp h with hchain | hpublish
          · exact Or.inl (planted.mem_startChain _ node bundle hchain)
          · exact Or.inr ⟨_, List.mem_singleton.mp hpublish⟩

/-- A seed that was not used before starts its chain, at a node that is alive and not shared. -/
theorem World.perform_call_seed [Host H] {planted : Seed H} (hfresh : planted.executed = false)
    {state : Node} (hnode : w.nodes.get? node = some state) (hdead : state.dead = false)
    (hprefab : state.prefab = none) (bundle : Bundle H) (baked : Bool) :
    ∃ position, w.perform (.call (.seed planted) node bundle baked) =
      (w, [.carryOn node (planted.chain position bundle)]) := by
  refine ⟨state.transform.position, ?_⟩
  have hstart : planted.startChain w node bundle = ({ planted with executed := true },
      [.carryOn node (planted.chain state.transform.position bundle)]) := by
    simp only [Seed.startChain, hfresh, Bool.false_eq_true, if_false, hnode, Option.map_some,
      Option.getD_some]
  cases baked with
  | true =>
    have hseed : w.seedBaked planted node bundle = ({ planted with executed := true },
        { world := w, tasks := [.carryOn node (planted.chain state.transform.position bundle)] }) := by
      simp only [World.seedBaked, hnode, hdead, Bool.false_eq_true, if_false, hprefab, hstart]
    simp only [World.perform, Handler.call, if_true, hseed]
    rfl
  | false =>
    have halive : w.nodes.isDead node = false := by
      simp only [Arena.isDead, hnode, hdead]
    have hseed : w.seedLive planted node bundle = ({ planted with executed := true },
        { world := w, tasks := [.carryOn node (planted.chain state.transform.position bundle)] }) := by
      simp only [World.seedLive, halive, Bool.false_eq_true, if_false, hstart]
    simp only [World.perform, Handler.call, Bool.false_eq_true, if_false, hseed]
    rfl

/-- **A seed's effect is the start of its chain, or none.** -/
theorem Handler.starts_call [Host H] (planted : Seed H) (w : World H) (node : NodeId)
    (bundle : Bundle H) (baked : Bool) :
    planted.Starts w node bundle ((Handler.seed planted).call w node bundle baked).2 := by
  cases baked with
  | true => exact World.starts_seedBaked planted w node bundle
  | false => exact World.starts_seedLive planted w node bundle

/-! ## Continuations -/

/-- The chain that a continuation will hand on. -/
def Continuation.chain? : Continuation H → Option (Chain H)
  | .dispatch next => next.work
  | .wait delay => delay.work
  | .branch growth => growth.work
  | .leaf unfolding => unfolding.work
  | .emergence _ => none
  | .host _ => none

theorem Continuation.Keeps.chain?_eq {chain : Chain H} {gone : Bool} {work : Continuation H}
    (h : work.Keeps chain node gone) : work.chain? = some chain := by
  cases h with
  | wait _ hwork => exact hwork
  | leaf _ hwork => exact hwork

/-- The node after which a continuation will hand its chain on. -/
def Continuation.anchor? : Continuation H → Option NodeId
  | .dispatch next => some next.predecessor
  | .wait delay => some delay.node
  | .branch growth => some growth.node
  | .leaf unfolding => some unfolding.node
  | .emergence _ => none
  | .host _ => none

/-- What a chain hands on keeps to the chain's plant. -/
def Chain.Leads (chain later : Chain H) : Prop :=
  later.core = chain.core ∧
    ∀ seed : Seed H, chain.bundle.Follows seed → Bundle.Succeeds seed chain.bundle later.bundle

theorem Chain.Leads.refl (chain : Chain H) : chain.Leads chain := ⟨rfl, fun _ h => h.succeeds⟩

theorem Elongation.leads_handOn (growth : Elongation H) (chain : Chain H) :
    chain.Leads { chain with bundle := growth.handOn chain.bundle } :=
  ⟨rfl, fun _ h => growth.succeeds_handOn h.succeeds⟩

theorem Unfolding.leads_handOn (unfolding : Unfolding H) (chain : Chain H) :
    chain.Leads { chain with bundle := unfolding.handOn chain.bundle } :=
  ⟨rfl, fun _ h => unfolding.succeeds_handOn h.succeeds⟩

/-- **A continuation that keeps a chain goes on keeping it or hands it on**, unless it is that of a
leaf that is gone. -/
theorem Continuation.Keeps.resume [Host H] {chain : Chain H} {gone : Bool} {work : Continuation H}
    {state : Node} (h : work.Keeps chain node gone) (hnode : w.nodes.get? node = some state)
    (hpresent : gone = false → state.destroyed = false) :
    w.Quiet (work.resume w).world ∧
      (((work.resume w).step = .pending ∧ (work.resume w).tasks = [] ∧
          (work.resume w).continuation.Keeps chain node gone) ∨
        ((work.resume w).step = .complete ∧ ∃ task later, chain.Leads later ∧
          (task = .advance node later false ∨ task = .carryOn node later) ∧
          (work.resume w).tasks = task :: Task.passing gone node)) := by
  cases h with
  | @wait delay hdelay hwork =>
    simp only [Continuation.resume, Delay.resume]
    by_cases hearly : w.time < delay.deadline
    · simp only [if_pos hearly]
      exact ⟨World.Quiet.refl w, Or.inl ⟨trivial, trivial, Keeps.wait hdelay hwork⟩⟩
    · simp only [if_neg hearly, hwork, hdelay]
      exact ⟨World.Quiet.refl w,
        Or.inr ⟨trivial, _, chain, Chain.Leads.refl chain, Or.inl rfl, rfl⟩⟩
  | @leaf unfolding hunfolding hwork =>
    simp only [Continuation.resume, Unfolding.resume, hunfolding, hnode, hpresent rfl]
    by_cases hgrowing : unfolding.elapsed < unfolding.growTime
    · simp only [Bool.false_eq_true, if_false, if_pos hgrowing]
      exact ⟨Unfolding.quiet_record _ w _, Or.inl ⟨trivial, trivial, Keeps.leaf rfl hwork⟩⟩
    · simp only [Bool.false_eq_true, if_false, if_neg hgrowing, Unfolding.finish, hwork, hunfolding]
      exact ⟨Unfolding.quiet_record _ w _,
        Or.inr ⟨trivial, _, _, unfolding.leads_handOn chain, Or.inr rfl, rfl⟩⟩

/-! ### Branches that grow -/

namespace Elongation

theorem quiet_carryTip (growth : Elongation H) (w : World H) : w.Quiet (growth.carryTip w) := by
  rw [carryTip]
  split
  · exact World.Quiet.place w _ _
  · exact World.Quiet.refl w

theorem quiet_measure (growth : Elongation H) (w : World H) (distance : Float) :
    w.Quiet (growth.measure w distance) := by
  refine World.Quiet.mapNodes ?_
  exact Arena.marks_modify_of_kept fun _ => rfl

/-- Without parts of a host, a branch tells its radius to other branches only. -/
theorem quiet_tellRadius (growth : Elongation Empty) (w : World Empty) :
    w.Quiet (growth.tellRadius w) := by
  rw [tellRadius]
  split
  next callback _ =>
    cases callback with
    | topRadius node factor =>
      rw [World.signal]
      refine World.Quiet.mapNodes ?_
      exact Arena.marks_modify_of_kept fun _ => rfl
    | host callback => exact callback.elim
  · exact World.Quiet.refl w

/-- Recording the dimensions of a branch and telling them is quiet. -/
theorem quiet_record (growth : Elongation Empty) {w later : World Empty} (h : w.Quiet later)
    (distance : Float) : w.Quiet (growth.tellRadius (growth.measure later distance)) :=
  (h.trans (growth.quiet_measure later distance)).trans (growth.quiet_tellRadius _)

theorem quiet_finish (growth : Elongation Empty) (w : World Empty) :
    w.Quiet (growth.finish w).world := by
  simp only [finish]
  exact quiet_record _ (growth.quiet_carryTip w) _

/-- The task that a branch which is full-grown puts in its place. -/
theorem exists_of_mem_finish (growth : Elongation Empty) (w : World Empty) {task : Task Empty}
    (h : task ∈ (growth.finish w).tasks) :
    ∃ chain later, growth.work = some chain ∧ chain.Leads later ∧
      task = .carryOn growth.node later := by
  simp only [finish] at h
  cases hwork : growth.work with
  | none =>
    rw [hwork] at h
    cases h
  | some chain =>
    rw [hwork] at h
    exact ⟨chain, _, rfl, leads_handOn _ chain, List.mem_singleton.mp h⟩

theorem quiet_ripen (growth : Elongation Empty) (w : World Empty) :
    w.Quiet (growth.ripen w).1 :=
  (World.Quiet.place w growth.node fun t =>
    { t with position := growth.origin.add (growth.direction.scale growth.length) }).trans
      (growth.quiet_finish _)

theorem exists_of_mem_ripen (growth : Elongation Empty) (w : World Empty) {task : Task Empty}
    (h : task ∈ (growth.ripen w).2) :
    ∃ chain later, growth.work = some chain ∧ chain.Leads later ∧
      task = .carryOn growth.node later :=
  growth.exists_of_mem_finish (w.mapNodes (·.place growth.node fun t =>
    { t with position := growth.origin.add (growth.direction.scale growth.length) })) h

end Elongation

/-! ### Resuming -/

namespace Continuation

/-- **Resuming changes what is drawn only.** -/
theorem quiet_resume (work : Continuation Empty) (w : World Empty) :
    w.Quiet (work.resume w).world := by
  have hresumes := work.resumes w
  generalize work.resume w = resumption at hresumes ⊢
  cases hresumes with
  | grown growth => exact growth.quiet_finish w
  | grows growth radius distance offset =>
    exact Elongation.quiet_record _
      ((World.Quiet.place w _ _).trans (Elongation.quiet_carryTip _ _)) _
  | unfolds unfolding elapsed blade => exact Unfolding.quiet_record _ w blade
  | unfolded unfolding blade => exact Unfolding.quiet_record unfolding w blade
  | emerges scaling done elapsed scale => exact World.Quiet.place w _ _
  | host work => exact work.elim
  | _ => exact World.Quiet.refl w

/-- **A continuation sets off nothing but its chain**, and the end of its node. -/
theorem exists_of_mem_resume (work : Continuation Empty) (w : World Empty) {task : Task Empty}
    (h : task ∈ (work.resume w).tasks) :
    (∃ node, task = .destroy node) ∨ ∃ node chain later, work.anchor? = some node ∧
      work.chain? = some chain ∧ chain.Leads later ∧
        ((∃ baked, task = .advance node later baked) ∨ task = .carryOn node later) := by
  have hresumes := work.resumes w
  generalize work.resume w = resumption at hresumes h
  cases hresumes with
  | due next =>
    cases hwork : next.work with
    | none =>
      simp only [hwork] at h
      cases h
    | some chain =>
      simp only [hwork] at h
      exact Or.inr ⟨_, chain, chain, rfl, hwork, Chain.Leads.refl chain,
        Or.inl ⟨_, List.mem_singleton.mp h⟩⟩
  | late delay =>
    cases hwork : delay.work with
    | none =>
      simp only [hwork] at h
      exact Or.inl ⟨_, List.mem_singleton.mp h⟩
    | some chain =>
      simp only [hwork] at h
      rcases List.mem_cons.mp h with rfl | h
      · exact Or.inr ⟨_, chain, chain, rfl, hwork, Chain.Leads.refl chain, Or.inl ⟨_, rfl⟩⟩
      · exact Or.inl ⟨_, List.mem_singleton.mp h⟩
  | grown growth =>
    obtain ⟨chain, later, hwork, hleads, rfl⟩ := growth.exists_of_mem_finish w h
    exact Or.inr ⟨_, chain, later, rfl, hwork, hleads, Or.inr rfl⟩
  | unfolded unfolding blade =>
    simp only [Unfolding.finish] at h
    cases hwork : unfolding.work with
    | none =>
      rw [hwork] at h
      cases h
    | some chain =>
      rw [hwork] at h
      exact Or.inr ⟨_, chain, _, rfl, hwork, unfolding.leads_handOn chain,
        Or.inr (List.mem_singleton.mp h)⟩
  | host work => exact work.elim
  | _ => cases h

/-- A continuation that is resumed stays where it is. -/
theorem anchor?_resume (work : Continuation Empty) (w : World Empty) :
    (work.resume w).continuation.anchor? = work.anchor? := by
  have hresumes := work.resumes w
  generalize work.resume w = resumption at hresumes ⊢
  cases hresumes with
  | host work => exact work.elim
  | _ => rfl

/-- A continuation that was resumed keeps its chain, if it keeps any. -/
theorem chain?_of_resume (work : Continuation Empty) (w : World Empty) {chain : Chain Empty}
    (h : (work.resume w).continuation.chain? = some chain) : work.chain? = some chain := by
  have hresumes := work.resumes w
  generalize work.resume w = resumption at hresumes h
  cases hresumes with
  | early delay => exact h
  | lostBranch growth => exact h
  | grows growth radius distance offset => exact h
  | lostLeaf unfolding => exact h
  | unfolds unfolding elapsed blade => exact h
  | host work => exact work.elim
  | _ => cases h

end Continuation

end

end PlantGrowth
