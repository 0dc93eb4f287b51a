import PlantGrowth.Proofs.Enclosing
import PlantGrowth.Proofs.Moments

/-!
# Chains are well-formed

A handler reads its chain's bundle and may find an entry missing, or of the wrong kind. Then it warns
and gives up. `Garden.chains_well_formed` says that this never happens in a garden: every bundle that
a handler is called with or that waits has all entries of the innermost plant around it, and counts a
generation of that plant's.

The handler of the root is called with an empty bundle, which it does not read. So it is left out.
-/

namespace PlantGrowth

/-! ## Faults -/

/-- Does it say that a bundle lacks one of the entries that all bundles of a plant have? -/
def Warning.isFault : Warning → Bool
  | .missingCore .. => true
  | .nothingToTurn _ key => key == Key.heading
  | .nothingToFollow _ => true
  | .noHeading _ => true
  | .wrongSentenceKind _ => true
  | _ => false

namespace World

/-- The warnings that a bundle lacks an entry. -/
def faults (w : World Empty) : List Warning := w.warnings.toList.filter Warning.isFault

variable {w later : World Empty} {seed : Seed Empty} {bundle : Bundle Empty} {s : Sentence}
  {node : NodeId} {baked : Bool}

theorem faults_of_warnings (h : later.warnings = w.warnings) : later.faults = w.faults := by
  rw [faults, h, faults]

theorem faults_warn (w : World Empty) {warning : Warning} (h : warning.isFault = false) :
    (w.warn warning).faults = w.faults := by
  rw [faults, warn, Array.toList_push, List.filter_append, List.filter_singleton, h]
  exact List.append_nil _

/-! ### Handlers that hand their chain on -/

theorem faults_turnRotation {core : Core Empty} (hcore : bundle.core = .ok core) (eulerMin eulerMax : Vec3) :
    (w.turnRotation eulerMin eulerMax node bundle).world.faults = w.faults := by
  unfold turnRotation andDestroy
  rw [hcore]
  dsimp only
  split
  · rfl
  · exact w.faults_warn (show (Key.rotation == Key.heading) = false by decide)

theorem faults_turnHeading {core : Core Empty} (hcore : bundle.core = .ok core) {heading : Vec3}
    (hheading : bundle.vec3? Key.heading = some heading) (axis : Vec3) (angleMin angleMax : Float) :
    (w.turnHeading axis angleMin angleMax node bundle).world.faults = w.faults := by
  unfold turnHeading andDestroy
  rw [hcore, hheading]
  rfl

theorem faults_move {core : Core Empty} (hcore : bundle.core = .ok core) {heading : Vec3}
    (hheading : bundle.vec3? Key.heading = some heading) (distanceMin distanceMax : Float) :
    (w.move distanceMin distanceMax node bundle).world.faults = w.faults := by
  unfold move
  rw [hcore, hheading]
  rfl

theorem faults_pause {core : Core Empty} (hcore : bundle.core = .ok core) (minSeconds maxSeconds : Float) :
    (w.pause minSeconds maxSeconds node bundle baked).world.faults = w.faults := by
  unfold pause coreOrWarn
  rw [hcore]
  cases baked with
  | true => rfl
  | false => rfl

theorem faults_bakedOutline (w : World Empty) (unfolding : Unfolding Empty) :
    (w.bakedOutline unfolding).2.faults = w.faults := by
  unfold bakedOutline
  split
  · rfl
  · split
    · rfl
    · split
      · rfl
      · rfl

theorem faults_leaf {core : Core Empty} (hcore : bundle.core = .ok core) {heading : Vec3}
    (hheading : bundle.vec3? Key.heading = some heading) (shape : LeafShape) :
    (w.leaf shape node bundle baked).world.faults = w.faults := by
  unfold leaf coreOrWarn
  rw [hcore, hheading]
  obtain ⟨checked, hchecked⟩ : ∃ checked : World Empty, checked = (if shape.hasSegments then w
      else w.warn (.noSegments node shape.medialSegments shape.lateralSegments)) := ⟨_, rfl⟩
  have hfaults : checked.faults = w.faults := by
    rw [hchecked]
    split
    · rfl
    · exact w.faults_warn rfl
  simp only [← hchecked]
  split
  · split
    · exact (faults_bakedOutline _ _).trans hfaults
    · split
      · exact hfaults
      · exact hfaults
  · exact hfaults

/-! ### Other handlers -/

theorem faults_fork {closing opening : Char} (h : bundle.Follows seed)
    (hs : bundle.find? Key.sentence = some (.sentence s))
    (hopening : (w.nodes.get? node).map (·.symbol) = some opening) :
    (w.fork closing node bundle).world.faults = w.faults := by
  rw [World.fork_eq h hs closing hopening]
  split
  · rfl
  · exact w.faults_warn rfl

theorem faults_branch (h : bundle.Follows seed) (hs : bundle.find? Key.sentence = some (.sentence s))
    (shape : BranchShape) {state : Node} (hnode : w.nodes.get? node = some state) :
    (w.branch shape node bundle baked).world.faults = w.faults := by
  obtain ⟨heading, hheading⟩ := h.heading
  rcases World.branch_eq (h.core_eq hs) (Bundle.vec3?_of_find? hheading) shape hnode baked with
    hnothing | ⟨placed, grow, rfl, -, ⟨-, hworld, -⟩ | ⟨symbol, -, hworld, -⟩⟩
  · rw [hnothing]
  · rw [hworld]
    rfl
  · rw [hworld]
    cases hfind : seed.registry.find? symbol with
    | none =>
      rw [World.attachTip_of_none hfind]
      exact faults_warn _ rfl
    | some prototype =>
      rw [World.attachTip_of_some hfind]
      rfl

theorem faults_emerge (w : World Empty) (variation : Variation) (id : NodeId) :
    (w.emerge variation id).faults = w.faults := by
  rcases w.emerge_cases variation id with heq | ⟨-, scaling, state, -, -, -, heq⟩
  · rw [heq]
  · rw [heq]
    rfl

theorem faults_placeInstance (w : World Empty) (identifier : String) (root : NodeId)
    (parent : Option NodeId) (placement : Transform) (variation : Variation) :
    (w.placeInstance identifier root parent placement variation).faults = w.faults := by
  unfold placeInstance
  split
  · rfl
  · exact faults_emerge _ _ _

theorem faults_publish {prefab : Prefab} {rest : List (Task Empty)} {works : List (Continuation Empty)}
    (h : w.Orderly (.publish prefab :: rest) works) : (w.publish prefab).faults = w.faults := by
  obtain ⟨state, hripe, hanchor⟩ := h.ripe
  have hclaimed : w.prefabs.find? prefab.identifier = some .claimed :=
    (h.claimed _).mpr (List.mem_filterMap.mpr ⟨_, List.mem_cons_self, rfl⟩)
  rw [publish_eq hripe hanchor hclaimed, faults_emerge]
  exact faults_of_warnings (by simp only [registered])

theorem faults_seed (planted : Seed Empty) (w : World Empty) (node : NodeId) (bundle : Bundle Empty)
    (baked : Bool) : (w.perform (.call (.seed planted) node bundle baked)).1.faults = w.faults := by
  cases baked with
  | false =>
    show (w.seedLive planted node bundle).2.world.faults = _
    unfold seedLive
    split
    · rfl
    · rfl
  | true =>
    show (w.seedBaked planted node bundle).2.world.faults = _
    unfold seedBaked
    split
    · rfl
    · split
      · rfl
      · split
        · rfl
        · dsimp only
          split
          · exact faults_placeInstance _ _ _ _ _ _
          · rfl
          · rfl

/-! ### Any task -/

theorem faults_tellRadius (growth : Elongation Empty) (w : World Empty) (distance : Float) :
    (growth.tellRadius (growth.measure w distance)).faults = w.faults := by
  unfold Elongation.tellRadius
  split
  next callback _ =>
    cases callback with
    | topRadius node factor => rfl
    | host callback => exact callback.elim
  next => rfl

theorem faults_carryTip (growth : Elongation Empty) (w : World Empty) :
    (growth.carryTip w).faults = w.faults := by
  unfold Elongation.carryTip
  split
  · rfl
  · rfl

theorem faults_finish (growth : Elongation Empty) (w : World Empty) :
    (growth.finish w).world.faults = w.faults :=
  (faults_tellRadius { growth with bottomRadius := growth.radius } _ _).trans (faults_carryTip growth w)

/-- **No task meets a bundle that lacks an entry.** -/
theorem Orderly.faults_perform {task : Task Empty} {rest : List (Task Empty)}
    {works : List (Continuation Empty)} (h : w.Orderly (task :: rest) works)
    (hheads : Law.planned.Heads w task) : (w.perform task).1.faults = w.faults := by
  rcases hheads with hobeys | ⟨handler, node, bundle, baked, rfl, hcalls⟩
  · cases task with
    | advance predecessor chain baked =>
      show (w.advance predecessor chain baked).1.faults = _
      rw [fst_advance]
    | search predecessor chain baked =>
      have hfinds := w.finds_search predecessor chain baked
      show (w.search predecessor chain baked).1.faults = _
      generalize w.search predecessor chain baked = next at hfinds
      cases hfinds with
      | last _ _ => rfl
      | blank _ _ => rfl
      | ended _ _ => rfl
      | exhausted _ _ _ => rfl
      | found hcurrent hreading =>
        obtain ⟨-, -, -, -, -, heq⟩ :=
          Law.sound_planned.dispatch_of_found hobeys hcurrent hreading predecessor baked
        rw [heq]
        rfl
    | call handler node bundle baked => exact hobeys.elim
    | carryOn node chain =>
      show (w.carryOn node chain).1.faults = _
      rcases w.carryOn_cases node chain with ⟨heq, -⟩ | ⟨heq, -⟩
      · rw [heq]
      · rw [heq]
        rfl
    | destroy node => rfl
    | park work => rfl
    | carryTip growth => exact faults_carryTip growth w
    | ripen growth => exact faults_finish growth _
    | publish prefab => exact faults_publish h
  · cases hcalls with
    | root _ _ => exact faults_seed _ w node bundle baked
    | @bound seed symbol prototype s state _ hfollows hs _ _ hnode _ =>
      have hcore := hfollows.core_eq hs
      obtain ⟨heading, hheading⟩ := hfollows.heading
      replace hheading := Bundle.vec3?_of_find? hheading
      generalize prototype.handler = handler
      cases handler with
      | pause minSeconds maxSeconds => exact faults_pause hcore minSeconds maxSeconds
      | turnRotation eulerMin eulerMax => exact faults_turnRotation hcore eulerMin eulerMax
      | turnHeading axis angleMin angleMax => exact faults_turnHeading hcore hheading axis angleMin angleMax
      | move distanceMin distanceMax => exact faults_move hcore hheading distanceMin distanceMax
      | leaf shape => exact faults_leaf hcore hheading shape
      | fork closing => exact faults_fork hfollows hs (congrArg (Option.map (·.symbol)) hnode)
      | branch shape => exact faults_branch hfollows hs shape hnode
      | seed planted => exact faults_seed planted w node bundle baked
      | host foreign => exact foreign.elim

end World

/-- A continuation that is resumed does not warn. -/
theorem Continuation.faults_resume (work : Continuation Empty) (w : World Empty) :
    (work.resume w).world.faults = w.faults := by
  have hresumes := work.resumes w
  generalize work.resume w = resumption at hresumes ⊢
  cases hresumes with
  | grown growth => exact World.faults_finish growth w
  | grows growth radius distance offset =>
    exact (World.faults_tellRadius _ _ _).trans (World.faults_carryTip growth _)
  | host work => exact work.elim
  | _ => rfl

/-- A continuation with a chain hands it on after a node. -/
theorem Continuation.exists_anchor? {work : Continuation Empty} {chain : Chain Empty}
    (h : work.chain? = some chain) : ∃ id, work.anchor? = some id := by
  cases work with
  | emergence scaling => cases h
  | host work => cases h
  | _ => exact ⟨_, rfl⟩

/-! ## The whole course -/

/-- What grows after the node belongs to the plant of this seed and of no other. -/
def Arena.Innermost (a : Arena) (root seed : Seed Empty) (id : NodeId) : Prop :=
  ∀ other, a.Encloses root other id ↔ other = seed

theorem Arena.Encloses.innermost {a : Arena} {root seed : Seed Empty} {id : NodeId}
    (h : a.Encloses root seed id) : a.Innermost root seed id :=
  fun _ => ⟨h.unique, fun heq => heq ▸ h⟩

namespace Garden

/-- All bundles have what the plants around them have written, and so no warning was needed. -/
structure Moment.WellFormed (root : Seed Empty) (m : Moment) : Prop where
  /-- A handler is called with a bundle of the plant that its node is in. -/
  call : ∀ handler node bundle baked, .call handler node bundle baked ∈ m.tasks →
    (handler = .seed root ∧ node = 0 ∧ bundle = .empty) ∨
      ∃ state p seed, m.world.nodes.get? node = some state ∧ state.previous = some p ∧
        m.world.nodes.Innermost root seed p ∧ bundle.WellFormed seed ∧ ∃ core, bundle.core = .ok core
  /-- A chain that waits has a bundle of the plant that it goes on in. -/
  queued : ∀ work ∈ m.waiting ++ m.world.parked.toList, ∀ chain, work.chain? = some chain →
    ∃ id seed, work.anchor? = some id ∧ m.world.nodes.Innermost root seed id ∧
      chain.bundle.WellFormed seed
  faultless : m.world.faults = []

/-- Chains and bundles belong to their plants, and no warning was needed. -/
structure Faultless (root : Seed Empty) (w : World Empty) (tasks : List (Task Empty))
    (waiting : List (Continuation Empty)) : Prop where
  tended : Tended root w tasks waiting
  faultless : w.faults = []

theorem faultless_invariant {root : Seed Empty} (hroot : Law.planned.grows root) :
    Invariant (Faultless root) where
  perform := fun h => ⟨(tended_invariant hroot).perform h.tended,
    (h.tended.ordered.orderly.faults_perform h.tended.ordered.governs.tasks.1).trans h.faultless⟩
  resume := by
    intro w work waiting h
    exact ⟨(tended_invariant hroot).resume h.tended, (work.faults_resume w).trans h.faultless⟩
  reorder := fun hperm h => ⟨(tended_invariant hroot).reorder hperm h.tended, h.faultless⟩
  unpark := fun h => ⟨(tended_invariant hroot).unpark h.tended, h.faultless⟩
  elapse := fun seconds h => ⟨(tended_invariant hroot).elapse seconds h.tended, h.faultless⟩

theorem Faultless.wellFormed {root : Seed Empty} {m : Moment}
    (h : Faultless root m.world m.tasks m.waiting) : m.WellFormed root where
  call := by
    intro handler node bundle baked hmem
    rcases h.tended.tasks _ hmem with
      ⟨seed, p, state, prototype, hnode, hprevious, hencloses, hbundle, -, -⟩ | ⟨baked', heq⟩
    · obtain ⟨s, hs⟩ := hbundle.sentence
      exact Or.inr ⟨state, p, seed, hnode, hprevious, hencloses.innermost, hbundle, _,
        hbundle.toFollows.core_eq hs⟩
    · cases heq
      exact Or.inl ⟨rfl, rfl, rfl⟩
  queued := by
    intro work hwork chain hchain
    obtain ⟨id, hid⟩ := Continuation.exists_anchor? hchain
    obtain ⟨seed, hencloses, -, hbundle⟩ := h.tended.works work hwork id chain hid hchain
    exact ⟨id, seed, hid, hencloses.innermost, hbundle⟩
  faultless := h.faultless

variable {plan : PlantPlan} {seed : Seed Empty}

/-- **Chains stay well-formed**, whatever the plan and the settings are, between ticks and at all
stages of planting and of ticking. -/
theorem chains_well_formed (hseed : plan.seed = .ok seed) (settings : Settings) :
    (∀ garden, Reached plan settings garden →
      (Moment.start plan seed settings).Leads garden.moment) ∧
    (∀ w tasks, Underway plan settings w tasks →
      ∃ waiting, (Moment.start plan seed settings).Leads ⟨w, tasks, waiting⟩) ∧
    ∀ m, (Moment.start plan seed settings).Leads m → m.WellFormed seed := by
  have hplanned : Law.planned.grows seed := ⟨plan, trivial, hseed⟩
  refine ⟨fun garden hreached => hreached.leads hseed, fun w tasks hunderway => hunderway.leads hseed,
    fun m hm => ?_⟩
  exact ((faultless_invariant hplanned).of_leads hm ⟨tended_seedbed hseed settings, rfl⟩).wellFormed

/-- While the chain of the resting bud waits at its pause, its bundle is in generation 0. -/
theorem restingBud_wellFormed : ∃ seed : Seed Empty, restingBud.seed = .ok seed ∧
    ∃ garden, Reached restingBud {} garden ∧
      garden.queued.map (fun work => (work.anchor?, work.chain?.map (·.bundle.generation))) =
        [(some 1, some 0)] ∧ garden.moment.WellFormed seed := by
  obtain ⟨seed, hseed⟩ : ∃ seed : Seed Empty, restingBud.seed = .ok seed := ⟨_, rfl⟩
  obtain ⟨garden, hreached, hqueued⟩ : ∃ garden, Reached restingBud {} garden ∧
      garden.queued.map (fun work => (work.anchor?, work.chain?.map (·.bundle.generation))) =
        [(some 1, some 0)] :=
    ⟨_, Reached.ticked (Reached.planted (show build 10 restingBud {} = .ok (some _) from rfl))
      (show Simulation.tick 10 _ = some (_, _) from rfl), rfl⟩
  have hall := chains_well_formed hseed {}
  exact ⟨seed, hseed, garden, hreached, hqueued, hall.2.2 _ (hall.1 garden hreached)⟩

end Garden
end PlantGrowth
