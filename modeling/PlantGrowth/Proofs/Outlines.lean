import PlantGrowth.Proofs.Drawings
import PlantGrowth.Proofs.Resuming

/-!
# Leaves without segments

A shape without segments has no outline, so a leaf of that shape is not drawn: it warns, and leaves
its node bare, whether it is full-grown at once or unfolds tick by tick. The one exception is a baked
leaf under an identifier that has an outline already. What it draws then is that outline, which is of
another leaf, and its own shape is not asked.

* `World.Shows`: what is drawn at a node, and stays drawn while nested work goes on.
* `World.leaf_eq`: what a leaf without segments comes to, in each of the three modes.
* `World.leaf_without_segments`: **a leaf without segments draws nothing, or what is shared already.**
-/

namespace PlantGrowth

/-- A node shows this outline and goes on to show it in all that these tasks set off, whatever else is
to be done behind them, until another handler is called at that node. -/
def World.Shows (w : World Empty) (node : NodeId) (blade : Option Blade) (tasks : List (Task Empty)) :
    Prop :=
  ∀ rest later left, (∀ handler bundle baked, .call handler node bundle baked ∉ rest) →
    World.Comes w (tasks ++ rest) later left → (later.nodes.get? node).map (·.blade) = some blade

/-- A continuation after it has been resumed in these worlds, one after another. -/
def Continuation.after {H : Type} [Host H] (work : Continuation H) (worlds : List (World H)) :
    Continuation H :=
  worlds.foldl (fun work w => (work.resume w).continuation) work

/-! ## Outlines -/

theorem LeafShape.hasSegments_eq_false_iff {shape : LeafShape} :
    shape.hasSegments = false ↔ shape.medialSegments = 0 ∨ shape.lateralSegments = 0 := by
  rw [hasSegments, Bool.and_eq_false_iff, decide_eq_false_iff_not, decide_eq_false_iff_not,
    Nat.not_le, Nat.not_le, Nat.lt_one_iff, Nat.lt_one_iff]

theorem LeafShape.outline?_of_not_hasSegments {shape : LeafShape} (h : shape.hasSegments = false)
    (medialSize lateralSize progress : Float) : shape.outline? medialSize lateralSize progress = none := by
  rw [outline?, h]
  rfl

/-- What is stored under the identifier of a node is drawn, and nothing else is. -/
theorem World.bakedOutline_of_not_hasSegments {H : Type} {w : World H} {unfolding : Unfolding H}
    {state : Node} (h : unfolding.shape.hasSegments = false)
    (hnode : w.nodes.get? unfolding.node = some state) :
    w.bakedOutline unfolding = (state.prefab.bind w.sharedBlades.find?, w) := by
  have hnone : unfolding.outline? 1 = none := LeafShape.outline?_of_not_hasSegments h _ _ _
  rw [bakedOutline, hnode, Option.bind_some]
  cases state.prefab with
  | none => exact congrArg (·, w) hnone
  | some identifier =>
    rw [Option.bind_some]
    dsimp only
    cases w.sharedBlades.find? identifier with
    | some shared => rfl
    | none => rw [hnone]

namespace Unfolding

variable {w : World Empty} {unfolding : Unfolding Empty} {state : Node}

theorem look_record (hnode : w.nodes.get? unfolding.node = some state) (blade : Option Blade) :
    (unfolding.record w blade).nodes.look Node.blade unfolding.node = some blade := by
  refine (Arena.look_modify_self _ _ _).trans ?_
  rw [Arena.look_of_get? hnode]

theorem shows_record (hnode : w.nodes.get? unfolding.node = some state) (blade : Option Blade) :
    (unfolding.record w blade).Shows unfolding.node blade [] :=
  fun _ _ _ hrest hcomes => World.blade_of_comes hcomes (look_record hnode blade) hrest

/-- The outline that a leaf records last stays, as its chain goes on. -/
theorem shows_finish (hnode : w.nodes.get? unfolding.node = some state) (blade : Option Blade) :
    (unfolding.finish w blade).world.Shows unfolding.node blade (unfolding.finish w blade).tasks := by
  intro rest later left hrest hcomes
  refine World.blade_of_comes hcomes (look_record hnode blade) fun handler bundle baked hmem => ?_
  rcases List.mem_append.mp hmem with hmem | hmem
  · simp only [finish] at hmem
    split at hmem
    · cases List.mem_singleton.mp hmem
    · cases hmem
  · exact hrest handler bundle baked hmem

/-- What is left of a leaf is the same leaf, at the same node. -/
theorem continuation_resume (unfolding : Unfolding Empty) (w : World Empty) :
    ∃ later : Unfolding Empty, ((Continuation.leaf unfolding).resume w).continuation = .leaf later ∧
      later.node = unfolding.node ∧ later.shape = unfolding.shape := by
  have hresumes := (Continuation.leaf unfolding).resumes w
  generalize (Continuation.leaf unfolding).resume w = resumption at hresumes ⊢
  cases hresumes with
  | lostLeaf => exact ⟨_, rfl, rfl, rfl⟩
  | unfolds => exact ⟨_, rfl, rfl, rfl⟩
  | unfolded => exact ⟨_, rfl, rfl, rfl⟩

/-- However often a leaf is resumed, it is the same leaf, at the same node. -/
theorem after_leaf (unfolding : Unfolding Empty) (worlds : List (World Empty)) :
    ∃ later : Unfolding Empty, (Continuation.leaf unfolding).after worlds = .leaf later ∧
      later.node = unfolding.node ∧ later.shape = unfolding.shape := by
  induction worlds generalizing unfolding with
  | nil => exact ⟨unfolding, rfl, rfl, rfl⟩
  | cons w worlds ih =>
    obtain ⟨next, hnext, hnode, hshape⟩ := unfolding.continuation_resume w
    obtain ⟨later, hlater, hnode', hshape'⟩ := ih next
    refine ⟨later, ?_, hnode'.trans hnode, hshape'.trans hshape⟩
    rw [Continuation.after, List.foldl_cons, hnext]
    exact hlater

/-- **A leaf without segments draws nothing in a tick** in which its node is there. -/
theorem shows_resume (hshape : unfolding.shape.hasSegments = false)
    (hnode : w.nodes.get? unfolding.node = some state) (hopen : state.destroyed = false) :
    (unfolding.resume w).world.Shows unfolding.node none (unfolding.resume w).tasks := by
  simp only [resume, hnode, hopen, outline?, LeafShape.outline?_of_not_hasSegments hshape]
  split
  next hgone => cases hgone
  next =>
    split
    · exact @shows_record w { unfolding with elapsed := _ } state hnode none
    · exact shows_finish hnode none

/-- A leaf whose node is gone is done, and does nothing. -/
theorem resume_of_gone (hgone : ∀ state, w.nodes.get? unfolding.node = some state → state.destroyed = true) :
    unfolding.resume w = { step := .complete, continuation := .leaf unfolding, world := w } := by
  rw [resume]
  split
  next => rfl
  next state hstate => rw [if_pos (hgone state hstate)]

end Unfolding

namespace World

variable {w : World Empty} {shape : LeafShape} {node : NodeId} {state : Node} {bundle : Bundle Empty}
  {core : Core Empty} {heading : Vec3}

/-- **What a leaf without segments comes to**: it warns and turns its node to the heading in each mode.
A baked one ends with what is stored under the identifier of its node, a live one with nothing, at once
or when it is full-grown. -/
theorem leaf_eq (hshape : shape.hasSegments = false) (hnode : w.nodes.get? node = some state)
    (hcore : bundle.core = .ok core) (hheading : bundle.vec3? Key.heading = some heading) :
    ∃ (placed : World Empty) (unfolding : Unfolding Empty) (transform : Transform),
      placed.warnings = w.warnings.push (.noSegments node shape.medialSegments shape.lateralSegments) ∧
      placed.nodes.get? node = some { state with transform } ∧
      unfolding.node = node ∧ unfolding.shape = shape ∧
      w.leaf shape node bundle true =
        { world := (unfolding.finish placed (state.prefab.bind w.sharedBlades.find?)).world
          tasks := (unfolding.finish placed (state.prefab.bind w.sharedBlades.find?)).tasks } ∧
      w.leaf shape node bundle false =
        if shape.animate then { world := placed, continuation := some (.leaf unfolding) }
        else { world := (unfolding.finish placed none).world
               tasks := (unfolding.finish placed none).tasks } := by
  obtain ⟨unfolding, hunfolding⟩ : ∃ unfolding : Unfolding Empty, unfolding =
      { node, shape, elapsed := 0, work := some { core, bundle }
        medialSize := (bundle.float? Key.leafMedialSize).getD shape.startMedialSize
        lateralSize := (bundle.float? Key.leafLateralSize).getD shape.startLateralSize
        growTime := (bundle.float? Key.leafGrowTime).getD shape.startGrowTime } := ⟨_, rfl⟩
  obtain ⟨placed, hplaced⟩ : ∃ placed : World Empty, placed =
      (w.warn (.noSegments node shape.medialSegments shape.lateralSegments)).mapNodes
        (·.place node (·.face heading)) := ⟨_, rfl⟩
  have hat : unfolding.node = node := by rw [hunfolding]
  have hbare : unfolding.shape.hasSegments = false := by rwa [hunfolding]
  have hcontains : (w.warn (.noSegments node shape.medialSegments shape.lateralSegments)).nodes.contains
      node = true := Arena.contains_of_get? hnode
  have hget : placed.nodes.get? unfolding.node =
      some { state with transform := state.transform.face heading } := by
    rw [hat, hplaced]
    refine (Arena.get?_modify w.nodes node node _).trans ?_
    rw [if_pos rfl, hnode]
    rfl
  have hshared : placed.sharedBlades = w.sharedBlades := by
    rw [hplaced]
    rfl
  have hbaked := bakedOutline_of_not_hasSegments hbare hget
  rw [hshared] at hbaked
  have hnone : unfolding.outline? 1 = none := LeafShape.outline?_of_not_hasSegments hbare _ _ _
  refine ⟨placed, unfolding, state.transform.face heading, ?_, hat ▸ hget, hat, ?_, ?_, ?_⟩
  · rw [hplaced]
    rfl
  · rw [hunfolding]
  · simp only [leaf, coreOrWarn, hcore, hheading, hshape, Bool.false_eq_true, if_false, if_pos hcontains,
      ← hunfolding, ← hplaced, hbaked, if_true]
  · simp only [leaf, coreOrWarn, hcore, hheading, hshape, Bool.false_eq_true, if_false, if_pos hcontains,
      ← hunfolding, ← hplaced, hnone]

/-- **A leaf without segments draws nothing, or what is shared already.** It warns in every mode. Baked,
it shows the outline stored under the identifier of its node, and nothing if there is none. Live, it
shows nothing, at once or in each tick until it is full-grown; if its node is gone by then, it is done
and does nothing. -/
theorem leaf_without_segments (hshape : shape.medialSegments = 0 ∨ shape.lateralSegments = 0)
    (hnode : w.nodes.get? node = some state) (hcore : bundle.core = .ok core)
    (hheading : bundle.vec3? Key.heading = some heading) :
    (∀ baked, ((Handler.leaf shape).call w node bundle baked).2.world.warnings =
        w.warnings.push (.noSegments node shape.medialSegments shape.lateralSegments)) ∧
      (let done := ((Handler.leaf shape).call w node bundle true).2
       done.continuation = none ∧
        done.world.Shows node (state.prefab.bind w.sharedBlades.find?) done.tasks) ∧
      (let begun := ((Handler.leaf shape).call w node bundle false).2
       (shape.animate = false → begun.continuation = none ∧ begun.world.Shows node none begun.tasks) ∧
        (shape.animate = true → begun.tasks = [] ∧ ∃ work, begun.continuation = some work ∧
          ∀ earlier later,
            let resumption := (work.after earlier).resume later
            (∀ found, later.nodes.get? node = some found → found.destroyed = false →
              resumption.world.Shows node none resumption.tasks) ∧
            ((∀ found, later.nodes.get? node = some found → found.destroyed = true) →
              resumption.step = .complete ∧ resumption.world = later ∧ resumption.tasks = []))) := by
  have hbare : shape.hasSegments = false := LeafShape.hasSegments_eq_false_iff.mpr hshape
  obtain ⟨placed, unfolding, transform, hwarned, hget, rfl, rfl, hbaked, hlive⟩ :=
    leaf_eq hbare hnode hcore hheading
  have hbakes : ((Handler.leaf unfolding.shape).call w unfolding.node bundle true).2 = _ := hbaked
  have hlives : ((Handler.leaf unfolding.shape).call w unfolding.node bundle false).2 = _ := hlive
  refine ⟨fun baked => ?_, ?_, fun hstill => ?_, fun hanimate => ?_⟩
  · cases baked with
    | true =>
      rw [hbakes]
      exact hwarned
    | false =>
      rw [hlives]
      split
      · exact hwarned
      · exact hwarned
  · rw [hbakes]
    exact ⟨rfl, Unfolding.shows_finish hget _⟩
  · rw [hlives, if_neg (Bool.eq_false_iff.mp hstill)]
    exact ⟨rfl, Unfolding.shows_finish hget none⟩
  · rw [hlives, if_pos hanimate]
    refine ⟨rfl, _, rfl, fun earlier later => ?_⟩
    obtain ⟨resumed, hafter, hsame, hshape⟩ := unfolding.after_leaf earlier
    rw [hafter, ← hsame]
    refine ⟨fun found hfound hopen => ?_, fun hgone => ?_⟩
    · exact Unfolding.shows_resume (hshape ▸ hbare) hfound hopen
    · have hresumed := Unfolding.resume_of_gone hgone
      exact ⟨congrArg (·.step) hresumed, congrArg (·.world) hresumed, congrArg (·.tasks) hresumed⟩

/-- The outline of a leaf. -/
def ivy : Blade where
  medialSize := 1
  lateralSize := 1
  medialSegments := 2
  lateralSegments := 1
  progress := 1
  widths := [0.5, 0.5, 0.5]
  medialBend := [0, 0, 0]
  lateralCurl := [0]
  color := .white

/-- A world with one node, and an outline under the identifier of that node. -/
def trellis : World Empty :=
  { World.ofSettings {} with
    nodes := (({} : Arena).addNode { prefab := some "ivy" }).2
    sharedBlades := Dictionary.empty.insert "ivy" ivy }

/-- A bundle that a leaf can be called with. -/
def vine : Bundle Empty :=
  (((Bundle.empty.insert Key.sentence (.sentence (.ofString "L"))).insert Key.registry
    (.registry restful)).insert Key.rules (.rules doubling)).insert Key.heading (.vec3 Vec3.unitY)

/-- A shape without segments along the midrib. -/
def bare : LeafShape := { medialSegments := 0 }

/-- A baked leaf without segments shows the outline of another leaf, and a live one nothing. -/
theorem trellis_shows :
    (trellis.leaf bare 0 vine true).world.Shows 0 (some ivy) (trellis.leaf bare 0 vine true).tasks ∧
      ∃ work, (trellis.leaf bare 0 vine false).continuation = some work ∧
        (work.resume trellis).world.Shows 0 none (work.resume trellis).tasks := by
  have hcore : vine.core = .ok { sentence := .ofString "L", registry := restful, rules := doubling } :=
    Bundle.core_of_find? rfl rfl rfl
  have hheading : vine.vec3? Key.heading = some Vec3.unitY := Bundle.vec3?_of_find? rfl
  obtain ⟨-, hdone, -, hbegun⟩ :=
    @leaf_without_segments trellis bare 0 _ vine _ _ (Or.inl rfl) rfl hcore hheading
  obtain ⟨-, work, hwork, hresumed⟩ := hbegun rfl
  exact ⟨hdone.2, work, hwork, (hresumed [] trellis).1 _ rfl rfl⟩

/-- A plant with two baked leaves of different shapes under one identifier, the second of them without
segments. -/
def twoIvies : PlantPlan where
  traits := { start := "AB", baked := true }
  handlers := ⟨[('A', .leaf (some "ivy") {}), ('B', .leaf (some "ivy") bare)]⟩

/-- A leaf without segments is drawn, as the leaf before it. -/
theorem twoIvies_drawn : ∃ garden : Garden, Garden.build 20 twoIvies {} = .ok (some garden) ∧
    garden.world.warnings.toList = [.noSegments 2 0 1] ∧
    (garden.world.nodes.get? 2).bind (·.blade) ≠ none :=
  ⟨_, rfl, rfl, by decide⟩

end World

end PlantGrowth
