import PlantGrowth.Proofs.Leaves
import PlantGrowth.Proofs.Moments
import PlantGrowth.Proofs.Parking
import PlantGrowth.Proofs.Repeating

/-!
# Shared outlines

The first baked leaf of an identifier stores its outline, and from then on all baked leaves of that
identifier show it, whatever their own shapes are. An outline gets to a node in no other way than by a
leaf at that node or by copying a node with all its marks, so this agreement is never lost.

* `World.Agrees`: what is drawn agrees with what is stored, and all outlines are whole.
* `World.Agrees.unfolds`, `Continuation.agrees_resume`: leaves keep the agreement, in each mode.
* `Garden.outlines_shared`: **stored outlines stay, and baked leaves show them**.
-/

namespace PlantGrowth

variable {H : Type}

/-! ## Whole outlines -/

/-- There is a number for each vertex of the midrib and for each step away from it. -/
structure Blade.Whole (blade : Blade) : Prop where
  medial : 1 ≤ blade.medialSegments
  lateral : 1 ≤ blade.lateralSegments
  widths : blade.widths.length = blade.medialSegments + 1
  medialBend : blade.medialBend.length = blade.medialSegments + 1
  lateralCurl : blade.lateralCurl.length = blade.lateralSegments

/-- **The outlines of a shape are whole.** -/
theorem LeafShape.whole_outline {shape : LeafShape} {medialSize lateralSize progress : Float}
    {blade : Blade} (h : shape.outline? medialSize lateralSize progress = some blade) :
    blade.Whole := by
  rw [outline?] at h
  split at h
  next hsegments =>
    rw [hasSegments, Bool.and_eq_true, decide_eq_true_iff, decide_eq_true_iff] at hsegments
    obtain rfl := Option.some.inj h
    exact ⟨hsegments.1, hsegments.2, by simp, by simp, by simp⟩
  next => cases h

/-! ## Agreement -/

namespace World

/-- All outlines are whole, and what a baked node of an identifier shows is what is stored under that
identifier. -/
structure Agrees (w : World H) : Prop where
  stored : ∀ identifier blade, w.sharedBlades.find? identifier = some blade → blade.Whole
  drawn : ∀ id node blade, w.nodes.get? id = some node → node.blade = some blade → blade.Whole
  shared : ∀ id node identifier blade, w.nodes.get? id = some node → node.baked = true →
    node.prefab = some identifier → node.blade = some blade →
      w.sharedBlades.find? identifier = some blade

namespace Agrees

variable {w later : World H} {unfolding : Unfolding H} {state : Node} {blade : Option Blade}

theorem of_repeats (h : w.Agrees) (hstored : later.sharedBlades = w.sharedBlades)
    (hrepeats : w.nodes.Repeats later.nodes) : later.Agrees := by
  refine ⟨fun identifier blade hfind => h.stored identifier blade (hstored ▸ hfind),
    fun id node blade hnode hblade => ?_, fun id node identifier blade hnode hbaked hprefab hblade => ?_⟩
  · rcases hrepeats hnode with hnone | ⟨other, before, hbefore, heq, -, -⟩
    · cases hnone.symm.trans hblade
    · exact h.drawn other before blade hbefore (heq.trans hblade)
  · rcases hrepeats hnode with hnone | ⟨other, before, hbefore, heq, hmode, hname⟩
    · cases hnone.symm.trans hblade
    · rw [hstored]
      exact h.shared other before identifier blade hbefore (hmode.trans hbaked)
        (hname.trans hprefab) (heq.trans hblade)

theorem facing (h : w.Agrees) (node : NodeId) (heading : Vec3) (warnings : Array Warning) :
    (w.facing node heading warnings).Agrees :=
  h.of_repeats rfl (.of_modify w.nodes node fun _ => ⟨rfl, rfl, rfl⟩)

/-- A whole outline can be recorded, if it is the stored one wherever that matters. -/
theorem record (h : w.Agrees) (hwhole : ∀ outline, blade = some outline → outline.Whole)
    (hshared : ∀ state identifier outline, w.nodes.get? unfolding.node = some state →
      state.baked = true → state.prefab = some identifier → blade = some outline →
        w.sharedBlades.find? identifier = some outline) : (unfolding.record w blade).Agrees := by
  have hcases {id : NodeId} {node : Node} (hnode : (unfolding.record w blade).nodes.get? id = some node) :
      w.nodes.get? id = some node ∨
        ∃ state, w.nodes.get? unfolding.node = some state ∧ node = { state with blade } := by
    replace hnode : (w.nodes.modify unfolding.node fun state => { state with blade }).get? id =
      some node := hnode
    rw [Arena.get?_modify] at hnode
    split at hnode
    next heq =>
      obtain ⟨state, hstate, rfl⟩ := Option.map_eq_some_iff.mp hnode
      exact Or.inr ⟨state, heq ▸ hstate, rfl⟩
    next => exact Or.inl hnode
  refine ⟨h.stored, fun id node outline hnode hblade => ?_,
    fun id node identifier outline hnode hbaked hprefab hblade => ?_⟩
  · rcases hcases hnode with hold | ⟨state, -, rfl⟩
    · exact h.drawn id node outline hold hblade
    · exact hwhole outline hblade
  · rcases hcases hnode with hold | ⟨state, hstate, rfl⟩
    · exact h.shared id node identifier outline hold hbaked hprefab hblade
    · exact hshared state identifier outline hstate hbaked hprefab hblade

/-- An outline can be stored under an identifier that has none. -/
theorem insert (h : w.Agrees) {identifier : String} {outline : Blade}
    (hfree : w.sharedBlades.find? identifier = none) (hwhole : outline.Whole) :
    ({ w with sharedBlades := w.sharedBlades.insert identifier outline } : World H).Agrees := by
  refine ⟨fun other stored hfind => ?_, h.drawn, fun id node other drawn hnode hbaked hprefab hdrawn => ?_⟩
  · rw [Dictionary.find?_insert] at hfind
    split at hfind
    · rwa [← Option.some.inj hfind]
    · exact h.stored other stored hfind
  · have hstored := h.shared id node other drawn hnode hbaked hprefab hdrawn
    show (w.sharedBlades.insert identifier outline).find? other = some drawn
    rw [Dictionary.find?_insert]
    split
    next heq =>
      rw [heq, hfree] at hstored
      cases hstored
    next => exact hstored

/-- **What a baked leaf shows is stored** under the identifier of its node, from then on at least. -/
theorem bakedOutline (h : w.Agrees) (hnode : w.nodes.get? unfolding.node = some state)
    (hblade : w.bakedOutline unfolding = (blade, later)) :
    later.Agrees ∧ (∀ outline, blade = some outline → outline.Whole) ∧
      ∀ identifier outline, state.prefab = some identifier → blade = some outline →
        later.sharedBlades.find? identifier = some outline := by
  have hwhole {outline : Blade} (houtline : unfolding.outline? 1 = some outline) : outline.Whole :=
    LeafShape.whole_outline houtline
  rw [World.bakedOutline, hnode, Option.bind_some] at hblade
  cases hprefab : state.prefab with
  | none =>
    rw [hprefab] at hblade
    obtain ⟨rfl, rfl⟩ := Prod.mk.inj hblade
    exact ⟨h, fun outline => hwhole, fun identifier outline heq => by cases heq⟩
  | some identifier =>
    simp only [hprefab] at hblade
    cases hfind : w.sharedBlades.find? identifier with
    | some stored =>
      simp only [hfind] at hblade
      obtain ⟨rfl, rfl⟩ := Prod.mk.inj hblade
      refine ⟨h, fun outline heq => ?_, fun other outline hother heq => ?_⟩
      · rw [← Option.some.inj heq]
        exact h.stored identifier stored hfind
      · rw [← Option.some.inj heq, ← Option.some.inj hother]
        exact hfind
    | none =>
      simp only [hfind] at hblade
      cases houtline : unfolding.outline? 1 with
      | none =>
        simp only [houtline] at hblade
        obtain ⟨rfl, rfl⟩ := Prod.mk.inj hblade
        exact ⟨h, fun outline heq => (by cases heq), fun other outline _ heq => (by cases heq)⟩
      | some own =>
        simp only [houtline] at hblade
        obtain ⟨rfl, rfl⟩ := Prod.mk.inj hblade
        refine ⟨h.insert hfind (hwhole houtline), fun outline heq => ?_,
          fun other outline hother heq => ?_⟩
        · rw [← Option.some.inj heq]
          exact hwhole houtline
        · rw [← Option.some.inj heq, ← Option.some.inj hother, Dictionary.find?_insert, if_pos rfl]

/-- A leaf that is not baked may show any whole outline. -/
theorem record_live (h : w.Agrees) (hnode : w.nodes.get? unfolding.node = some state)
    (hlive : state.baked = false) (progress : Float) :
    (unfolding.record w (unfolding.outline? progress)).Agrees := by
  refine h.record (fun outline => LeafShape.whole_outline) fun other _ _ hother hbaked => ?_
  obtain rfl : state = other := Option.some.inj (hnode.symm.trans hother)
  rw [hlive] at hbaked
  cases hbaked

/-- **A leaf agrees with the others.** -/
theorem unfolds (h : w.Agrees) {shape : LeafShape} {node : NodeId} {bundle : Bundle H} {baked : Bool}
    {effect : Effect H} (hunfolds : w.Unfolds shape node bundle baked effect)
    (hnode : w.nodes.get? node = some state) (hmode : state.baked = baked) : effect.world.Agrees := by
  have hfaced {unfolding : Unfolding H} (hbuds : unfolding.Buds shape node bundle) (heading : Vec3)
      (warnings : Array Warning) : (w.facing node heading warnings).nodes.get? unfolding.node =
        some { state with transform := state.transform.face heading } := by
    rw [hbuds.node]
    show (w.nodes.place node _).get? node = _
    rw [Arena.get?_place, hnode, Option.map_some, if_pos rfl]
  cases hunfolds with
  | nothing _ warnings => exact h.of_repeats rfl (.refl w.nodes)
  | @bakes heading warnings unfolding blade later hbuds hblade =>
    obtain ⟨hagrees, hwhole, hshared⟩ :=
      (h.facing node heading warnings).bakedOutline (hfaced hbuds heading warnings) hblade
    refine hagrees.record hwhole fun other identifier outline hother _ hprefab => ?_
    have hnodes := nodes_bakedOutline (w.facing node heading warnings) unfolding
    rw [hblade] at hnodes
    rw [hnodes, hfaced hbuds heading warnings] at hother
    obtain rfl := Option.some.inj hother
    exact hshared identifier outline hprefab
  | @ripe heading warnings unfolding hbuds =>
    exact (h.facing node heading warnings).record_live (hfaced hbuds heading warnings) hmode 1
  | @begins heading warnings _ _ => exact h.facing node heading warnings

end Agrees
end World

/-! ## Leaves that unfold -/

/-- A leaf that is yet to unfold belongs to a node that is not baked. -/
def Continuation.Live (a : Arena) (work : Continuation Empty) : Prop :=
  ∀ unfolding, work = .leaf unfolding → ∃ state, a.get? unfolding.node = some state ∧
    state.baked = false

namespace Continuation

variable {a b : Arena} {w : World Empty} {work : Continuation Empty}

theorem Live.mono (h : work.Live a) (hext : a.Extends b) : work.Live b := by
  intro unfolding heq
  obtain ⟨state, hstate, hlive⟩ := h unfolding heq
  obtain ⟨later, hlater, houtlives⟩ := hext hstate
  exact ⟨later, hlater, houtlives.baked.trans hlive⟩

theorem Live.resume (h : work.Live a) (w : World Empty) : (work.resume w).continuation.Live a := by
  have hresumes := work.resumes w
  generalize work.resume w = resumption at hresumes ⊢
  intro other heq
  cases hresumes with
  | lostLeaf unfolding => exact h other heq
  | unfolds unfolding elapsed blade =>
    cases heq
    exact h unfolding rfl
  | unfolded unfolding blade =>
    cases heq
    exact h unfolding rfl
  | host work => exact work.elim
  | _ => cases heq

/-- **What unfolds agrees with all else.** -/
theorem agrees_resume (h : w.Agrees) (hlive : work.Live w.nodes)
    (hext : w.nodes.Extends (work.resume w).world.nodes)
    (hsize : (work.resume w).world.nodes.size = w.nodes.size) : (work.resume w).world.Agrees := by
  rcases work.eq_leaf_or with ⟨unfolding, rfl⟩ | hleaf
  · obtain ⟨state, hstate, hmode⟩ := hlive unfolding rfl
    show (unfolding.resume w).world.Agrees
    simp only [Unfolding.resume, hstate]
    split
    · exact h
    · split
      · exact h.record_live hstate hmode _
      · exact h.record_live hstate hmode _
  · obtain ⟨hblade, hstored⟩ := blade_resume hleaf w
    refine h.of_repeats hstored (.of_extends hext (fun id _ => congrFun hblade id) ?_)
    intro id later hlarge hlater
    have hlt := Arena.lt_size_of_get? hlater
    rw [hsize] at hlt
    exact absurd hlt (Nat.not_lt_of_le hlarge)

end Continuation

/-! ## Gardens -/

namespace World

variable {H : Type} {identifier : String} {blade : Blade}

/-- A baked leaf writes over no outline. -/
theorem stored_bakedOutline {w : World H} (h : w.sharedBlades.find? identifier = some blade)
    (unfolding : Unfolding H) :
    (w.bakedOutline unfolding).2.sharedBlades.find? identifier = some blade := by
  rw [bakedOutline]
  split
  · exact h
  next other _ =>
    split
    · exact h
    next hfree =>
      split
      · dsimp only
        rw [Dictionary.find?_insert, if_neg, h]
        rintro rfl
        cases hfree.symm.trans h
      · exact h

/-- **What was stored stays**, in every step. -/
theorem stored_perform {w : World Empty} (h : w.sharedBlades.find? identifier = some blade)
    (task : Task Empty) : (w.perform task).1.sharedBlades.find? identifier = some blade := by
  rcases task.eq_leaf_or with ⟨shape, node, bundle, baked, rfl⟩ | hleaf
  · have hunfolds := w.unfolds_leaf shape node bundle baked
    show (w.leaf shape node bundle baked).world.sharedBlades.find? identifier = some blade
    generalize w.leaf shape node bundle baked = effect at hunfolds ⊢
    cases hunfolds with
    | @bakes heading warnings unfolding outline later _ hblade =>
      have hkept : (w.facing node heading warnings).sharedBlades.find? identifier = some blade := h
      have hstored := stored_bakedOutline hkept unfolding
      rw [hblade] at hstored
      exact hstored
    | nothing _ _ => exact h
    | ripe _ => exact h
    | begins _ => exact h
  · rw [w.sharedBlades_perform hleaf]
    exact h

/-- **One task keeps the agreement.** -/
theorem Orderly.agrees_perform {w : World Empty} {task : Task Empty} {rest : List (Task Empty)}
    {works : List (Continuation Empty)} (h : w.Orderly (task :: rest) works)
    (hstage : Law.planned.Stage w (task :: rest)) (hagrees : w.Agrees) :
    (w.perform task).1.Agrees := by
  rcases task.eq_leaf_or with ⟨shape, node, bundle, baked, rfl⟩ | hleaf
  · obtain ⟨state, hserves, -⟩ := h.call _ _ _ _ _ rfl
    exact hagrees.unfolds (w.unfolds_leaf shape node bundle baked) hserves.get? hserves.baked
  · exact hagrees.of_repeats (w.sharedBlades_perform hleaf) (h.repeats_perform hstage hleaf)

end World

namespace Garden

/-- The outlines agree, and go on to do so. -/
structure Sharing (w : World Empty) (tasks : List (Task Empty))
    (waiting : List (Continuation Empty)) : Prop where
  ordered : Ordered w tasks waiting
  agrees : w.Agrees
  tasks : ∀ work, .park work ∈ tasks → work.Live w.nodes
  parked : ∀ work ∈ w.parked.toList, work.Live w.nodes
  waiting : ∀ work ∈ waiting, work.Live w.nodes

theorem sharing_invariant : Invariant Sharing where
  perform := by
    intro w task rest waiting h
    have horderly := h.ordered.orderly
    have hstage := h.ordered.governs.tasks
    obtain ⟨⟨hext, -, -⟩, -⟩ := horderly.perform hstage.1 hstage.2
    refine ⟨orderly_invariant.perform h.ordered, horderly.agrees_perform hstage h.agrees,
      fun work hwork => ?_, fun work hwork => ?_, fun work hwork => (h.waiting work hwork).mono hext⟩
    · rcases List.mem_append.mp hwork with hnew | hold
      · intro unfolding hleaf
        obtain ⟨handler, node, bundle, rfl, hanchor⟩ :=
          World.left_perform Law.sound_planned hstage.1 hnew
        obtain ⟨state, hserves, -⟩ := horderly.call _ _ _ _ _ rfl
        rw [hleaf] at hanchor
        obtain ⟨later, hlater, houtlives⟩ := hext hserves.get?
        exact ⟨later, Option.some.inj hanchor ▸ hlater, houtlives.baked.trans hserves.baked⟩
      · exact (h.tasks work (List.mem_cons_of_mem task hold)).mono hext
    · rcases World.parked_perform Law.sound_planned hstage.1 hwork with
        hold | heq | ⟨scaling, rfl⟩ | ⟨next, rfl⟩
      · exact (h.parked work hold).mono hext
      · exact (h.tasks work (heq ▸ List.mem_cons_self)).mono hext
      · exact fun unfolding hleaf => (by cases hleaf)
      · exact fun unfolding hleaf => (by cases hleaf)
  resume := by
    intro w work waiting h
    have hredraws := work.redraws_resume w
    have hext := (hredraws.advances h.ordered.orderly.scene
      (h.ordered.orderly.work_open work List.mem_cons_self)).extended
    have hlive := h.waiting work List.mem_cons_self
    refine ⟨orderly_invariant.resume h.ordered, Continuation.agrees_resume h.agrees hlive hext hredraws.size,
      fun other hother => absurd hother (work.not_park_resume w), fun other hother => ?_,
      fun other hother => ?_⟩
    · rw [hredraws.parked] at hother
      exact (h.parked other hother).mono hext
    · split at hother
      · rcases List.mem_cons.mp hother with rfl | hmem
        · exact (hlive.resume w).mono hext
        · exact (h.waiting other (List.mem_cons_of_mem work hmem)).mono hext
      · exact (h.waiting other (List.mem_cons_of_mem work hother)).mono hext
  reorder := by
    intro w tasks waiting other hperm h
    exact ⟨orderly_invariant.reorder hperm h.ordered, h.agrees, h.tasks, h.parked,
      fun work hwork => h.waiting work (hperm.mem_iff.mpr hwork)⟩
  unpark := by
    intro w waiting h
    refine ⟨orderly_invariant.unpark h.ordered, h.agrees.of_repeats rfl (.refl w.nodes),
      fun work hwork => (by cases hwork), fun work hwork => (by cases hwork), fun work hwork => ?_⟩
    exact (List.mem_append.mp hwork).elim (h.waiting work) (h.parked work)
  elapse := by
    intro w waiting seconds h
    exact ⟨orderly_invariant.elapse seconds h.ordered, h.agrees.of_repeats rfl (.refl w.nodes),
      h.tasks, h.parked, h.waiting⟩

theorem stored_invariant (identifier : String) (blade : Blade) :
    Invariant fun w _ _ => w.sharedBlades.find? identifier = some blade where
  perform := fun h => World.stored_perform h _
  resume := by
    intro w work waiting h
    rw [work.sharedBlades_resume w]
    exact h
  reorder := fun _ h => h
  unpark := id
  elapse := fun _ h => h

section

variable {plan : PlantPlan} {seed : Seed Empty}

theorem sharing_seedbed (hseed : plan.seed = .ok seed) (settings : Settings) :
    Sharing (seedbed plan settings) [rootTask plan seed] [] where
  ordered := ordered_seedbed hseed settings
  agrees := by
    have hbare {id : NodeId} {node : Node} (hnode : (seedbed plan settings).nodes.get? id = some node) :
        node.blade = none := by
      rw [get?_seedbed] at hnode
      split at hnode
      · rw [← Option.some.inj hnode]
        rfl
      · cases hnode
    refine ⟨fun identifier blade hfind => (by cases hfind), fun id node blade hnode hblade => ?_,
      fun id node identifier blade hnode _ _ hblade => ?_⟩
    · cases (hbare hnode).symm.trans hblade
    · cases (hbare hnode).symm.trans hblade
  tasks := fun work hwork => (by cases List.mem_singleton.mp hwork)
  parked := fun work hwork => (by cases hwork)
  waiting := fun work hwork => (by cases hwork)

/-- **Shared outlines are stored once and shown wherever they are shared**, whatever the plan and the
settings are. At every moment all outlines are whole and each baked node that has an identifier and a
leaf shows what is stored under it; and what is stored stays as it is from then on. -/
theorem outlines_shared (hseed : plan.seed = .ok seed) (settings : Settings) :
    (∀ garden, Reached plan settings garden →
      (Moment.start plan seed settings).Leads garden.moment ∧
        ∀ limit report (later : Garden), Simulation.tick limit garden = some (report, later) →
          garden.moment.Leads later.moment) ∧
    (∀ w tasks, Underway plan settings w tasks →
      ∃ waiting, (Moment.start plan seed settings).Leads ⟨w, tasks, waiting⟩) ∧
    ∀ m, (Moment.start plan seed settings).Leads m → m.world.Agrees ∧
      ∀ identifier blade, m.world.sharedBlades.find? identifier = some blade →
        ∀ later, m.Leads later → later.world.sharedBlades.find? identifier = some blade := by
  refine ⟨fun garden hreached => ⟨hreached.leads hseed, fun _ _ _ => leads_of_tick⟩,
    fun w tasks hunderway => hunderway.leads hseed, fun m hm => ⟨?_, ?_⟩⟩
  · exact (sharing_invariant.of_leads hm (sharing_seedbed hseed settings)).agrees
  · intro identifier blade hstored later hlater
    exact (stored_invariant identifier blade).of_leads hlater hstored

end

/-- A baked plant of two leaves of different shapes, with one identifier. -/
def twins : PlantPlan where
  traits := { start := "AB", baked := true }
  handlers := ⟨[('A', .leaf (some "ivy") {}), ('B', .leaf (some "ivy") { medialSegments := 4 })]⟩

/-- The second leaf shows the outline of the first one, which is whole and stays stored. -/
theorem twins_share : ∃ seed : Seed Empty, twins.seed = .ok seed ∧ ∃ m blade node,
    (Moment.start twins seed {}).Leads m ∧ m.world.nodes.get? 2 = some node ∧
      node.blade = some blade ∧ blade.medialSegments = 2 ∧ blade.Whole ∧
      ∀ later, m.Leads later → later.world.sharedBlades.find? "ivy" = some blade := by
  obtain ⟨seed, hseed⟩ : ∃ seed : Seed Empty, twins.seed = .ok seed := ⟨_, rfl⟩
  obtain ⟨blade, node, hnode, hblade, hsegments, hbaked, hprefab⟩ : ∃ blade node,
      (Moment.start twins seed {}).next.next.next.next.next.next.next.next.next.world.nodes.get? 2 =
        some node ∧ node.blade = some blade ∧ blade.medialSegments = 2 ∧ node.baked = true ∧
        node.prefab = some "ivy" := by
    cases hseed
    exact ⟨_, _, rfl, rfl, rfl, rfl, rfl⟩
  have hleads := (Moment.Leads.refl (m := Moment.start twins seed {})).next.next.next.next.next.next
    |>.next.next.next
  obtain ⟨hagrees, hstays⟩ := (outlines_shared hseed {}).2.2 _ hleads
  have hstored := hagrees.shared 2 node "ivy" blade hnode hbaked hprefab hblade
  exact ⟨seed, hseed, _, blade, node, hleads, hnode, hblade, hsegments,
    hagrees.drawn 2 node blade hnode hblade, hstays "ivy" blade hstored⟩

end Garden
end PlantGrowth
