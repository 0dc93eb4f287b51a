import PlantGrowth.Proofs.Bundle
import PlantGrowth.Proofs.Draws

/-!
# Giving up without a core entry

To continue its chain a handler needs the sentence, the registry and the rules. It asks for them in
this order (`Bundle.coreEntries`), some handlers before they act and some after, and gives up if one
is absent or of another kind. Whatever else the bundle holds, giving up stays at the handler's own
node:

* the first entry that is lacking is the one that is named (`Bundle.core_eq_error_iff`);
* nothing is dispatched, parked, made or left for later, and of the nodes only the handler's own may
  change, in the way of its kind (`World.GivesUp`, `World.gives_up`).
-/

namespace PlantGrowth

variable {H : Type}

/-! ## The entry that is missing -/

namespace Bundle

variable {bundle : Bundle H} {key : String}

/-- The core entries and their kinds, in the order in which they are asked for. -/
def coreEntries : List (String × Kind) :=
  [(Key.sentence, .sentence), (Key.registry, .registry), (Key.rules, .rules)]

/-- Is an entry absent, or of another kind? -/
def lacks (bundle : Bundle H) (entry : String × Kind) : Bool :=
  (bundle.read? entry.2 entry.1).isNone

theorem lacks_of_absent {kind : Kind} (h : bundle.find? key = none) :
    bundle.lacks (key, kind) = true := by
  rw [lacks, read?, h]
  rfl

theorem lacks_of_find? {kind : Kind} {value : Value H} (h : bundle.find? key = some value) :
    bundle.lacks (key, kind) = !(value.kind == kind) := by
  rw [lacks, read?, h, Option.filter_some]
  cases value.kind == kind <;> rfl

theorem lacks_iff {entry : String × Kind} :
    bundle.lacks entry = true ↔
      ∀ value, bundle.find? entry.1 = some value → value.kind ≠ entry.2 := by
  obtain ⟨key, kind⟩ := entry
  cases h : bundle.find? key with
  | none => simp [lacks_of_absent h]
  | some value => simp [lacks_of_find? h]

theorem sentence?_isNone : (bundle.sentence? key).isNone = bundle.lacks (key, .sentence) := by
  cases h : bundle.find? key with
  | none => rw [lacks_of_absent h, sentence?, h]; rfl
  | some value => rw [lacks_of_find? h, sentence?, h]; cases value <;> rfl

theorem registry?_isNone : (bundle.registry? key).isNone = bundle.lacks (key, .registry) := by
  cases h : bundle.find? key with
  | none => rw [lacks_of_absent h, registry?, h]; rfl
  | some value => rw [lacks_of_find? h, registry?, h]; cases value <;> rfl

theorem rules?_isNone : (bundle.rules? key).isNone = bundle.lacks (key, .rules) := by
  cases h : bundle.find? key with
  | none => rw [lacks_of_absent h, rules?, h]; rfl
  | some value => rw [lacks_of_find? h, rules?, h]; cases value <;> rfl

/-- **What a handler reports is the first core entry that its bundle lacks.** -/
theorem core_eq_error_iff {missing : MissingEntry} :
    bundle.core = .error missing ↔
      (coreEntries.find? bundle.lacks).map (·.1) = some missing.key := by
  obtain ⟨name⟩ := missing
  simp only [coreEntries, List.find?_cons, ← sentence?_isNone, ← registry?_isNone, ← rules?_isNone,
    core]
  cases bundle.sentence? Key.sentence with
  | none => simp
  | some sentence =>
    cases bundle.registry? Key.registry with
    | none => simp
    | some registry => cases bundle.rules? Key.rules <;> simp

end Bundle

/-! ## What is left behind -/

/-- Does a warning say that a handler gives up for want of a core entry? -/
def Warning.aborts : Warning → Bool
  | .missingCore .. => true
  | _ => false

namespace Handler

/-- The name under which a handler reports that it gives up. A seed brings the core entries along,
and what a host's handlers need is for the host to say. -/
def title? : Handler H → Option String
  | .fork _ => some "split"
  | .pause .. => some "pause"
  | .turnRotation .. => some "rotate"
  | .turnHeading .. => some "axis_angle_rotate"
  | .move .. => some "translate"
  | .branch _ => some "branch"
  | .leaf _ => some "leaf"
  | .seed _ => none
  | .host _ => none

/-- What a handler that gives up makes of its node: those whose nodes never stay destroy it, a move
comes before the core is asked for, and a branch or a leaf has not begun. -/
inductive LeavesBehind (bundle : Bundle H) (state : Node) : Handler H → Node → Prop
  | fork (closing : Char) :
      LeavesBehind bundle state (.fork closing) { state with destroyed := true }
  | pause (minSeconds maxSeconds : Float) :
      LeavesBehind bundle state (.pause minSeconds maxSeconds) { state with destroyed := true }
  | turnRotation (eulerMin eulerMax : Vec3) :
      LeavesBehind bundle state (.turnRotation eulerMin eulerMax) { state with destroyed := true }
  | turnHeading (axis : Vec3) (angleMin angleMax : Float) :
      LeavesBehind bundle state (.turnHeading axis angleMin angleMax)
        { state with destroyed := true }
  | moved (distanceMin distanceMax distance : Float) {heading : Vec3}
      (hheading : bundle.vec3? Key.heading = some heading) :
      LeavesBehind bundle state (.move distanceMin distanceMax)
        { state with transform := state.transform.move (heading.scale distance) }
  | unmoved (distanceMin distanceMax : Float) (hheading : bundle.vec3? Key.heading = none) :
      LeavesBehind bundle state (.move distanceMin distanceMax) state
  | branch (shape : BranchShape) : LeavesBehind bundle state (.branch shape) state
  | leaf (shape : LeafShape) : LeavesBehind bundle state (.leaf shape) state

/-- The warning of a handler that misses what it turns or follows, for which it looks before it asks
for the core. -/
def notice? (handler : Handler H) (node : NodeId) (bundle : Bundle H) : Option Warning :=
  match handler with
  | .turnRotation .. =>
    if (bundle.rotation? Key.rotation).isNone then some (.nothingToTurn node Key.rotation) else none
  | .turnHeading .. =>
    if (bundle.vec3? Key.heading).isNone then some (.nothingToTurn node Key.heading) else none
  | .move .. =>
    if (bundle.vec3? Key.heading).isNone then some (.nothingToFollow node) else none
  | _ => none

theorem aborts_of_notice? {handler : Handler H} {node : NodeId} {bundle : Bundle H}
    {notice : Warning} (h : handler.notice? node bundle = some notice) : notice.aborts = false := by
  cases handler <;> grind [notice?, Warning.aborts]

end Handler

/-! ## Giving up -/

namespace World

variable {w : World H} {handler : Handler H} {node : NodeId} {bundle : Bundle H}

/-- The world after a handler gave up for want of the entry of the given name: one node may have
changed, random numbers may have been drawn, and the world keeps one warning of it. -/
structure GivesUp (w : World H) (handler : Handler H) (node : NodeId) (bundle : Bundle H)
    (title key : String) (after : World H) : Prop where
  /-- Nothing else changes: no dispatch is counted, nothing is parked, no prefab is made. -/
  rest : after =
    { w with nodes := after.nodes, random := after.random, warnings := after.warnings }
  /-- No node is made. -/
  size : after.nodes.size = w.nodes.size
  others : ∀ other, other ≠ node → after.nodes.get? other = w.nodes.get? other
  own : ∀ state, w.nodes.get? node = some state →
    ∃ left, after.nodes.get? node = some left ∧ handler.LeavesBehind bundle state left
  warnings : after.warnings =
    (w.warnings ++ (handler.notice? node bundle).toArray).push (.missingCore title node ⟨key⟩)

variable {title key : String} {after : World H}

/-- A handler may give up with a change of its node. -/
theorem GivesUp.of_modify {change : Node → Node}
    (hrest : after =
      { w with nodes := after.nodes, random := after.random, warnings := after.warnings })
    (hnodes : after.nodes = w.nodes.modify node change)
    (hwarnings : after.warnings =
      (w.warnings ++ (handler.notice? node bundle).toArray).push (.missingCore title node ⟨key⟩))
    (hchange : ∀ state, handler.LeavesBehind bundle state (change state)) :
    w.GivesUp handler node bundle title key after where
  rest := hrest
  size := by rw [hnodes, Arena.size_modify]
  others other hne := by rw [hnodes, Arena.get?_modify, if_neg hne.symm]
  own state hstate := by
    refine ⟨change state, ?_, hchange state⟩
    rw [hnodes, Arena.get?_modify, if_pos rfl, hstate, Option.map_some]
  warnings := hwarnings

/-- A handler may give up without a change of its node. -/
theorem GivesUp.of_kept
    (hrest : after = { w with random := after.random, warnings := after.warnings })
    (hwarnings : after.warnings =
      (w.warnings ++ (handler.notice? node bundle).toArray).push (.missingCore title node ⟨key⟩))
    (hkept : ∀ state, handler.LeavesBehind bundle state state) :
    w.GivesUp handler node bundle title key after where
  rest := by rw [hrest]
  size := by rw [hrest]
  others _ _ := by rw [hrest]
  own state hstate := ⟨state, by rw [hrest]; exact hstate, hkept state⟩
  warnings := hwarnings

variable [Host H]

/-- A call after which only its own node is to be destroyed. -/
theorem invoke_of_destroy {baked : Bool} (limit : Nat)
    (h : handler.call w node bundle baked = (handler, { world := after, tasks := [.destroy node] })) :
    w.invoke (limit + 1) handler node bundle baked =
      if w.drewAll (handler.call w node bundle baked).2.world then
        some (handler, none, after.destroy node)
      else none := by
  have hrun : run (limit + 1) [.destroy node] after = some (after.destroy node) :=
    (run_cons (halts_of_random rfl) limit []).trans (run_nil limit _)
  rw [invoke, h]
  cases hdrew : w.drewAll after with
  | true => simp only [hdrew, hrun, if_true]; rfl
  | false => simp only [hdrew, Bool.false_eq_true, if_false]; rfl

/-- A call after which nothing is to be done. -/
theorem invoke_of_done {baked : Bool} (limit : Nat)
    (h : handler.call w node bundle baked = (handler, { world := after })) :
    w.invoke limit handler node bundle baked =
      if w.drewAll (handler.call w node bundle baked).2.world then some (handler, none, after)
      else none := by
  rw [invoke, h]
  cases hdrew : w.drewAll after with
  | true => simp only [hdrew, run_nil, if_true]; rfl
  | false => simp only [hdrew, Bool.false_eq_true, if_false]; rfl

/-- A handler's call ends in giving up, with nothing left to do but to destroy its node, or nothing. -/
inductive Abandons (w : World H) (handler : Handler H) (node : NodeId) (bundle : Bundle H)
    (title key : String) (baked : Bool) : Prop
  | done {after : World H} (hgives : w.GivesUp handler node bundle title key after)
      (hcall : handler.call w node bundle baked = (handler, { world := after }))
  | destroys {after : World H}
      (hgives : w.GivesUp handler node bundle title key (after.destroy node))
      (hcall : handler.call w node bundle baked =
        (handler, { world := after, tasks := [.destroy node] }))

section calls

variable (w : World H) (node : NodeId)

omit [Host H] in
/-- A chain that cannot be carried on leaves no task. -/
theorem carryOnOrWarn_error (missing : MissingEntry) :
    w.carryOnOrWarn title node (.error missing) bundle =
      { world := w.warn (.missingCore title node missing) } := rfl

theorem fork_abandons (hcore : bundle.core = .error ⟨key⟩) (closing : Char) (baked : Bool) :
    w.Abandons (.fork closing) node bundle "split" key baked := by
  refine .done ?_ (by rw [Handler.call, fork, coreOrWarn, hcore])
  exact .of_modify rfl rfl (by simp [warn, destroy, mapNodes, Handler.notice?])
    fun _ => .fork closing

theorem pause_abandons (hcore : bundle.core = .error ⟨key⟩) (minSeconds maxSeconds : Float)
    (baked : Bool) :
    w.Abandons (.pause minSeconds maxSeconds) node bundle "pause" key baked := by
  refine .done ?_ (by rw [Handler.call, pause, coreOrWarn, hcore])
  exact .of_modify rfl rfl (by simp [warn, destroy, mapNodes, Handler.notice?])
    fun _ => .pause minSeconds maxSeconds

theorem turnRotation_abandons (hcore : bundle.core = .error ⟨key⟩) (eulerMin eulerMax : Vec3)
    (baked : Bool) :
    w.Abandons (.turnRotation eulerMin eulerMax) node bundle "rotate" key baked := by
  cases hrotation : bundle.rotation? Key.rotation with
  | none =>
    refine .destroys ?_ (by
      simp only [Handler.call, turnRotation, hcore, hrotation, carryOnOrWarn_error]
      rfl)
    exact .of_modify rfl rfl (by simp [warn, destroy, mapNodes, Handler.notice?, hrotation])
      fun _ => .turnRotation eulerMin eulerMax
  | some rotation =>
    refine .destroys ?_ (by
      simp only [Handler.call, turnRotation, hcore, hrotation, carryOnOrWarn_error]
      rfl)
    exact .of_modify rfl rfl
      (by simp [warn, destroy, mapNodes, Handler.notice?, hrotation, drawRotation, drawBetween])
      fun _ => .turnRotation eulerMin eulerMax

theorem turnHeading_abandons (hcore : bundle.core = .error ⟨key⟩) (axis : Vec3)
    (angleMin angleMax : Float) (baked : Bool) :
    w.Abandons (.turnHeading axis angleMin angleMax) node bundle "axis_angle_rotate" key baked := by
  cases hheading : bundle.vec3? Key.heading with
  | none =>
    refine .destroys ?_ (by
      simp only [Handler.call, turnHeading, hcore, hheading, carryOnOrWarn_error]
      rfl)
    exact .of_modify rfl rfl (by simp [warn, destroy, mapNodes, Handler.notice?, hheading])
      fun _ => .turnHeading axis angleMin angleMax
  | some heading =>
    refine .destroys ?_ (by
      simp only [Handler.call, turnHeading, hcore, hheading, carryOnOrWarn_error]
      rfl)
    exact .of_modify rfl rfl
      (by simp [warn, destroy, mapNodes, Handler.notice?, hheading, drawBetween])
      fun _ => .turnHeading axis angleMin angleMax

theorem move_abandons (hcore : bundle.core = .error ⟨key⟩) (distanceMin distanceMax : Float)
    (baked : Bool) :
    w.Abandons (.move distanceMin distanceMax) node bundle "translate" key baked := by
  cases hheading : bundle.vec3? Key.heading with
  | none =>
    refine .done ?_ (by simp only [Handler.call, move, hcore, hheading, carryOnOrWarn_error]; rfl)
    exact .of_kept rfl (by simp [warn, Handler.notice?, hheading])
      fun _ => .unmoved distanceMin distanceMax hheading
  | some heading =>
    refine .done ?_ (by simp only [Handler.call, move, hcore, hheading, carryOnOrWarn_error]; rfl)
    exact .of_modify rfl rfl (by simp [warn, mapNodes, Handler.notice?, hheading, drawBetween])
      fun _ => .moved distanceMin distanceMax _ hheading

theorem branch_abandons (hcore : bundle.core = .error ⟨key⟩) (shape : BranchShape) (baked : Bool) :
    w.Abandons (.branch shape) node bundle "branch" key baked := by
  refine .done ?_ (by rw [Handler.call, branch, coreOrWarn, hcore])
  exact .of_kept rfl (by simp [warn, Handler.notice?]) fun _ => .branch shape

theorem leaf_abandons (hcore : bundle.core = .error ⟨key⟩) (shape : LeafShape) (baked : Bool) :
    w.Abandons (.leaf shape) node bundle "leaf" key baked := by
  refine .done ?_ (by rw [Handler.call, leaf, coreOrWarn, hcore])
  exact .of_kept rfl (by simp [warn, Handler.notice?]) fun _ => .leaf shape

/-- Each of the library's handlers but the seed gives up without the core entries. -/
theorem abandons (htitle : handler.title? = some title) (hcore : bundle.core = .error ⟨key⟩)
    (baked : Bool) : w.Abandons handler node bundle title key baked := by
  cases handler with
  | fork closing => cases htitle; exact fork_abandons w node hcore closing baked
  | pause minSeconds maxSeconds =>
    cases htitle; exact pause_abandons w node hcore minSeconds maxSeconds baked
  | turnRotation eulerMin eulerMax =>
    cases htitle; exact turnRotation_abandons w node hcore eulerMin eulerMax baked
  | turnHeading axis angleMin angleMax =>
    cases htitle; exact turnHeading_abandons w node hcore axis angleMin angleMax baked
  | move distanceMin distanceMax =>
    cases htitle; exact move_abandons w node hcore distanceMin distanceMax baked
  | branch shape => cases htitle; exact branch_abandons w node hcore shape baked
  | leaf shape => cases htitle; exact leaf_abandons w node hcore shape baked
  | seed planted => cases htitle
  | host foreign => cases htitle

end calls

/-- What is left to do when a handler has given up is done in one step at most, unless it stopped
before that at a draw. -/
theorem Abandons.invoke {baked : Bool} (h : w.Abandons handler node bundle title key baked) :
    ∃ after, w.GivesUp handler node bundle title key after ∧
      ∀ limit, w.invoke (limit + 1) handler node bundle baked =
        if w.drewAll (handler.call w node bundle baked).2.world then some (handler, none, after)
        else none := by
  cases h with
  | done hgives hcall => exact ⟨_, hgives, fun limit => invoke_of_done (limit + 1) hcall⟩
  | destroys hgives hcall => exact ⟨_, hgives, fun limit => invoke_of_destroy limit hcall⟩

/-- **Without a core entry a handler gives up at its own node**, live and baked, in every world and
whatever else its bundle holds. It says so once, in the name of the first entry that is absent or of
another kind; the call returns no work for later. Some handlers draw before they look for the core
entries; if they do so between bounds that are too far apart, the program stops there. -/
theorem gives_up (w : World H) (node : NodeId) (htitle : handler.title? = some title)
    (hlacks : ∃ entry ∈ Bundle.coreEntries,
      ∀ value, bundle.find? entry.1 = some value → value.kind ≠ entry.2) (baked : Bool) :
    ∃ key after, (Bundle.coreEntries.find? bundle.lacks).map (·.1) = some key ∧
      w.GivesUp handler node bundle title key after ∧
      (∀ notice ∈ handler.notice? node bundle, notice.aborts = false) ∧
      ∀ limit, w.invoke (limit + 1) handler node bundle baked =
        if (handler.draws w node bundle baked).any Bounds.far then none
        else some (handler, none, after) := by
  obtain ⟨entry, hmem, hentry⟩ := hlacks
  have hfound : (Bundle.coreEntries.find? bundle.lacks).isSome :=
    List.find?_isSome.mpr ⟨entry, hmem, Bundle.lacks_iff.mpr hentry⟩
  obtain ⟨first, hfirst⟩ := Option.isSome_iff_exists.mp hfound
  have hkey : (Bundle.coreEntries.find? bundle.lacks).map (·.1) = some first.1 := by
    rw [hfirst, Option.map_some]
  have hcore : bundle.core = .error ⟨first.1⟩ := Bundle.core_eq_error_iff.mpr hkey
  obtain ⟨after, hgives, hinvoke⟩ := (abandons w node htitle hcore baked).invoke
  have hhost : ∀ foreign, handler ≠ .host foreign := by
    rintro foreign rfl
    cases htitle
  refine ⟨first.1, after, hkey, hgives, fun notice => Handler.aborts_of_notice?, fun limit => ?_⟩
  rw [hinvoke, Handler.drewAll_call hhost]
  cases (handler.draws w node bundle baked).any Bounds.far <;> rfl

/-- A node on its own. -/
def clearing : World Empty :=
  { World.ofSettings {} with nodes := (({} : Arena).addNode {}).2 }

/-- A bundle with a number where the sentence should be, and nothing else. -/
def husk : Bundle Empty := Bundle.empty.insert Key.sentence (.int 0)

/-- A rotation with nothing to turn and no core destroys its node, and says both in this order. -/
theorem husk_gives_up : ∃ after : World Empty,
    after.warnings = #[.nothingToTurn 0 Key.rotation, .missingCore "rotate" 0 ⟨Key.sentence⟩] ∧
    (∃ left, after.nodes.get? 0 = some left ∧ left.destroyed = true) ∧
    after.parked = #[] ∧ after.dispatched = 0 ∧
    clearing.invoke 1 (.turnRotation Vec3.zero Vec3.zero) 0 husk true =
      some (.turnRotation Vec3.zero Vec3.zero, none, after) := by
  have hlacks : ∃ entry ∈ Bundle.coreEntries,
      ∀ value, husk.find? entry.1 = some value → value.kind ≠ entry.2 := by
    refine ⟨(Key.sentence, .sentence), List.mem_cons_self, fun value hvalue => ?_⟩
    cases hvalue
    exact Kind.noConfusion
  have htitle : (Handler.turnRotation Vec3.zero Vec3.zero : Handler Empty).title? = some "rotate" :=
    rfl
  obtain ⟨key, after, hkey, hgives, -, hinvoke⟩ := gives_up clearing 0 htitle hlacks true
  obtain ⟨left, hleft, hown⟩ := hgives.own _ rfl
  cases Option.some.inj hkey
  refine ⟨after, hgives.warnings, ⟨left, hleft, ?_⟩, ?_, ?_, hinvoke 0⟩
  · cases hown
    rfl
  · rw [hgives.rest]
    rfl
  · rw [hgives.rest]
    rfl

end World
end PlantGrowth
