import PlantGrowth.Proofs.Drawings
import PlantGrowth.Proofs.Visiting

/-!
# Branches after branches

A branch hands its dimensions on to the next branch of its chain, each changed by a factor of its own
shape, and is told by that branch how thick it is at its base; this makes its own radius at the top.
The chain ends at a branch that would be too short or too thin.

`Limb.walk` says what a chain draws, without a world and without bundles: a row of limbs, one for each
symbol up to the end of the chain, with the dimensions that are carried there. What the top of a branch
is comes from the limbs after it (`Limb.baseRadius?`), while the chain itself meets the limbs in their
order; so the walk is also seen from behind, one limb after another (`Limb.Draws.append`), and
`Limb.Last` names the branch whose top is still open.

In a world the dimensions and the open top are in the bundle of the chain (`Bundle.Conveys`). Handlers
that hand their chain on leave these entries alone (`Handler.agrees_call`), and a branch that
has grown writes the next ones (`Elongation.conveys_handOn`).
-/

namespace PlantGrowth

/-! ## Limbs -/

/-- The dimensions of a branch. -/
structure Girth where
  length : Float
  radius : Float
  speed : Float
  faces : Float

namespace BranchShape

/-- The dimensions of the first branch of a chain. -/
def start (shape : BranchShape) : Girth where
  length := shape.startLength
  radius := shape.startRadius
  speed := shape.startSpeed
  faces := shape.startFaces

/-- The dimensions that a branch hands on. -/
def taper (shape : BranchShape) (girth : Girth) : Girth where
  length := girth.length * shape.lengthFactor
  radius := girth.radius * shape.radiusFactor
  speed := girth.speed * shape.speedFactor
  faces := girth.faces * shape.facesFactor

/-- Is a branch of these dimensions too short or too thin to grow? -/
def stunts (shape : BranchShape) (girth : Girth) : Bool :=
  girth.length < shape.lengthCutoff || girth.radius < shape.radiusCutoff

end BranchShape

/-- A symbol that a chain reads, the shape of its branch if it is bound to one, and the dimensions that
the chain carries there, if it has met a branch before. -/
structure Limb where
  symbol : Char
  shape : Option BranchShape
  carried : Option Girth

namespace Limb

/-- The branch that grows there. The first one of a chain begins with the dimensions of its shape. -/
def grown (limb : Limb) : Option (BranchShape × Girth) :=
  limb.shape.bind fun shape =>
    let girth := limb.carried.getD shape.start
    if shape.stunts girth then none else some (shape, girth)

/-- Does the chain end there, at a branch that does not grow? -/
def ends (limb : Limb) : Bool := limb.shape.isSome && limb.grown.isNone

/-- The dimensions that are carried on. -/
def onward (limb : Limb) : Option Girth :=
  match limb.grown with
  | some (shape, girth) => some (shape.taper girth)
  | none => limb.carried

/-- The limbs of a row of symbols, up to the end of the chain. -/
def walk (shape? : Char → Option BranchShape) : Option Girth → List Char → List Limb
  | _, [] => []
  | carried, symbol :: rest =>
    let limb : Limb := { symbol, shape := shape? symbol, carried }
    limb :: if limb.ends then [] else walk shape? limb.onward rest

/-- The radius at the base of the first branch that grows. -/
def baseRadius? (limbs : List Limb) : Option Float :=
  limbs.findSome? fun limb => limb.grown.map fun branch => branch.2.radius

/-- What is drawn at the node of a limb that these limbs come after: nothing, unless a branch grows. Its
radius at the top is that of the next branch at the base, times its own factor, and zero without a next
branch. -/
def Draws (limb : Limb) (after : List Limb) (segment : Option Segment) : Prop :=
  match limb.grown with
  | none => segment = none
  | some (shape, girth) => ∃ origin direction : Vec3, segment = some
      { length := ((origin.add (direction.scale girth.length)).sub origin).norm
        bottomRadius := girth.radius * shape.bottomRadiusFactor
        topRadius := ((baseRadius? after).map (· * shape.topRadiusFactor)).getD 0
        faces := max (countOfFloat girth.faces) 2 }

/-- The branch that grew last, at its node. Nodes are counted from 1 on. -/
inductive Last (limbs : List Limb) : Option (NodeId × BranchShape) → Prop where
  | bare (h : ∀ limb ∈ limbs, limb.grown = none) : Last limbs none
  | branch {k : Nat} {limb : Limb} {shape : BranchShape} {girth : Girth} (h : limbs[k]? = some limb)
      (hgrown : limb.grown = some (shape, girth)) (hopen : baseRadius? (limbs.drop (k + 1)) = none) :
      Last limbs (some (k + 1, shape))

variable {limb other : Limb} {limbs after : List Limb} {segment : Option Segment}
  {shape : BranchShape} {girth : Girth} {last : Option (NodeId × BranchShape)}

theorem grown_of_shape (h : limb.shape = none) : limb.grown = none := by
  rw [grown, h, Option.bind_none]

theorem ends_of_shape (h : limb.shape = none) : limb.ends = false := by
  rw [ends, h]
  rfl

theorem onward_of_shape (h : limb.shape = none) : limb.onward = limb.carried := by
  rw [onward, grown_of_shape h]

/-- **The chain ends at the last limb only.** -/
theorem eq_length_of_ends {shape? : Char → Option BranchShape} {carried : Option Girth} {row : List Char}
    {k : Nat} (h : (walk shape? carried row)[k]? = some limb) (hends : limb.ends = true) :
    k + 1 = (walk shape? carried row).length := by
  induction row generalizing carried k with
  | nil => cases h
  | cons symbol rest ih =>
    simp only [walk] at h ⊢
    cases k with
    | zero =>
      rw [Option.some.inj h, hends]
      rfl
    | succ k =>
      rw [List.getElem?_cons_succ] at h
      split at h
      · cases h
      next hopen =>
        rw [if_neg hopen, List.length_cons, ih h]

theorem baseRadius?_append (limbs after : List Limb) :
    baseRadius? (limbs ++ after) = (baseRadius? limbs).or (baseRadius? after) :=
  List.findSome?_append

theorem baseRadius?_singleton (limb : Limb) :
    baseRadius? [limb] = limb.grown.map fun branch => branch.2.radius := by
  rw [baseRadius?, List.findSome?_singleton]

theorem Draws.exists_segment (h : limb.Draws after segment) (hgrown : limb.grown = some (shape, girth)) :
    ∃ old, segment = some old := by
  rw [Draws, hgrown] at h
  obtain ⟨_, _, h⟩ := h
  exact ⟨_, h⟩

/-- A limb that comes last draws no top. -/
theorem draws_nil (hgrown : limb.grown = some (shape, girth)) (origin direction : Vec3) :
    limb.Draws [] (some
      { length := ((origin.add (direction.scale girth.length)).sub origin).norm
        bottomRadius := girth.radius * shape.bottomRadiusFactor
        topRadius := 0
        faces := max (countOfFloat girth.faces) 2 }) := by
  rw [Draws, hgrown]
  exact ⟨origin, direction, rfl⟩

/-- **One limb more changes a drawing only if its branch is the next one to grow.** -/
theorem Draws.append (h : limb.Draws after segment)
    (hsame : other.grown = none ∨ limb.grown = none ∨ baseRadius? after ≠ none) :
    limb.Draws (after ++ [other]) segment := by
  cases hgrown : limb.grown with
  | none =>
    rw [Draws, hgrown] at h ⊢
    exact h
  | some branch =>
    obtain ⟨shape, girth⟩ := branch
    rw [Draws, hgrown] at h ⊢
    have hbase : baseRadius? (after ++ [other]) = baseRadius? after := by
      rw [baseRadius?_append]
      rcases hsame with hnone | hnone | hsome
      · rw [baseRadius?_singleton, hnone, Option.map_none, Option.or_none]
      · cases hgrown.symm.trans hnone
      · obtain ⟨radius, hradius⟩ := Option.ne_none_iff_exists'.mp hsome
        rw [hradius, Option.some_or]
    rw [hbase]
    exact h

/-- **The next branch that grows gives a branch its top.** -/
theorem Draws.crown {old : Segment} {next : BranchShape} {thick : Girth}
    (h : limb.Draws after (some old)) (hgrown : limb.grown = some (shape, girth))
    (hopen : baseRadius? after = none) (hother : other.grown = some (next, thick)) :
    limb.Draws (after ++ [other]) (some { old with topRadius := thick.radius * shape.topRadiusFactor }) := by
  rw [Draws, hgrown] at h ⊢
  obtain ⟨origin, direction, hold⟩ := h
  cases hold
  refine ⟨origin, direction, ?_⟩
  rw [baseRadius?_append, hopen, Option.none_or, baseRadius?_singleton, hother]
  rfl

/-- **No other branch is still without its top** than the one that grew last. -/
theorem grown_or_closed {j k : Nat} (h : limbs[j]? = some limb) (hgrown : limb.grown = some (shape, girth))
    (hopen : baseRadius? (limbs.drop (j + 1)) = none) (hother : limbs[k]? = some other) (hne : k ≠ j) :
    other.grown = none ∨ baseRadius? (limbs.drop (k + 1)) ≠ none := by
  rcases Nat.lt_or_gt_of_ne hne with hlt | hgt
  · refine Or.inr fun hnone => ?_
    have hmem : limb ∈ limbs.drop (k + 1) := by
      refine List.mem_of_getElem? (i := j - (k + 1)) ?_
      rw [List.getElem?_drop, Nat.add_sub_cancel' hlt, h]
    have hnot := List.findSome?_eq_none_iff.mp hnone limb hmem
    rw [hgrown] at hnot
    cases hnot
  · have hmem : other ∈ limbs.drop (j + 1) := by
      refine List.mem_of_getElem? (i := k - (j + 1)) ?_
      rw [List.getElem?_drop, Nat.add_sub_cancel' hgt, hother]
    have hnone := List.findSome?_eq_none_iff.mp hopen other hmem
    exact Or.inl (Option.map_eq_none_iff.mp hnone)

theorem Last.append (h : Last limbs last) (hother : other.grown = none) : Last (limbs ++ [other]) last := by
  cases h with
  | bare h =>
    refine .bare fun limb hmem => ?_
    rcases List.mem_append.mp hmem with hold | hnew
    · exact h limb hold
    · rw [List.mem_singleton.mp hnew]
      exact hother
  | @branch k limb shape girth h hgrown hopen =>
    obtain ⟨hlt, -⟩ := List.getElem?_eq_some_iff.mp h
    refine .branch (getElem?_append_of_eq_some h _) hgrown ?_
    rw [List.drop_append_of_le_length hlt, baseRadius?_append, hopen, baseRadius?_singleton, hother]
    rfl

theorem last_concat (hother : other.grown = some (shape, girth)) :
    Last (limbs ++ [other]) (some (limbs.length + 1, shape)) := by
  refine .branch List.getElem?_concat_length hother ?_
  rw [List.drop_eq_nil_of_le (by rw [List.length_append, List.length_singleton])]
  rfl

end Limb

/-! ## Bundles -/

/-- The entries by which branches follow on each other. -/
def Key.ofBranches : List String :=
  [Key.branchLength, Key.branchRadius, Key.branchSpeed, Key.branchFaces, Key.growLoop]

namespace Bundle

/-- The same entries for the next branch. -/
def Agrees (bundle later : Bundle Empty) : Prop :=
  ∀ key ∈ Key.ofBranches, later.find? key = bundle.find? key

/-- The dimensions in a bundle are the ones that are carried. -/
structure Carries (bundle : Bundle Empty) (carried : Option Girth) : Prop where
  length : bundle.float? Key.branchLength = carried.map Girth.length
  radius : bundle.float? Key.branchRadius = carried.map Girth.radius
  speed : bundle.float? Key.branchSpeed = carried.map Girth.speed
  faces : bundle.float? Key.branchFaces = carried.map Girth.faces

/-- The dimensions that a branch of a shape reads. -/
def girth (bundle : Bundle Empty) (shape : BranchShape) : Girth where
  length := (bundle.float? Key.branchLength).getD shape.startLength
  radius := (bundle.float? Key.branchRadius).getD shape.startRadius
  speed := (bundle.float? Key.branchSpeed).getD shape.startSpeed
  faces := (bundle.float? Key.branchFaces).getD shape.startFaces

/-- The bundle of a chain after these limbs: the next branch begins with these dimensions, and tells its
radius to the branch that grew last. -/
structure Conveys (limbs : List Limb) (carried : Option Girth) (bundle : Bundle Empty) : Prop where
  carries : bundle.Carries carried
  callback : ∃ last, Limb.Last limbs last ∧ bundle.callback? Key.growLoop =
    last.map fun branch => .topRadius branch.1 branch.2.topRadiusFactor

variable {bundle mid later : Bundle Empty} {limbs : List Limb} {carried : Option Girth}
  {key : String} {value : Value Empty}

theorem Carries.girth_eq (h : bundle.Carries carried) (shape : BranchShape) :
    bundle.girth shape = carried.getD shape.start := by
  rw [girth, h.length, h.radius, h.speed, h.faces]
  cases carried with
  | none => rfl
  | some girth => rfl

theorem Agrees.refl (bundle : Bundle Empty) : bundle.Agrees bundle := fun _ _ => rfl

theorem Agrees.write (h : bundle.Agrees later) (hkey : key ∉ Key.ofBranches) (value : Value Empty) :
    bundle.Agrees (later.write key value) := by
  intro other hother
  have hne : other ≠ key := by
    rintro rfl
    exact hkey hother
  rw [find?_write_of_ne hne, h other hother]

theorem Conveys.of_agrees (h : bundle.Conveys limbs carried) (hagrees : bundle.Agrees later) :
    later.Conveys limbs carried := by
  obtain ⟨⟨hlength, hradius, hspeed, hfaces⟩, last, hlast, hcallback⟩ := h
  have hfloat (key : String) (hkey : key ∈ Key.ofBranches) : later.float? key = bundle.float? key := by
    rw [float?, float?, hagrees key hkey]
  refine ⟨⟨?_, ?_, ?_, ?_⟩, last, hlast, ?_⟩
  · rw [hfloat _ (by decide), hlength]
  · rw [hfloat _ (by decide), hradius]
  · rw [hfloat _ (by decide), hspeed]
  · rw [hfloat _ (by decide), hfaces]
  · rw [callback?, hagrees _ (by decide)]
    exact hcallback

/-- A limb at which nothing grows leaves the bundle as it is. -/
theorem Conveys.append {limb : Limb} (h : bundle.Conveys limbs carried) (hlimb : limb.grown = none) :
    bundle.Conveys (limbs ++ [limb]) carried := by
  obtain ⟨hcarries, last, hlast, hcallback⟩ := h
  exact ⟨hcarries, last, hlast.append hlimb, hcallback⟩

/-- A plant begins without branches. -/
theorem conveys_chain {seed : Seed Empty} (position : Vec3) :
    (seed.chain position .empty).bundle.Conveys [] none := by
  have hempty : (Bundle.empty : Bundle Empty).Conveys [] none :=
    ⟨⟨rfl, rfl, rfl, rfl⟩, none, .bare fun _ hmem => (by cases hmem), rfl⟩
  have hforeign : ∀ key ∈ Key.ofBranches, Seed.Foreign key := by decide
  exact hempty.of_agrees fun key hkey => Seed.find?_chain tidy_empty position (hforeign key hkey)

end Bundle

/-! ## Handlers that hand their chain on -/

/-- A chain that is handed on has the same entries for the next branch. -/
def Effect.Agrees (bundle : Bundle Empty) (effect : Effect Empty) : Prop :=
  ∀ node chain, .carryOn node chain ∈ effect.tasks → bundle.Agrees chain.bundle

section

variable {w : World Empty} {bundle later : Bundle Empty} {effect : Effect Empty}

theorem Effect.Agrees.andDestroy (h : effect.Agrees bundle) (node : NodeId) :
    (World.andDestroy node effect).Agrees bundle := by
  intro other chain hmem
  rcases List.mem_append.mp hmem with hmem | hmem
  · exact h other chain hmem
  · cases List.mem_singleton.mp hmem

theorem World.agrees_carryOnOrWarn (h : bundle.Agrees later) (w : World Empty) (handler : String)
    (node : NodeId) (core : Except MissingEntry (Core Empty)) :
    (w.carryOnOrWarn handler node core later).Agrees bundle := by
  intro other chain hmem
  cases core with
  | ok core =>
    cases List.mem_singleton.mp hmem
    exact h
  | error missing => cases hmem

/-- The sizes of leaves are other entries. -/
theorem Unfolding.agrees_handOn (unfolding : Unfolding Empty) (bundle : Bundle Empty) :
    bundle.Agrees (unfolding.handOn bundle) :=
  (((Bundle.Agrees.refl bundle).write (by decide) _).write (by decide) _).write (by decide) _

theorem World.agrees_leaf (w : World Empty) (shape : LeafShape) (node : NodeId)
    (bundle : Bundle Empty) (baked : Bool) : (w.leaf shape node bundle baked).Agrees bundle := by
  have hfinish {unfolding : Unfolding Empty} (hbuds : unfolding.Buds shape node bundle)
      (later : World Empty) (blade : Option Blade) :
      ({ world := (unfolding.finish later blade).world
         tasks := (unfolding.finish later blade).tasks } : Effect Empty).Agrees bundle := by
    obtain ⟨-, -, core, hwork⟩ := hbuds
    intro other chain hmem
    simp only [Unfolding.finish, hwork] at hmem
    cases List.mem_singleton.mp hmem
    exact unfolding.agrees_handOn bundle
  have hunfolds := w.unfolds_leaf shape node bundle baked
  generalize w.leaf shape node bundle baked = effect at hunfolds ⊢
  cases hunfolds with
  | nothing _ _ => exact fun _ _ hmem => (by cases hmem)
  | bakes hbuds _ => exact hfinish hbuds _ _
  | ripe hbuds => exact hfinish hbuds _ _
  | begins _ => exact fun _ _ hmem => (by cases hmem)

/-- **What lies between two branches changes none of the entries that the second one reads.** -/
theorem Handler.agrees_call {handler : Handler Empty} {gone : Bool}
    (hhandler : handler.handsOn? = some gone) (w : World Empty) (node : NodeId)
    (bundle : Bundle Empty) (baked : Bool) : (handler.call w node bundle baked).2.Agrees bundle := by
  have hsame := Bundle.Agrees.refl bundle
  cases handler with
  | pause minSeconds maxSeconds =>
    show (w.pause minSeconds maxSeconds node bundle baked).Agrees bundle
    unfold World.pause World.coreOrWarn
    intro other chain hmem
    cases hcore : bundle.core with
    | error missing =>
      rw [hcore] at hmem
      cases hmem
    | ok core =>
      rw [hcore] at hmem
      cases baked with
      | true =>
        rcases List.mem_cons.mp hmem with heq | hmem
        · cases heq
          exact hsame
        · cases List.mem_singleton.mp hmem
      | false => cases hmem
  | turnRotation eulerMin eulerMax =>
    refine Effect.Agrees.andDestroy ?_ node
    cases bundle.rotation? Key.rotation with
    | some rotation => exact World.agrees_carryOnOrWarn (hsame.write (by decide) _) _ _ _ _
    | none => exact World.agrees_carryOnOrWarn hsame _ _ _ _
  | turnHeading axis angleMin angleMax =>
    refine Effect.Agrees.andDestroy ?_ node
    cases bundle.vec3? Key.heading with
    | some heading =>
      refine World.agrees_carryOnOrWarn ?_ _ _ _ _
      cases axis.direction? machineEpsilon with
      | some axis => exact hsame.write (by decide) _
      | none => exact hsame
    | none => exact World.agrees_carryOnOrWarn hsame _ _ _ _
  | move distanceMin distanceMax =>
    show (w.move distanceMin distanceMax node bundle).Agrees bundle
    unfold World.move
    cases bundle.vec3? Key.heading with
    | some heading => exact World.agrees_carryOnOrWarn hsame _ _ _ _
    | none => exact World.agrees_carryOnOrWarn hsame _ _ _ _
  | leaf shape => exact w.agrees_leaf shape node bundle baked
  | fork closing => cases hhandler
  | branch shape => cases hhandler
  | seed planted => cases hhandler
  | host foreign => cases hhandler

end

/-! ## Branches -/

/-- The dimensions with which a branch grows. -/
def Elongation.girth (growth : Elongation Empty) : Girth where
  length := growth.length
  radius := growth.radius
  speed := growth.speed
  faces := growth.faces

/-- The branch with its full radius at the base. -/
def Elongation.grown (growth : Elongation Empty) : Elongation Empty :=
  { growth with bottomRadius := growth.radius }

section

variable {w : World Empty} {bundle : Bundle Empty} {limbs : List Limb} {limb : Limb}
  {carried : Option Girth} {shape : BranchShape} {seed : Seed Empty} {growth : Elongation Empty}

/-- **A branch that has grown hands its dimensions on, and its top is open.** -/
theorem Elongation.conveys_handOn (hgrown : limb.grown = some (growth.shape, growth.girth))
    (hnode : growth.node = limbs.length + 1) (tidy : bundle.Tidy) :
    (growth.handOn bundle).Conveys (limbs ++ [limb]) limb.onward := by
  have h1 := tidy.write Key.branchLength (.float (growth.length * growth.shape.lengthFactor)) rfl
  have h2 := h1.write Key.branchRadius (.float (growth.radius * growth.shape.radiusFactor)) rfl
  have h3 := h2.write Key.branchSpeed (.float (growth.speed * growth.shape.speedFactor)) rfl
  have h4 := h3.write Key.branchFaces (.float (growth.faces * growth.shape.facesFactor)) rfl
  have honward : limb.onward = some (growth.shape.taper growth.girth) := by
    rw [Limb.onward, hgrown]
  have hfind (key : String) : (growth.handOn bundle).find? key =
      if key = Key.growLoop then some (.callback (.topRadius growth.node growth.shape.topRadiusFactor))
      else if key = Key.branchFaces then some (.float (growth.faces * growth.shape.facesFactor))
      else if key = Key.branchSpeed then some (.float (growth.speed * growth.shape.speedFactor))
      else if key = Key.branchRadius then some (.float (growth.radius * growth.shape.radiusFactor))
      else if key = Key.branchLength then some (.float (growth.length * growth.shape.lengthFactor))
      else bundle.find? key := by
    rw [handOn, Bundle.find?_write h4 _ _ rfl, Bundle.find?_write h3 _ _ rfl,
      Bundle.find?_write h2 _ _ rfl, Bundle.find?_write h1 _ _ rfl, Bundle.find?_write tidy _ _ rfl]
  rw [honward]
  refine ⟨⟨?_, ?_, ?_, ?_⟩, some (limbs.length + 1, growth.shape), Limb.last_concat hgrown, ?_⟩
  · rw [Bundle.float?, hfind]
    rfl
  · rw [Bundle.float?, hfind]
    rfl
  · rw [Bundle.float?, hfind]
    rfl
  · rw [Bundle.float?, hfind]
    rfl
  · rw [Bundle.callback?, hfind, ← hnode]
    rfl

/-- **A baked branch without a tip grows with the dimensions that are carried, or not at all.** -/
theorem World.branch_of_carries {core : Core Empty} {heading : Vec3} {node : NodeId} {state : Node}
    (hcore : bundle.core = .ok core) (hheading : bundle.vec3? Key.heading = some heading)
    (hnode : w.nodes.get? node = some state) (htip : shape.tipSymbol = none)
    (hshape : limb.shape = some shape) (hcarries : bundle.Carries limb.carried) :
    (limb.grown = none ∧ w.branch shape node bundle true = { world := w }) ∨
      ∃ growth : Elongation Empty, limb.grown = some (growth.shape, growth.girth) ∧
        growth.node = node ∧ growth.tip = none ∧ growth.work = some { core, bundle } ∧
        growth.callback = bundle.callback? Key.growLoop ∧
        w.branch shape node bundle true =
          { world := w.mapNodes (·.place node (·.face heading))
            tasks := [.carryTip growth, .ripen growth] } := by
  have hgrown : limb.grown =
      if shape.stunts (bundle.girth shape) then none else some (shape, bundle.girth shape) := by
    rw [hcarries.girth_eq, Limb.grown, hshape]
    rfl
  simp only [World.branch, World.coreOrWarn, hcore, hheading, hnode, htip, if_true, List.nil_append]
  rw [hgrown]
  cases hstunts : shape.stunts (bundle.girth shape) with
  | true =>
    rw [BranchShape.stunts, Bundle.girth] at hstunts
    rw [if_pos hstunts]
    exact Or.inl ⟨rfl, rfl⟩
  | false =>
    rw [BranchShape.stunts, Bundle.girth] at hstunts
    rw [if_neg (Bool.eq_false_iff.mp hstunts)]
    exact Or.inr ⟨_, rfl, rfl, rfl, rfl, rfl, rfl⟩

namespace Elongation

theorem tellRadius_of_callback (h : growth.callback = none) (w : World Empty) :
    growth.tellRadius w = w := by
  rw [tellRadius, h]

/-- Telling the radius at its base changes the top of one branch. -/
theorem segment_tellRadius {node : NodeId} {factor : Float}
    (h : growth.callback = some (.topRadius node factor)) (w : World Empty) (id : NodeId) :
    (growth.tellRadius w).nodes.look Node.segment id =
      if id = node then (w.nodes.look Node.segment id).map fun segment =>
        segment.map fun old => { old with topRadius := growth.bottomRadius * factor }
      else w.nodes.look Node.segment id := by
  rw [tellRadius, h]
  by_cases heq : id = node
  · subst heq
    rw [if_pos rfl]
    refine (Arena.look_modify_self w.nodes id _).trans ?_
    rw [Arena.look, Arena.look, Option.map_map]
    rfl
  · rw [if_neg heq]
    exact Arena.look_modify_of_ne heq w.nodes _

/-- What a baked branch without a tip comes to: it is measured at its full length, tells its radius and
hands its chain on. -/
theorem ripen_eq (htip : growth.tip = none) {core : Core Empty} (hwork : growth.work = some { core, bundle })
    {state : Node} (hnode : w.nodes.get? growth.node = some state) :
    ∃ measured : World Empty, growth.ripen w =
        (growth.grown.tellRadius measured,
          [.carryOn growth.node { core, bundle := growth.handOn bundle }]) ∧
      (∀ id, id ≠ growth.node → measured.nodes.look Node.segment id = w.nodes.look Node.segment id) ∧
      measured.nodes.look Node.segment growth.node = some (some
        { length := ((growth.origin.add (growth.direction.scale growth.length)).sub growth.origin).norm
          bottomRadius := growth.radius * growth.shape.bottomRadiusFactor
          topRadius := (state.segment.map (·.topRadius)).getD 0
          faces := max (countOfFloat growth.faces) 2 }) := by
  obtain ⟨placed, hplaced⟩ : ∃ placed : World Empty, placed = w.mapNodes (·.place growth.node fun t =>
      { t with position := growth.origin.add (growth.direction.scale growth.length) }) := ⟨_, rfl⟩
  have hcarried : growth.carryTip placed = placed := by
    rw [carryTip, htip]
  have hget : placed.nodes.get? growth.node = some { state with transform := { state.transform with
      position := growth.origin.add (growth.direction.scale growth.length) } } := by
    rw [hplaced]
    refine (Arena.get?_modify w.nodes growth.node growth.node _).trans ?_
    rw [if_pos rfl, hnode]
    rfl
  have hdistance : growth.grown.distance placed =
      ((growth.origin.add (growth.direction.scale growth.length)).sub growth.origin).norm := by
    have hgrown : placed.nodes.get? growth.grown.node = _ := hget
    rw [distance, hgrown]
    rfl
  refine ⟨growth.grown.measure placed (growth.grown.distance placed), ?_, fun id hne => ?_, ?_⟩
  · rw [ripen]
    simp only [finish, hwork, ← hplaced, hcarried]
    rfl
  · refine (Arena.look_modify_of_ne hne placed.nodes _).trans ?_
    rw [hplaced]
    exact congrFun (Arena.look_place Node.draws_segment w.nodes growth.node _) id
  · refine (Arena.look_modify_self placed.nodes growth.node _).trans ?_
    rw [Arena.look_of_get? hget, hdistance]
    rfl

end Elongation

end

end PlantGrowth
