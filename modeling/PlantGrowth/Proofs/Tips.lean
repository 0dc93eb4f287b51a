import PlantGrowth.Proofs.Calls
import PlantGrowth.Proofs.Plan
import PlantGrowth.Proofs.Run
import Mathlib.Tactic.ByContra

/-!
# Tips of tips

The handler at the tip of a branch acts before the branch has grown. If it is a branch as well, it
has a tip of its own, made from the same bundle, and nothing in that bundle tells the one from the
other. So the tips come to an end only if at some point a branch is too short or too thin for its
shape, has no tip, or has a tip that is no branch.

Whether they do is `Bundle.TipsEnd`. A call of a branch whose tips do not end is never over.
-/

namespace PlantGrowth

variable {H : Type}

/-- The shape of a branch. -/
def Handler.branch? : Handler H → Option BranchShape
  | .branch shape => some shape
  | _ => none

theorem Handler.eq_branch_of_branch? {handler : Handler H} {shape : BranchShape}
    (h : handler.branch? = some shape) : handler = .branch shape := by
  cases handler with
  | branch other =>
    cases h
    rfl
  | _ => cases h

namespace Bundle

/-- The branch that acts at the tip of a branch with this bundle. -/
def tipBranch? (bundle : Bundle H) (shape : BranchShape) : Option BranchShape :=
  match bundle.core, bundle.vec3? Key.heading with
  | .ok core, some _ =>
    if bundle.stunts shape then none
    else (shape.tipSymbol.bind core.registry.find?).bind (·.handler.branch?)
  | _, _ => none

/-- The branches at the tips of tips come to an end. -/
inductive TipsEnd (bundle : Bundle H) : BranchShape → Prop where
  | intro {shape : BranchShape}
      (h : ∀ next, bundle.tipBranch? shape = some next → TipsEnd bundle next) :
      TipsEnd bundle shape

variable {bundle : Bundle H} {shape next : BranchShape}

theorem exists_of_tipBranch? (h : bundle.tipBranch? shape = some next) :
    ∃ core heading symbol prototype, bundle.core = .ok core ∧
      bundle.vec3? Key.heading = some heading ∧ bundle.stunts shape = false ∧
      shape.tipSymbol = some symbol ∧ core.registry.find? symbol = some prototype ∧
      prototype.handler = .branch next := by
  rw [tipBranch?] at h
  split at h
  next core heading hcore hheading =>
    cases hstunts : bundle.stunts shape with
    | true =>
      rw [hstunts, if_pos rfl] at h
      cases h
    | false =>
      rw [hstunts, if_neg Bool.false_ne_true, Option.bind_eq_some_iff] at h
      obtain ⟨prototype, htip, hhandler⟩ := h
      obtain ⟨symbol, hsymbol, hfind⟩ := Option.bind_eq_some_iff.mp htip
      exact ⟨core, heading, symbol, prototype, hcore, hheading, rfl, hsymbol, hfind,
        Handler.eq_branch_of_branch? hhandler⟩
  · cases h

/-- Tips without end go on with tips without end. -/
theorem exists_of_not_tipsEnd (h : ¬ bundle.TipsEnd shape) :
    ∃ next, bundle.tipBranch? shape = some next ∧ ¬ bundle.TipsEnd next := by
  by_contra hnone
  refine h (TipsEnd.intro fun next hnext => ?_)
  by_contra hend
  exact hnone ⟨next, hnext, hend⟩

/-- A branch that acts at its own tip has tips without end. -/
theorem not_tipsEnd_of_self (h : bundle.tipBranch? shape = some shape) : ¬ bundle.TipsEnd shape := by
  intro htips
  induction htips with
  | intro _ ih => exact ih _ h h

end Bundle

/-! ## Branches that are never over -/

namespace World

/-- A call of a branch, at a node, whose tips have tips without end. -/
inductive EndlessTip (w : World H) : Task H → Prop where
  | intro {shape : BranchShape} {node : NodeId} {bundle : Bundle H} {baked : Bool} {state : Node}
      (hnode : w.nodes.get? node = some state) (h : ¬ bundle.TipsEnd shape) :
      EndlessTip w (.call (.branch shape) node bundle baked)

variable [Host H] {w after : World H} {task : Task H} {rest : List (Task H)}

/-- A branch whose tips do not end calls another one, first of all. -/
theorem endlessTip_perform (h : EndlessTip w task) :
    ∃ next more, (w.perform task).2 = next :: more ∧ EndlessTip (w.perform task).1 next := by
  obtain ⟨hnode, htips⟩ := h
  rename_i shape node bundle baked state
  obtain ⟨next, hnext, hendless⟩ := Bundle.exists_of_not_tipsEnd htips
  obtain ⟨core, heading, symbol, prototype, hcore, hheading, hstunts, hsymbol, hfind, hhandler⟩ :=
    Bundle.exists_of_tipBranch? hnext
  show ∃ next more, (w.branch shape node bundle baked).allTasks = next :: more ∧
    EndlessTip (w.branch shape node bundle baked).world next
  rcases World.branch_cases hcore hheading shape w node baked with
    ⟨hnothing | hnothing, -⟩ | ⟨-, growth, tipTasks, hbranches⟩
  · rw [hstunts] at hnothing
    cases hnothing
  · rw [hnode] at hnothing
    cases hnothing
  · obtain ⟨more, hmore⟩ := (w.branch shape node bundle baked).exists_allTasks
    rw [hmore, hbranches.tasks]
    cases hbranches.tip with
    | none hnone =>
      rw [hsymbol, Option.bind_some, hfind] at hnone
      cases hnone
    | @call found other tip state' hfound hother htip _ _ =>
      obtain rfl : symbol = found := Option.some.inj (hsymbol.symm.trans hfound)
      obtain rfl : prototype = other := Option.some.inj (hfind.symm.trans hother)
      rw [hhandler]
      exact ⟨_, _, rfl, EndlessTip.intro htip hendless⟩

/-- **A branch whose tips do not end is never over.** -/
theorem not_ends_of_endlessTip (h : EndlessTip w task) : ¬ Ends w (task :: rest) after := by
  intro hends
  have hcomes := ends_iff_comes.mp hends
  obtain ⟨next, more, hnil, -⟩ := hcomes.invariant
    (P := fun w tasks => ∃ task rest, tasks = task :: rest ∧ EndlessTip w task)
    (fun w task rest _ hstage => by
      obtain ⟨first, others, heq, hendless⟩ := hstage
      cases heq
      obtain ⟨next, more, htasks, hnext⟩ := endlessTip_perform hendless
      rw [htasks]
      exact ⟨next, more ++ rest, rfl, hnext⟩)
    ⟨task, rest, rfl, h⟩
  cases hnil

end World

/-! ## Plans whose tips end -/

namespace PlantPlan

/-- The symbol for the tip of a branch, for a symbol that is bound to a branch. -/
def tipOf? (plan : PlantPlan) (symbol : Char) : Option Char :=
  match plan.handlers.find? symbol with
  | some (.branch shape) => shape.tipSymbol
  | _ => none

/-- From every symbol on, the symbols for tips of tips come to an end, in the plant and in all plants
within it. -/
inductive TipsEnd : PlantPlan → Prop where
  | intro {plan : PlantPlan}
      (own : ∀ symbol, Acc (fun next symbol => plan.tipOf? symbol = some next) symbol)
      (within : ∀ symbol inner, plan.handlers.find? symbol = some (.seed inner) → TipsEnd inner) :
      TipsEnd plan

variable {plan : PlantPlan} {seed : Seed H} {bundle : Bundle H}

theorem TipsEnd.within {symbol : Char} {inner : PlantPlan} (h : plan.TipsEnd)
    (hfind : plan.handlers.find? symbol = some (.seed inner)) : inner.TipsEnd := by
  cases h with
  | intro _ hwithin => exact hwithin symbol inner hfind

theorem TipsEnd.own (h : plan.TipsEnd) (symbol : Char) :
    Acc (fun next symbol => plan.tipOf? symbol = some next) symbol := by
  cases h with
  | intro hown _ => exact hown symbol

/-- A plant without symbols for tips has no tips, if the plants within it have none that never end. -/
theorem TipsEnd.of_untipped (hown : ∀ symbol, plan.tipOf? symbol = none)
    (hwithin : ∀ symbol inner, plan.handlers.find? symbol = some (.seed inner) → inner.TipsEnd) :
    plan.TipsEnd := by
  refine TipsEnd.intro (fun symbol => Acc.intro symbol fun next hnext => ?_) hwithin
  rw [hown symbol] at hnext
  cases hnext

/-- A plant without branches and without plants within it has no tips. -/
theorem TipsEnd.of_unbranched
    (hbranch : ∀ symbol shape, plan.handlers.find? symbol ≠ some (.branch shape))
    (hseed : ∀ symbol inner, plan.handlers.find? symbol ≠ some (.seed inner)) : plan.TipsEnd := by
  refine TipsEnd.of_untipped (fun symbol => ?_) fun symbol inner hfind =>
    absurd hfind (hseed symbol inner)
  rw [tipOf?]
  split
  next shape hfind => exact absurd hfind (hbranch symbol shape)
  next => rfl

theorem tipOf?_of_find? (hplan : plan.seed = .ok seed) {symbol : Char} {prototype : Prototype H}
    {shape : BranchShape} (hfind : seed.registry.find? symbol = some prototype)
    (hhandler : prototype.handler = .branch shape) : plan.tipOf? symbol = shape.tipSymbol := by
  obtain ⟨handler, hbound, hmakes⟩ := makes_of_find? hplan hfind
  rw [hhandler] at hmakes
  cases hmakes
  rw [tipOf?, hbound]

/-- In such a plan the tips of every branch end. -/
theorem tipsEnd_of_acc (hplan : plan.seed = .ok seed) (hfollows : bundle.Follows seed)
    {symbol : Char} (hacc : Acc (fun next symbol => plan.tipOf? symbol = some next) symbol)
    {prototype : Prototype H} {shape : BranchShape}
    (hfind : seed.registry.find? symbol = some prototype)
    (hhandler : prototype.handler = .branch shape) : bundle.TipsEnd shape := by
  induction hacc generalizing prototype shape with
  | intro symbol _ ih =>
    refine Bundle.TipsEnd.intro fun next hnext => ?_
    obtain ⟨core, heading, tip, other, hcore, -, -, htip, hother, hbranch⟩ :=
      Bundle.exists_of_tipBranch? hnext
    obtain ⟨s, hs⟩ := hfollows.sentence
    have hregistry : core.registry = seed.registry := by
      rw [hfollows.core_eq hs] at hcore
      cases hcore
      rfl
    rw [hregistry] at hother
    refine ih tip ?_ hother hbranch
    show plan.tipOf? symbol = some tip
    rw [tipOf?_of_find? hplan hfind hhandler, htip]

end PlantPlan
end PlantGrowth
