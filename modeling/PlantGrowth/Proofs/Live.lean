import PlantGrowth.Proofs.Growing
import Mathlib.Data.List.Nodup
import Mathlib.Data.Set.Function

/-!
# Live and baked bracketed plants

The same plan grows live and baked into the same tree. A live plant makes its nodes in another
order, which depends on the budget of the ticks and on what is drawn for pauses and leaves; but its
nodes belong to the same visits, so each of them has a counterpart in the baked plant
(`Garden.live_mirrors_baked`).
-/

namespace PlantGrowth

/-- The nodes of one arena are those of another under other names. -/
structure Arena.Mirrors (arena other : Arena) (image : NodeId → NodeId) : Prop where
  bijective : Set.BijOn image {id | id < arena.size} {id | id < other.size}
  root : image 0 = 0
  node : ∀ id node, arena.get? id = some node → ∃ counterpart,
    other.get? (image id) = some counterpart ∧ counterpart.symbol = node.symbol ∧
      counterpart.name = node.name ∧ counterpart.ethereal = node.ethereal ∧
      counterpart.destroyed = node.destroyed ∧ counterpart.previous = node.previous.map image

/-! ## Renaming -/

/-- The new name of a node whose visit was made at another time. -/
def Visit.rename (made other : List Visit) : NodeId → NodeId
  | 0 => 0
  | k + 1 =>
    match made[k]? with
    | some visit => other.idxOf visit + 1
    | none => k + 1

section Renaming

variable {signs : Signs} {made other : List Visit} {anchor : Option Nat} {node : NodeId} {k : Nat}
  {visit : Visit}

theorem Visit.rename_succ (h : made[k]? = some visit) :
    Visit.rename made other (k + 1) = other.idxOf visit + 1 := by
  rw [rename, h]

theorem getElem?_idxOf_of_mem (h : visit ∈ other) : other[other.idxOf visit]? = some visit := by
  have hlt := List.idxOf_lt_length_iff.mpr h
  rw [List.getElem?_eq_getElem hlt, List.getElem_idxOf]

/-- The node of an anchor becomes the node of the same anchor. -/
theorem Signs.Names.rename (h : signs.Names made anchor node) (hperm : made.Perm other) :
    signs.Names other anchor (Visit.rename made other node) := by
  cases h with
  | root => exact Names.root
  | @node k visit hvisit hsolid =>
    rw [Visit.rename_succ hvisit]
    exact Names.node (getElem?_idxOf_of_mem (hperm.mem_iff.mp (List.mem_of_getElem? hvisit))) hsolid

/-- An anchor has one node only. -/
theorem Signs.Names.unique {second : NodeId} (hnodup : (made.map Visit.position).Nodup)
    (h : signs.Names made anchor node) (h' : signs.Names made anchor second) : node = second := by
  cases h with
  | root =>
    -- the anchor is made a variable again, so that the second case analysis can set it
    generalize hanchor : (none : Option Nat) = anchor at h'
    cases h' with
    | root => rfl
    | node _ _ => cases hanchor
  | @node k visit hvisit hsolid =>
    generalize hanchor : some visit.position = anchor at h'
    cases h' with
    | root => cases hanchor
    | @node j visit' hvisit' _ =>
      have hposition : visit.position = visit'.position := Option.some.inj hanchor
      have hat : (made.map Visit.position)[k]? = some visit.position := by
        rw [List.getElem?_map, hvisit, Option.map_some]
      have hat' : (made.map Visit.position)[j]? = some visit.position := by
        rw [List.getElem?_map, hvisit', Option.map_some, hposition]
      obtain ⟨hlt, -⟩ := List.getElem?_eq_some_iff.mp hat
      rw [(List.getElem?_inj hlt hnodup).mp (hat.trans hat'.symm)]

/-- **Renaming loses no node and makes none.** -/
theorem Visit.bijOn_rename (hnodup : made.Nodup) (hperm : made.Perm other) :
    Set.BijOn (Visit.rename made other) {id | id < made.length + 1} {id | id < other.length + 1} := by
  have hnodup' : other.Nodup := hperm.nodup_iff.mp hnodup
  refine ⟨?_, ?_, ?_⟩
  · intro id hid
    cases id with
    | zero => exact Nat.succ_pos _
    | succ k =>
      have hlt : k < made.length := Nat.lt_of_succ_lt_succ hid
      have hvisit : made[k]? = some made[k] := List.getElem?_eq_getElem hlt
      show Visit.rename made other (k + 1) < other.length + 1
      rw [Visit.rename_succ hvisit]
      exact Nat.succ_lt_succ (List.idxOf_lt_length_iff.mpr (hperm.mem_iff.mp (List.getElem_mem hlt)))
  · intro first hfirst second hsecond hsame
    cases first with
    | zero =>
      cases second with
      | zero => rfl
      | succ j =>
        have hlt : j < made.length := Nat.lt_of_succ_lt_succ hsecond
        rw [Visit.rename_succ (List.getElem?_eq_getElem hlt)] at hsame
        cases hsame
    | succ k =>
      have hlt : k < made.length := Nat.lt_of_succ_lt_succ hfirst
      rw [Visit.rename_succ (List.getElem?_eq_getElem hlt)] at hsame
      cases second with
      | zero => cases hsame
      | succ j =>
        have hlt' : j < made.length := Nat.lt_of_succ_lt_succ hsecond
        rw [Visit.rename_succ (List.getElem?_eq_getElem hlt')] at hsame
        have hmem : made[k] ∈ other := hperm.mem_iff.mp (List.getElem_mem hlt)
        have hvisits : made[k] = made[j] :=
          (List.idxOf_inj hmem).mp (Nat.succ.inj hsame)
        rw [hnodup.getElem_inj_iff.mp hvisits]
  · intro id hid
    cases id with
    | zero => exact ⟨0, Nat.succ_pos _, rfl⟩
    | succ j =>
      have hlt : j < other.length := Nat.lt_of_succ_lt_succ hid
      have hmem : other[j] ∈ made := hperm.mem_iff.mpr (List.getElem_mem hlt)
      refine ⟨made.idxOf other[j] + 1, ?_, ?_⟩
      · exact Nat.succ_lt_succ (List.idxOf_lt_length_iff.mpr hmem)
      · rw [Visit.rename_succ (getElem?_idxOf_of_mem hmem), hnodup'.idxOf_getElem j hlt]

end Renaming

/-! ## Grown plants -/

section Grown

variable {bed other : Bed} {made made' : List Visit} {w w' : World Empty} {visit : Visit}

/-- Two nodes of one visit agree, and hang on nodes of one anchor. -/
theorem Bed.Shows.agree {mark mark' : Mark} (h : bed.Shows made visit mark)
    (h' : other.Shows made' visit mark') (hseed : other.seed = bed.seed)
    (hsigns : other.signs = bed.signs) (hperm : made.Perm made')
    (hnodup : (made'.map Visit.position).Nodup) :
    mark'.symbol = mark.symbol ∧ mark'.name = mark.name ∧ mark'.ethereal = mark.ethereal ∧
      mark'.previous = mark.previous.map (Visit.rename made made') := by
  obtain ⟨prototype, hfind, hname⟩ := h.name
  obtain ⟨prototype', hfind', hname'⟩ := h'.name
  obtain ⟨previous, hprevious, hnames⟩ := h.previous
  obtain ⟨previous', hprevious', hnames'⟩ := h'.previous
  rw [hseed] at hfind'
  rw [hsigns] at hnames'
  obtain rfl : prototype = prototype' := Option.some.inj (hfind.symm.trans hfind')
  refine ⟨h'.symbol.trans h.symbol.symm, hname'.trans hname.symm, ?_, ?_⟩
  · rw [h'.ethereal, h.ethereal, hsigns]
  · rw [hprevious, hprevious', Option.map_some, hnames'.unique hnodup (hnames.rename hperm)]

/-- **Two plants that have made the same visits are the same tree**, whatever the order of the
visits. -/
theorem Bed.Grown.mirrors (h : bed.Grown made w) (h' : other.Grown made' w')
    (hseed : other.seed = bed.seed) (hsigns : other.signs = bed.signs)
    (hroot : other.root = { bed.root with baked := other.root.baked })
    (hprevious : bed.root.previous = none) (hperm : made.Perm made')
    (hnodup : (made.map Visit.position).Nodup) :
    w.nodes.Mirrors w'.nodes (Visit.rename made made') := by
  have hnodup' : (made'.map Visit.position).Nodup := (hperm.map Visit.position).nodup_iff.mp hnodup
  refine ⟨?_, rfl, fun id node hnode => ?_⟩
  · have hsize : w.nodes.size = made.length + 1 := by
      rw [← Arena.length_marks, h.holds.length]
    have hsize' : w'.nodes.size = made'.length + 1 := by
      rw [← Arena.length_marks, h'.holds.length]
    rw [hsize, hsize']
    exact Visit.bijOn_rename (List.Nodup.of_map Visit.position hnodup) hperm
  · have hmark : w.nodes.marks[id]? = some node.mark := by
      rw [Arena.getElem?_marks, hnode, Option.map_some]
    cases id with
    | zero =>
      have heq : node.mark = bed.root := Option.some.inj (hmark.symm.trans h.holds.root)
      obtain ⟨counterpart, hcounterpart, hother⟩ := Arena.exists_of_getElem?_marks h'.holds.root
      have hsame : counterpart.mark = { node.mark with baked := other.root.baked } := by
        rw [hother, heq]
        exact hroot
      have hnone : node.previous = none := (congrArg Mark.previous heq).trans hprevious
      refine ⟨counterpart, hcounterpart, congrArg Mark.symbol hsame, congrArg Mark.name hsame,
        congrArg Mark.ethereal hsame, congrArg Mark.destroyed hsame, ?_⟩
      rw [hnone]
      exact (congrArg Mark.previous hsame).trans hnone
    | succ k =>
      have hlt : k < made.length := by
        obtain ⟨hbound, -⟩ := List.getElem?_eq_some_iff.mp hmark
        rw [h.holds.length] at hbound
        exact Nat.lt_of_succ_lt_succ hbound
      obtain ⟨visit, hvisit⟩ : ∃ visit, made[k]? = some visit := ⟨_, List.getElem?_eq_getElem hlt⟩
      have hvisit' := getElem?_idxOf_of_mem (hperm.mem_iff.mp (List.mem_of_getElem? hvisit))
      obtain ⟨mark, hshown, hshows⟩ := h.holds.node k visit hvisit
      obtain rfl : node.mark = mark := Option.some.inj (hmark.symm.trans hshown)
      obtain ⟨mark', hcounter, hshows'⟩ := h'.holds.node _ visit hvisit'
      obtain ⟨counterpart, hcounterpart, rfl⟩ := Arena.exists_of_getElem?_marks hcounter
      obtain ⟨hsymbol, hname, hethereal, hlink⟩ :=
        hshows.agree hshows' hseed hsigns hperm hnodup'
      have hdestroyed : counterpart.destroyed = node.destroyed :=
        (h'.destroyed_eq hvisit' hcounter).trans
          (hethereal.trans (h.destroyed_eq hvisit hmark).symm)
      rw [← Visit.rename_succ hvisit] at hcounterpart
      exact ⟨counterpart, hcounterpart, hsymbol, hname, hethereal, hdestroyed, hlink⟩

end Grown

/-! ## The same plan -/

/-- A plan with its plant baked or not. -/
def PlantPlan.baking (plan : PlantPlan) (baked : Bool) : PlantPlan :=
  { plan with traits := { plan.traits with baked } }

/-- Baking does not change the seed. -/
theorem PlantPlan.seed_baking (plan : PlantPlan) (baked : Bool) :
    ((plan.baking baked).seed : Except PlanFault (Seed Empty)) = plan.seed := by
  obtain ⟨traits, ⟨entries⟩⟩ := plan
  rfl

theorem PlantPlan.Bracketed.baking {plan : PlantPlan} {opening closing : Char}
    {symbols : List Char} (h : plan.Bracketed opening closing symbols) (baked : Bool) :
    (plan.baking baked).Bracketed opening closing symbols :=
  ⟨h.mode, h.unshared, h.distinct, h.fork, h.unbound, h.others, h.derived, h.proper, h.matched⟩

namespace Garden

variable {plan : PlantPlan} {seed : Seed Empty} {opening closing : Char} {symbols : List Char}

/-- **A bracketed plan grows into the same tree live and baked**: whenever the live garden is idle, the
baked one can be planted, and the nodes of the live one are those of the baked one under other names, and
as many handlers were dispatched. How many, neither the budget nor any other setting decides. -/
theorem live_mirrors_baked (h : plan.Bracketed opening closing symbols) (hok : plan.seed = .ok seed)
    (settings settings' : Settings) :
    ∀ live, Reached (plan.baking false) settings live → live.isIdle = true →
      (∃ limit baked, build limit (plan.baking true) settings' = .ok (some baked)) ∧
      ∀ limit baked, build limit (plan.baking true) settings' = .ok (some baked) →
        (∃ image, live.world.nodes.Mirrors baked.world.nodes image) ∧
          live.world.dispatched = baked.world.dispatched ∧
          live.world.dispatched = symbols.countP (plan.signs opening closing).binds := by
  have hlive : (plan.baking false).seed = .ok seed := by rw [plan.seed_baking, hok]
  have hbaked : (plan.baking true).seed = .ok seed := by rw [plan.seed_baking, hok]
  intro live hreached hidle
  have hbuilds : ∃ limit baked, build limit (plan.baking true) settings' = .ok (some baked) := by
    have hagree : (plan.signs opening closing).Agree seed := h.agree hok
    refine exists_build (h.baking true).tipsEnd (neverHalts_of_bracketed (h.baking true) hbaked ?_) hbaked
    intro symbol hsymbol prototype hfind bounds hmem
    exact narrow_of_idle (h.baking false) hlive hreached hidle symbol hsymbol prototype hfind bounds
      (Handler.mem_bounds_live (fun planted => hagree.ne_seed hfind) hmem)
  refine ⟨hbuilds, fun limit baked hbuild => ?_⟩
  obtain ⟨made, hperm, hgrown⟩ := exists_grown (h.baking false) hlive hreached hidle
  obtain ⟨-, hgrown'⟩ := grown_of_baked (h.baking true) hbaked rfl (Reached.planted hbuild)
  have hwhole := h.whole
  have hnodup : (made.map Visit.position).Nodup :=
    (hperm.map Visit.position).nodup_iff.mpr (Signs.nodup_positions h.regular hwhole none)
  have hlength : made.length = symbols.countP (plan.signs opening closing).binds := by
    have hcount := Signs.length_visits h.regular hwhole none
    rw [List.zipIdx_map_fst] at hcount
    exact hperm.length_eq.trans hcount
  refine ⟨⟨_, hgrown.mirrors hgrown' rfl rfl rfl rfl hperm hnodup⟩, ?_, ?_⟩
  · rw [hgrown.dispatched, hgrown'.dispatched]
    exact hperm.length_eq
  · rw [hgrown.dispatched, hlength]

/-- A plant with a side branch, in which a pause comes before a leaf. -/
def sideShoot : PlantPlan where
  traits := { start := "F[PL]F" }
  handlers := ⟨[('F', .move 1 1), ('P', .pause 5 5), ('L', .leaf none {}), ('[', .fork ']')]⟩

theorem bracketed_sideShoot : sideShoot.Bracketed '[' ']' ['F', '[', 'P', 'L', ']', 'F'] := by
  refine ⟨rfl, rfl, by decide, rfl, rfl, fun symbol handler hfind => ?_, ⟨_, rfl, rfl⟩, by decide,
    by decide⟩
  have hmem := SymbolTable.mem_of_find? hfind
  simp only [sideShoot, List.mem_cons, List.not_mem_nil, or_false, Prod.mk.injEq] at hmem
  rcases hmem with ⟨-, rfl⟩ | ⟨-, rfl⟩ | ⟨-, rfl⟩ | ⟨hsymbol, -⟩
  · exact Or.inr rfl
  · exact Or.inr rfl
  · exact Or.inr rfl
  · exact Or.inl hsymbol

set_option maxRecDepth 4000 in
/-- Live, the plant waits for the pause after four ticks, for the leaf after five, and for nothing after
eight. -/
theorem exists_ticks_sideShoot : ∃ garden paused unfolding live first second third,
    build 20 (sideShoot.baking false) { tickSeconds := 4 } = .ok (some garden) ∧
    ticks 20 4 garden = some (first, paused) ∧ ticks 20 1 paused = some (second, unfolding) ∧
    ticks 20 3 unfolding = some (third, live) ∧
    paused.scheduler.queue.map Continuation.label = ["pause"] ∧
    unfolding.scheduler.queue.map Continuation.label = ["leaf"] ∧ live.isIdle = true :=
  ⟨_, _, _, _, _, _, _, rfl, rfl, rfl, rfl, rfl, rfl, rfl⟩

theorem sideShoot_mirrors : ∃ paused unfolding live baked image,
    (Reached (sideShoot.baking false) { tickSeconds := 4 } paused ∧
      paused.scheduler.queue.map Continuation.label = ["pause"]) ∧
    (Reached (sideShoot.baking false) { tickSeconds := 4 } unfolding ∧
      unfolding.scheduler.queue.map Continuation.label = ["leaf"]) ∧
    Reached (sideShoot.baking false) { tickSeconds := 4 } live ∧ live.isIdle = true ∧
    (∃ limit, build limit (sideShoot.baking true) {} = .ok (some baked)) ∧
    live.world.nodes.Mirrors baked.world.nodes image ∧ live.world.dispatched = 5 := by
  obtain ⟨seed, hseed⟩ : ∃ seed : Seed Empty, sideShoot.seed = .ok seed := ⟨_, rfl⟩
  obtain ⟨garden, paused, unfolding, live, _, _, _, hgarden, hpaused, hunfolding, hlive, hwaits, hleaf,
    hidle⟩ := exists_ticks_sideShoot
  have hfirst := (Reached.planted hgarden).of_ticks hpaused
  have hsecond := hfirst.of_ticks hunfolding
  have hreached := hsecond.of_ticks hlive
  obtain ⟨⟨limit, baked, hbuild⟩, hall⟩ :=
    live_mirrors_baked bracketed_sideShoot hseed { tickSeconds := 4 } {} live hreached hidle
  obtain ⟨⟨image, hmirrors⟩, -, hdispatched⟩ := hall limit baked hbuild
  exact ⟨paused, unfolding, live, baked, image, ⟨hfirst, hwaits⟩, ⟨hsecond, hleaf⟩, hreached, hidle,
    ⟨limit, hbuild⟩, hmirrors, hdispatched⟩

end Garden
end PlantGrowth
