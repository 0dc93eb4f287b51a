import PlantGrowth.Proofs.Iterative
import PlantGrowth.Proofs.Moments
import PlantGrowth.Proofs.Planting
import PlantGrowth.Proofs.Returning
import PlantGrowth.Proofs.Tapering

/-!
# Baked chains of branches

A plan tapers if it is baked, its rules are applied in advance, and its handlers are branches without
tips and handlers that hand their chain on. Its plant is one chain, grown in one go when it is planted:
the chain reads a symbol, a node is made for it and its handler acts there, and then the next symbol is
read, up to the end of the sentence or to a branch that does not grow.

What follows the growth step by step is a `Stem`. At each stage (`Stem.Stage`) some limbs have acted;
these are drawn, each as far as the limbs after it have acted too, and the chain is in one place, with
the dimensions that the next branch begins with. At most one more limb has a node already, at which
nothing is drawn so far. The limbs that have acted and those ahead are always the whole walk, so at the
end the nodes are those of the walk (`Garden.baked_tapers`).
-/

namespace PlantGrowth

/-! ## Nodes -/

/-- The nodes are the root and those of the limbs, in their order, all of them alive and baked, and
nothing waits. -/
structure Limb.Stands (w : World Empty) (limbs : List Limb) : Prop where
  marks : ∃ root, w.nodes.marks.map (fun mark => (mark.symbol, mark.dead, mark.baked)) =
    (root :: limbs.map Limb.symbol).map fun symbol => (symbol, false, true)
  dispatched : w.dispatched = limbs.length
  parked : w.parked.toList = []

/-- The limbs are drawn at their nodes. -/
def Limb.Drawn (w : World Empty) (limbs : List Limb) : Prop :=
  ∀ (k : Nat) (limb : Limb), limbs[k]? = some limb →
    ∃ segment, w.nodes.look Node.segment (k + 1) = some segment ∧
      limb.Draws (limbs.drop (k + 1)) segment

namespace Limb

variable {w later : World Empty} {limbs : List Limb} {limb : Limb} {id : NodeId} {segment : Option Segment}

namespace Stands

theorem size (h : Stands w limbs) : w.nodes.size = limbs.length + 1 := by
  obtain ⟨root, hmarks⟩ := h.marks
  have hlength := congrArg List.length hmarks
  rwa [List.length_map, List.length_map, List.length_cons, List.length_map, Arena.length_marks]
    at hlength

/-- The node of the root or of a limb. -/
theorem exists_node (h : Stands w limbs) (hle : id ≤ limbs.length) :
    ∃ state, w.nodes.get? id = some state ∧ state.dead = false ∧ state.baked = true ∧
      ∀ k limb, id = k + 1 → limbs[k]? = some limb → state.symbol = limb.symbol := by
  obtain ⟨root, hmarks⟩ := h.marks
  have hlt : id < (root :: limbs.map Limb.symbol).length := by
    rw [List.length_cons, List.length_map]
    exact Nat.lt_succ_of_le hle
  have hat := congrArg (·[id]?) hmarks
  simp only [List.getElem?_map, List.getElem?_eq_getElem hlt, Option.map_some] at hat
  obtain ⟨mark, hmark, hfields⟩ := Option.map_eq_some_iff.mp hat
  simp only [Prod.mk.injEq] at hfields
  obtain ⟨hsymbol, hdead, hbaked⟩ := hfields
  obtain ⟨state, hstate, rfl⟩ := Arena.exists_of_getElem?_marks hmark
  refine ⟨state, hstate, hdead, hbaked, fun k limb hk hlimb => hsymbol.trans ?_⟩
  subst hk
  have hnamed : (limbs.map Limb.symbol)[k]? = some limb.symbol := by
    rw [List.getElem?_map, hlimb, Option.map_some]
  rw [List.getElem_cons_succ]
  exact (List.getElem_eq_iff _).mpr hnamed

theorem of_quiet (h : Stands w limbs) (hquiet : w.Quiet later) : Stands later limbs := by
  refine ⟨?_, hquiet.dispatched.trans h.dispatched, ?_⟩
  · rw [hquiet.marks]
    exact h.marks
  · rw [hquiet.parked]
    exact h.parked

/-- The node of the next limb. -/
theorem make (h : Stands w limbs) {draft : NodeDraft} (hsymbol : draft.symbol = limb.symbol)
    (hbaked : draft.baked = true) : Stands (w.make draft) (limbs ++ [limb]) := by
  obtain ⟨root, hmarks⟩ := h.marks
  refine ⟨⟨root, ?_⟩, ?_, h.parked⟩
  · rw [World.marks_make, List.map_append, hmarks, List.map_append, ← List.cons_append, List.map_append,
      List.map_singleton, List.map_singleton, List.map_singleton, NodeDraft.mark, hsymbol, hbaked]
  · rw [List.length_append, List.length_singleton, ← h.dispatched]
    rfl

theorem destroy (h : Stands w limbs) (node : NodeId) : Stands (w.destroy node) limbs := by
  obtain ⟨root, hmarks⟩ := h.marks
  refine ⟨⟨root, ?_⟩, h.dispatched, h.parked⟩
  rw [← hmarks]
  show (w.nodes.destroy node).marks.map _ = _
  rw [Arena.marks_destroy]
  refine List.ext_getElem? fun other => ?_
  rw [List.getElem?_map, List.getElem?_modify, List.getElem?_map]
  split
  · cases w.nodes.marks[other]? <;> rfl
  · cases w.nodes.marks[other]? <;> rfl

end Stands

namespace Drawn

/-- What is drawn stays if no segment changes at the node of a limb. -/
theorem of_look (h : Drawn w limbs) (hlook : ∀ id, id < w.nodes.size → id ≤ limbs.length →
    later.nodes.look Node.segment id = w.nodes.look Node.segment id) : Drawn later limbs := by
  intro k limb hlimb
  obtain ⟨hlt, -⟩ := List.getElem?_eq_some_iff.mp hlimb
  obtain ⟨segment, hsegment, hdraws⟩ := h k limb hlimb
  exact ⟨segment, (hlook _ (Arena.lt_size_of_look hsegment) hlt).trans hsegment, hdraws⟩

/-- One limb more, if it or all before it are bare. -/
theorem concat (h : Drawn w limbs) (hlook : w.nodes.look Node.segment (limbs.length + 1) = some segment)
    (hdraws : limb.Draws [] segment)
    (hbare : limb.grown = none ∨ ∀ other ∈ limbs, other.grown = none) : Drawn w (limbs ++ [limb]) := by
  intro k other hother
  rcases eq_of_getElem?_concat hother with hearlier | ⟨rfl, rfl⟩
  · obtain ⟨hlt, -⟩ := List.getElem?_eq_some_iff.mp hearlier
    obtain ⟨old, hold, hdrawn⟩ := h k other hearlier
    refine ⟨old, hold, ?_⟩
    rw [List.drop_append_of_le_length hlt]
    exact hdrawn.append (hbare.imp_right fun hnone =>
      Or.inl (hnone other (List.mem_of_getElem? hearlier)))
  · refine ⟨segment, hlook, ?_⟩
    rw [List.drop_eq_nil_of_le (by rw [List.length_append, List.length_singleton])]
    exact hdraws

/-- A limb at which nothing grows. -/
theorem append (h : Drawn w limbs) (hlimb : limb.grown = none)
    (hbare : w.nodes.look Node.segment (limbs.length + 1) = some none) : Drawn w (limbs ++ [limb]) := by
  refine h.concat hbare ?_ (Or.inl hlimb)
  rw [Limb.Draws, hlimb]

/-- **A limb that grows gives the last branch before it its top.** -/
theorem crown {j : Nat} {before : Limb} {shape next : BranchShape} {girth thick : Girth}
    (h : Drawn w limbs) (hlook : w.nodes.look Node.segment (limbs.length + 1) = some segment)
    (hdraws : limb.Draws [] segment) (hgrown : limb.grown = some (next, thick))
    (hbefore : limbs[j]? = some before) (hbranch : before.grown = some (shape, girth))
    (hopen : baseRadius? (limbs.drop (j + 1)) = none)
    (hcrown : ∀ id, later.nodes.look Node.segment id =
      if id = j + 1 then (w.nodes.look Node.segment id).map fun segment =>
        segment.map fun old => { old with topRadius := thick.radius * shape.topRadiusFactor }
      else w.nodes.look Node.segment id) : Drawn later (limbs ++ [limb]) := by
  obtain ⟨hlast, -⟩ := List.getElem?_eq_some_iff.mp hbefore
  intro k other hother
  rw [hcrown]
  rcases eq_of_getElem?_concat hother with hearlier | ⟨rfl, rfl⟩
  · obtain ⟨hlt, -⟩ := List.getElem?_eq_some_iff.mp hearlier
    obtain ⟨old, hold, hdrawn⟩ := h k other hearlier
    rw [hold, List.drop_append_of_le_length hlt]
    by_cases heq : k = j
    · -- the branch whose top was still open
      subst heq
      obtain rfl : other = before := Option.some.inj (hearlier.symm.trans hbefore)
      obtain ⟨uncrowned, rfl⟩ := hdrawn.exists_segment hbranch
      have hcrowned := hdrawn.crown hbranch hopen hgrown
      rw [if_pos rfl]
      exact ⟨_, rfl, hcrowned⟩
    · rw [if_neg fun hsame => heq (Nat.succ.inj hsame)]
      refine ⟨old, rfl, hdrawn.append (Or.inr ?_)⟩
      exact Limb.grown_or_closed hbefore hbranch hopen hearlier heq
  · rw [if_neg fun hsame => Nat.ne_of_gt hlast (Nat.succ.inj hsame)]
    refine ⟨segment, hlook, ?_⟩
    rw [List.drop_eq_nil_of_le (by rw [List.length_append, List.length_singleton])]
    exact hdraws

/-- **A limb whose branch is full-grown is drawn.** -/
theorem ripen {growth : Elongation Empty} {last : Option (NodeId × BranchShape)} {core : Core Empty}
    {bundle : Bundle Empty} (h : Drawn w limbs)
    (hbare : w.nodes.look Node.segment (limbs.length + 1) = some none)
    (hgrown : limb.grown = some (growth.shape, growth.girth)) (hnode : growth.node = limbs.length + 1)
    (htip : growth.tip = none) (hwork : growth.work = some { core, bundle }) (hlast : Last limbs last)
    (hcallback : growth.callback =
      last.map fun branch => .topRadius branch.1 branch.2.topRadiusFactor) :
    Drawn (growth.ripen w).1 (limbs ++ [limb]) := by
  obtain ⟨state, hstate, hsegment⟩ := Option.map_eq_some_iff.mp hbare
  rw [← hnode] at hstate
  obtain ⟨measured, hripen, hothers, hown⟩ := growth.ripen_eq htip hwork hstate
  rw [hsegment, hnode] at hown
  rw [hripen]
  have hbefore : Drawn measured limbs := h.of_look fun id _ hle =>
    hothers id fun heq => Nat.not_succ_le_self _ ((heq.trans hnode) ▸ hle)
  have hdraws := Limb.draws_nil hgrown growth.origin growth.direction
  -- the radius is told to the branch that grew last, if there is one
  cases hlast with
  | bare hnone =>
    have hsilent : growth.grown.callback = none := hcallback
    rw [Elongation.tellRadius_of_callback hsilent]
    exact hbefore.concat hown hdraws (Or.inr hnone)
  | @branch j before shape girth hearlier hbranch hopen =>
    have htold : growth.grown.callback = some (.topRadius (j + 1) shape.topRadiusFactor) := hcallback
    exact hbefore.crown hown hdraws hgrown hearlier hbranch hopen
      (Elongation.segment_tellRadius htold measured)

end Drawn
end Limb

/-! ## Where the chain is -/

/-- What is followed while a chain of branches grows: its seed, and which symbols are bound to
branches. -/
structure Stem where
  seed : Seed Empty
  shape? : Char → Option BranchShape

namespace Stem

/-- Is a symbol bound to a handler? -/
def binds (stem : Stem) (symbol : Char) : Bool := (stem.seed.registry.find? symbol).isSome

/-- The seed derives its sentence in advance, and its handlers are branches without tips and handlers
that hand their chain on. -/
structure Proper (stem : Stem) : Prop where
  ceiling : stem.seed.ceiling = 0
  handsOn : ∀ symbol prototype, stem.seed.registry.find? symbol = some prototype →
    stem.shape? symbol = none → ∃ gone, prototype.handler.handsOn? = some gone
  branch : ∀ symbol prototype shape, stem.seed.registry.find? symbol = some prototype →
    stem.shape? symbol = some shape → prototype.handler = .branch shape ∧ shape.tipSymbol = none

/-- The limbs of what is unread of a sentence. -/
def ahead (stem : Stem) (carried : Option Girth) (s : Sentence) : List Limb :=
  Limb.walk stem.shape? carried (s.unread.filter stem.binds)

/-- The sentence of the plant's chain and its bundle, after these limbs. -/
structure Holds (stem : Stem) (acted : List Limb) (carried : Option Girth) (bundle : Bundle Empty)
    (s : Sentence) : Prop where
  follows : bundle.Follows stem.seed
  generation : 0 ≤ bundle.generation
  conveys : bundle.Conveys acted carried
  cursor : -1 ≤ s.cursor
  proper : sentinel ∉ s.unread

/-- A task that looks for the next symbol, and the limbs ahead. -/
inductive Owes (stem : Stem) (acted : List Limb) : Task Empty → List Limb → Prop where
  | advance {node : NodeId} {bundle : Bundle Empty} {s : Sentence} {carried : Option Girth}
      (hle : node ≤ acted.length) (h : stem.Holds acted carried bundle s) :
      Owes stem acted (.advance node { core := stem.seed.core s, bundle } true) (stem.ahead carried s)
  | search {node : NodeId} {bundle : Bundle Empty} {s : Sentence} {carried : Option Girth}
      (hle : node ≤ acted.length) (h : stem.Holds acted carried bundle s) :
      Owes stem acted (.search node { core := stem.seed.core s, bundle } true) (stem.ahead carried s)
  | carryOn {node : NodeId} {bundle : Bundle Empty} {s : Sentence} {carried : Option Girth}
      (hle : node ≤ acted.length) (h : stem.Holds acted carried bundle s) :
      Owes stem acted (.carryOn node { core := stem.seed.core s, bundle }) (stem.ahead carried s)

/-- All that is left to do is to destroy nodes. -/
def Clears (rest : List (Task Empty)) : Prop := ∀ task ∈ rest, ∃ node, task = .destroy node

/-- The chain is at the node of the next limb, where nothing is drawn. -/
structure Reaches (stem : Stem) (w : World Empty) (acted : List Limb) (limb : Limb)
    (bundle : Bundle Empty) (s : Sentence) : Prop where
  stands : Limb.Stands w (acted ++ [limb])
  drawn : Limb.Drawn w acted
  bare : w.nodes.look Node.segment (acted.length + 1) = some none
  holds : stem.Holds acted limb.carried bundle s

/-- A branch grows at the node that the chain is at, and all limbs will be these. -/
structure Grows (stem : Stem) (all : List Limb) (w : World Empty) (acted : List Limb) (limb : Limb)
    (growth : Elongation Empty) (bundle : Bundle Empty) (s : Sentence) : Prop
    extends stem.Reaches w acted limb bundle s where
  grown : limb.grown = some (growth.shape, growth.girth)
  node : growth.node = acted.length + 1
  tip : growth.tip = none
  work : growth.work = some { core := stem.seed.core s, bundle }
  callback : growth.callback = bundle.callback? Key.growLoop
  total : acted ++ limb :: stem.ahead limb.onward s = all

/-- A stage of the growth of these limbs. -/
inductive Stage (stem : Stem) (all : List Limb) (w : World Empty) : List (Task Empty) → Prop where
  /-- The chain is between two limbs. -/
  | seeks {acted owed : List Limb} {task : Task Empty} {rest : List (Task Empty)}
      (stands : Limb.Stands w acted) (drawn : Limb.Drawn w acted) (owes : stem.Owes acted task owed)
      (total : acted ++ owed = all) (clears : Clears rest) : Stage stem all w (task :: rest)
  /-- The handler of the next limb acts at its node. -/
  | acts {acted : List Limb} {limb : Limb} {prototype : Prototype Empty} {bundle : Bundle Empty}
      {s : Sentence} {rest : List (Task Empty)} (reaches : stem.Reaches w acted limb bundle s)
      (find : stem.seed.registry.find? limb.symbol = some prototype)
      (shape : limb.shape = stem.shape? limb.symbol)
      (sentence : bundle.find? Key.sentence = some (.sentence s))
      (total : acted ++ limb :: (if limb.ends then [] else stem.ahead limb.onward s) = all)
      (clears : Clears rest) :
      Stage stem all w (.call prototype.handler (acted.length + 1) bundle true :: rest)
  /-- A branch has no tip that it would carry. -/
  | carriesTip {acted : List Limb} {limb : Limb} {growth : Elongation Empty} {bundle : Bundle Empty}
      {s : Sentence} {rest : List (Task Empty)} (grows : stem.Grows all w acted limb growth bundle s)
      (clears : Clears rest) : Stage stem all w (.carryTip growth :: .ripen growth :: rest)
  /-- A branch grows to its full length. -/
  | ripens {acted : List Limb} {limb : Limb} {growth : Elongation Empty} {bundle : Bundle Empty}
      {s : Sentence} {rest : List (Task Empty)} (grows : stem.Grows all w acted limb growth bundle s)
      (clears : Clears rest) : Stage stem all w (.ripen growth :: rest)
  /-- The chain has come to its end. -/
  | ended {rest : List (Task Empty)} (stands : Limb.Stands w all) (drawn : Limb.Drawn w all)
      (clears : Clears rest) : Stage stem all w rest

/-! ## Steps -/

variable {stem : Stem} {acted owed all : List Limb} {limb : Limb} {carried : Option Girth}
  {bundle later : Bundle Empty} {s : Sentence} {w : World Empty} {node : NodeId} {task : Task Empty}
  {rest : List (Task Empty)}

theorem Holds.follows_core (h : stem.Holds acted carried bundle s) :
    ({ core := stem.seed.core s, bundle } : Chain Empty).Follows stem.seed :=
  Seed.follows_core h.follows s

/-- After a limb at which nothing grows. -/
theorem Holds.append (h : stem.Holds acted limb.carried bundle s) (hlimb : limb.shape = none)
    (hsucceeds : Bundle.Succeeds stem.seed bundle later) (hagrees : bundle.Agrees later) :
    stem.Holds (acted ++ [limb]) limb.onward later s := by
  refine ⟨hsucceeds.follows, ?_, ?_, h.cursor, h.proper⟩
  · rw [hsucceeds.generation]
    exact h.generation
  · rw [Limb.onward_of_shape hlimb]
    exact (h.conveys.append (Limb.grown_of_shape hlimb)).of_agrees hagrees

/-- After a limb whose branch has grown. -/
theorem Holds.handOn {growth : Elongation Empty} (h : stem.Holds acted limb.carried bundle s)
    (hgrown : limb.grown = some (growth.shape, growth.girth)) (hnode : growth.node = acted.length + 1) :
    stem.Holds (acted ++ [limb]) limb.onward (growth.handOn bundle) s := by
  have hsucceeds := growth.succeeds_handOn h.follows.succeeds
  refine ⟨hsucceeds.follows, ?_, Elongation.conveys_handOn hgrown hnode h.follows.tidy, h.cursor,
    h.proper⟩
  rw [hsucceeds.generation]
  exact h.generation

/-- Symbols that the search passes over are no limbs. -/
theorem filter_of_skips {skipped : List Char} (h : Registry.Skips stem.seed.registry skipped) :
    skipped.filter stem.binds = [] := by
  refine List.filter_eq_nil_iff.mpr fun symbol hmem => ?_
  rw [binds, (h symbol hmem).2]
  exact Bool.false_ne_true

/-- **A search comes to the next limb**, whose node is made, or to the end. -/
theorem stage_search (hproper : stem.Proper) (hstands : Limb.Stands w acted)
    (hdrawn : Limb.Drawn w acted) (h : stem.Holds acted carried bundle s) (hle : node ≤ acted.length)
    (htotal : acted ++ stem.ahead carried s = all) (hclears : Clears rest) :
    stem.Stage all (w.search node { core := stem.seed.core s, bundle } true).1
      ((w.search node { core := stem.seed.core s, bundle } true).2 ++ rest) := by
  have hreads := World.reads_search h.follows_core (hproper.ceiling.trans_le h.generation) h.cursor
    h.proper w node true
  generalize w.search node { core := stem.seed.core s, bundle } true = next at hreads ⊢
  cases hreads with
  | done hunread =>
    have hnone : stem.ahead carried s = [] := by
      have hnil : s.unread = [] := hunread
      rw [ahead, hnil]
      rfl
    rw [hnone, List.append_nil] at htotal
    subst htotal
    exact .ended hstands hdrawn hclears
  | @passed later hskips hcursor hunread =>
    have hskips' : Registry.Skips stem.seed.registry s.unread := hskips
    have hnone : stem.ahead carried s = [] := by
      rw [ahead, filter_of_skips hskips']
      rfl
    have hsame : stem.ahead carried later = stem.ahead carried s := by
      rw [hnone, ahead, hunread]
      rfl
    refine .seeks hstands hdrawn (.search hle ⟨h.follows, h.generation, h.conveys, hcursor, ?_⟩)
      (hsame ▸ htotal) hclears
    rw [hunread]
    exact List.not_mem_nil
  | @found skipped symbol prototype later hunread hskips hfind hcursor =>
    have hsplit : s.unread = skipped ++ symbol :: later.unread := hunread
    have hread : sentinel ∉ later.unread := by
      have hproper := h.proper
      rw [hsplit] at hproper
      exact fun hmem => hproper (List.mem_append_right _ (List.mem_cons_of_mem _ hmem))
    have hahead : stem.ahead carried s = ⟨symbol, stem.shape? symbol, carried⟩ ::
        if (⟨symbol, stem.shape? symbol, carried⟩ : Limb).ends then []
        else stem.ahead (⟨symbol, stem.shape? symbol, carried⟩ : Limb).onward later := by
      have hbinds : stem.binds symbol = true := by
        rw [binds, hfind]
        rfl
      rw [ahead, hsplit, List.filter_append, filter_of_skips hskips, List.nil_append,
        List.filter_cons_of_pos hbinds]
      rfl
    obtain ⟨hlater, hsentence⟩ := h.follows.dispatch later
    rw [World.dispatch_eq h.follows.tidy, Bool.true_or, hstands.size]
    refine .acts ⟨hstands.make rfl rfl, ?_, ?_, ?_⟩ hfind rfl hsentence (hahead ▸ htotal) hclears
    · exact hdrawn.of_look fun id hlt _ => Arena.look_addNode Node.draws_segment _ hlt
    · have hbare := w.nodes.segment_addNode
        (prototype.draft symbol (w.nodes.nearestAnchor node) true)
      rw [hstands.size] at hbare
      exact hbare
    · have hagrees : bundle.Agrees (bundle.write Key.sentence (.sentence later)) :=
        (Bundle.Agrees.refl bundle).write (by decide) _
      refine ⟨hlater.follows, ?_, h.conveys.of_agrees hagrees, by omega, hread⟩
      rw [hlater.generation]
      exact h.generation

/-- A chain that looks for the next symbol goes on to do so. -/
theorem Owes.perform (hproper : stem.Proper) (hstands : Limb.Stands w acted)
    (hdrawn : Limb.Drawn w acted) (h : stem.Owes acted task owed) (htotal : acted ++ owed = all)
    (hclears : Clears rest) :
    stem.Stage all (w.perform task).1 ((w.perform task).2 ++ rest) := by
  cases h with
  | @advance node bundle s carried hle h =>
    obtain ⟨state, hnode, halive, -, -⟩ := hstands.exists_node hle
    have heq : w.perform (.advance node { core := stem.seed.core s, bundle } true) =
        (w, [.search node { core := stem.seed.core s, bundle } true]) :=
      World.advance_eq hnode halive _ true
    rw [heq]
    exact .seeks hstands hdrawn (.search hle h) htotal hclears
  | @search node bundle s carried hle h =>
    exact stage_search hproper hstands hdrawn h hle htotal hclears
  | @carryOn node bundle s carried hle h =>
    obtain ⟨state, hnode, -, hbaked, -⟩ := hstands.exists_node hle
    have heq : w.perform (.carryOn node { core := stem.seed.core s, bundle }) =
        (w, [.advance node { core := stem.seed.core s, bundle } true]) := by
      show w.carryOn _ _ = _
      rw [World.carryOn_eq hnode, hbaked, if_pos rfl]
    rw [heq]
    exact .seeks hstands hdrawn (.advance hle h) htotal hclears

/-- The node that the chain is at. -/
theorem Reaches.exists_node (h : stem.Reaches w acted limb bundle s) :
    ∃ state, w.nodes.get? (acted.length + 1) = some state := by
  have hle : acted.length + 1 ≤ (acted ++ [limb]).length := by
    rw [List.length_append, List.length_singleton]
  obtain ⟨state, hnode, -⟩ := h.stands.exists_node hle
  exact ⟨state, hnode⟩

/-- A world in which the segments are the same. -/
theorem Reaches.of_quiet (h : stem.Reaches w acted limb bundle s) {after : World Empty}
    (hquiet : w.Quiet after) (hlook : ∀ id, id < w.nodes.size →
      after.nodes.look Node.segment id = w.nodes.look Node.segment id) :
    stem.Reaches after acted limb bundle s :=
  ⟨h.stands.of_quiet hquiet, h.drawn.of_look fun id hlt _ => hlook id hlt,
    (hlook _ (Arena.lt_size_of_look h.bare)).trans h.bare, h.holds⟩

/-- A limb at which nothing has grown is drawn. -/
theorem Reaches.drawn_append (h : stem.Reaches w acted limb bundle s) (hlimb : limb.grown = none) :
    Limb.Drawn w (acted ++ [limb]) := h.drawn.append hlimb h.bare

/-- **Between two branches** the chain is handed on, and nothing is drawn. -/
theorem Reaches.stage_handsOn {handler : Handler Empty} {gone : Bool}
    (h : stem.Reaches w acted limb bundle s) (hhandler : handler.handsOn? = some gone)
    (hshape : limb.shape = none) (hsentence : bundle.find? Key.sentence = some (.sentence s))
    (htotal : acted ++ limb :: stem.ahead limb.onward s = all) (hclears : Clears rest) :
    stem.Stage all (w.perform (.call handler (acted.length + 1) bundle true)).1
      ((w.perform (.call handler (acted.length + 1) bundle true)).2 ++ rest) := by
  obtain ⟨state, hnode⟩ := h.exists_node
  have hagrees := Handler.agrees_call hhandler w (acted.length + 1) bundle true
  have hlook (id : NodeId) (hlt : id < w.nodes.size) :
      (handler.call w (acted.length + 1) bundle true).2.world.nodes.look Node.segment id =
        w.nodes.look Node.segment id :=
    Handler.look_call Node.draws_segment handler _ bundle true hlt (Or.inr fun _ _ => rfl)
  show stem.Stage all (handler.call w (acted.length + 1) bundle true).2.world
    ((handler.call w (acted.length + 1) bundle true).2.allTasks ++ rest)
  obtain ⟨hquiet, ⟨later, hsucceeds, hnone, htasks⟩ | ⟨hlive, -⟩⟩ :=
    Handler.handsOn_call hhandler h.holds.follows hsentence (Arena.contains_of_get? hnode) true
  · have hlater := hagrees (acted.length + 1) { core := stem.seed.core s, bundle := later }
      (by rw [htasks]; exact List.mem_cons_self)
    have hreaches := h.of_quiet hquiet hlook
    have hall : (handler.call w (acted.length + 1) bundle true).2.allTasks ++ rest =
        .carryOn (acted.length + 1) { core := stem.seed.core s, bundle := later } ::
          (Task.passing gone (acted.length + 1) ++ rest) := by
      rw [Effect.allTasks, hnone]
      simp only [htasks]
      rfl
    rw [hall]
    refine .seeks hreaches.stands (hreaches.drawn_append (Limb.grown_of_shape hshape))
      (.carryOn ?_ (h.holds.append hshape hsucceeds hlater)) ?_ ?_
    · rw [List.length_append, List.length_singleton]
    · rw [List.append_assoc]
      exact htotal
    · intro task hmem
      rcases List.mem_append.mp hmem with hmem | hmem
      · cases gone with
        | true => exact ⟨_, List.mem_singleton.mp hmem⟩
        | false => cases hmem
      · exact hclears task hmem
  · cases hlive

/-- **A branch grows**, or the chain ends at it. -/
theorem Reaches.stage_branch {shape : BranchShape} (h : stem.Reaches w acted limb bundle s)
    (hshape : limb.shape = some shape) (htip : shape.tipSymbol = none)
    (hsentence : bundle.find? Key.sentence = some (.sentence s))
    (htotal : acted ++ limb :: (if limb.ends then [] else stem.ahead limb.onward s) = all)
    (hclears : Clears rest) :
    stem.Stage all (w.perform (.call (.branch shape) (acted.length + 1) bundle true)).1
      ((w.perform (.call (.branch shape) (acted.length + 1) bundle true)).2 ++ rest) := by
  obtain ⟨state, hnode⟩ := h.exists_node
  obtain ⟨heading, hheading⟩ := h.holds.follows.heading
  show stem.Stage all (w.branch shape (acted.length + 1) bundle true).world
    ((w.branch shape (acted.length + 1) bundle true).allTasks ++ rest)
  rcases World.branch_of_carries (h.holds.follows.core_eq hsentence)
    (Bundle.vec3?_of_find? hheading) hnode htip hshape h.holds.conveys.carries with
    ⟨hnone, heffect⟩ | ⟨growth, hgrown, hgrowing, htipless, hwork, hcallback, heffect⟩
  · have hends : limb.ends = true := by
      rw [Limb.ends, hnone, hshape]
      rfl
    rw [hends, if_pos rfl] at htotal
    subst htotal
    rw [heffect]
    exact .ended h.stands (h.drawn_append hnone) hclears
  · have hends : limb.ends = false := by
      rw [Limb.ends, hgrown]
      exact Bool.and_false _
    rw [hends, if_neg Bool.false_ne_true] at htotal
    have hreaches : stem.Reaches (w.mapNodes (·.place (acted.length + 1) (·.face heading))) acted
        limb bundle s := h.of_quiet (World.Quiet.place w _ _) fun id _ =>
      congrFun (Arena.look_place Node.draws_segment w.nodes _ _) id
    rw [heffect]
    exact .carriesTip ⟨hreaches, hgrown, hgrowing, htipless, hwork, hcallback, htotal⟩ hclears

/-- **A branch that is full-grown hands the chain on.** -/
theorem Grows.stage_ripen {growth : Elongation Empty} (h : stem.Grows all w acted limb growth bundle s)
    (hclears : Clears rest) :
    stem.Stage all (w.perform (.ripen growth)).1 ((w.perform (.ripen growth)).2 ++ rest) := by
  obtain ⟨last, hlast, hcallback⟩ := h.holds.conveys.callback
  obtain ⟨state, hstate⟩ := h.exists_node
  obtain ⟨measured, hripen, -, -⟩ := growth.ripen_eq h.tip h.work (h.node ▸ hstate)
  have htasks : (growth.ripen w).2 =
      [.carryOn growth.node { core := stem.seed.core s, bundle := growth.handOn bundle }] := by
    rw [hripen]
  show stem.Stage all (growth.ripen w).1 ((growth.ripen w).2 ++ rest)
  rw [htasks]
  refine .seeks (h.stands.of_quiet (growth.quiet_ripen w)) ?_
    (.carryOn ?_ (h.holds.handOn h.grown h.node)) ?_ hclears
  · exact h.drawn.ripen h.bare h.grown h.node h.tip h.work hlast (h.callback.trans hcallback)
  · rw [h.node, List.length_append, List.length_singleton]
  · rw [List.append_assoc]
    exact h.total

/-- **Every task leads to the next stage.** -/
theorem Stage.perform (hproper : stem.Proper) (h : stem.Stage all w (task :: rest)) :
    stem.Stage all (w.perform task).1 ((w.perform task).2 ++ rest) := by
  cases h with
  | seeks hstands hdrawn howes htotal hclears =>
    exact howes.perform hproper hstands hdrawn htotal hclears
  | @acts acted limb prototype bundle s _ hreaches hfind hshape hsentence htotal hclears =>
    cases hbound : stem.shape? limb.symbol with
    | none =>
      obtain ⟨gone, hhandler⟩ := hproper.handsOn limb.symbol prototype hfind hbound
      have hnone := hshape.trans hbound
      rw [Limb.ends_of_shape hnone, if_neg Bool.false_ne_true] at htotal
      exact hreaches.stage_handsOn hhandler hnone hsentence htotal hclears
    | some shape =>
      obtain ⟨hhandler, htip⟩ := hproper.branch limb.symbol prototype shape hfind hbound
      rw [hhandler]
      exact hreaches.stage_branch (hshape.trans hbound) htip hsentence htotal hclears
  | @carriesTip acted limb growth bundle s _ hgrows hclears =>
    have heq : w.perform (.carryTip growth) = (w, []) := by
      show (growth.carryTip w, []) = _
      rw [Elongation.carryTip, hgrows.tip]
    rw [heq]
    exact .ripens hgrows hclears
  | ripens hgrows hclears => exact hgrows.stage_ripen hclears
  | ended hstands hdrawn hclears =>
    obtain ⟨⟨node, rfl⟩, hrest⟩ := List.forall_mem_cons.mp hclears
    refine .ended (hstands.destroy node) (hdrawn.of_look fun id _ _ => ?_) hrest
    exact congrFun (Arena.look_destroy Node.draws_segment w.nodes node) id

/-- When nothing is left to do, all limbs are there and drawn. -/
theorem Stage.of_nil (h : stem.Stage all w []) : Limb.Stands w all ∧ Limb.Drawn w all := by
  generalize htasks : ([] : List (Task Empty)) = tasks at h
  cases h with
  | ended hstands hdrawn _ => exact ⟨hstands, hdrawn⟩
  | _ => cases htasks

/-- A call that is made next is that of the handler of a limb, with the dimensions that are carried
there. It bakes. -/
theorem Stage.acts_of_call {handler : Handler Empty} {baked : Bool}
    (h : stem.Stage all w (.call handler node bundle baked :: rest)) :
    (∃ (k : Nat) (limb : Limb), node = k + 1 ∧ all[k]? = some limb ∧
      (stem.seed.registry.find? limb.symbol).map Prototype.handler = some handler ∧
      bundle.Carries limb.carried) ∧ baked = true := by
  generalize htasks : Task.call handler node bundle baked :: rest = tasks at h
  cases h with
  | seeks _ _ howes _ _ =>
    obtain ⟨rfl, -⟩ := List.cons.inj htasks
    cases howes
  | @acts acted limb prototype _ _ _ hreaches hfind _ _ htotal _ =>
    obtain ⟨hcall, -⟩ := List.cons.inj htasks
    cases hcall
    refine ⟨⟨acted.length, limb, rfl, ?_, ?_, hreaches.holds.conveys.carries⟩, rfl⟩
    · rw [← htotal, List.getElem?_append_right (Nat.le_refl _), Nat.sub_self]
      rfl
    · rw [hfind]
      rfl
  | carriesTip _ _ => cases htasks
  | ripens _ _ => cases htasks
  | ended _ _ hclears =>
    subst htasks
    obtain ⟨_, hcall⟩ := hclears _ List.mem_cons_self
    cases hcall

end Stem

/-! ## Plans -/

namespace PlantPlan

/-- The shape of the branch that a symbol is bound to. -/
def shape? (plan : PlantPlan) (symbol : Char) : Option BranchShape :=
  match plan.handlers.find? symbol with
  | some (.branch shape) => some shape
  | _ => none

/-- The limbs of a plan whose sentence is this one: of its bound symbols, up to the end of the chain. -/
def limbs (plan : PlantPlan) (symbols : List Char) : List Limb :=
  Limb.walk plan.shape? none (symbols.filter plan.binds)

/-- The plan is baked and its rules are applied in advance. Its handlers are branches without tips and
handlers that hand their chain on. -/
structure Tapering (plan : PlantPlan) (symbols : List Char) : Prop where
  mode : plan.traits.mode = .inAdvance
  baked : plan.traits.baked = true
  unshared : plan.traits.prefab = none
  handlers : ∀ symbol handler, plan.handlers.find? symbol = some handler →
    handler.handsOn = true ∨ ∃ shape, handler = .branch shape ∧ shape.tipSymbol = none
  derived : ∃ rules, plan.traits.readRules = .ok rules ∧
    symbols = (rules.generation plan.traits.iterations.toNat
      (Sentence.ofString plan.traits.start)).symbols
  proper : sentinel ∉ symbols

/-- What is followed while a plan of branches grows. -/
def stem (plan : PlantPlan) (seed : Seed Empty) : Stem where
  seed
  shape? := plan.shape?

variable {plan : PlantPlan} {symbols : List Char} {symbol : Char} {handler : HandlerPlan}
  {seed : Seed Empty}

theorem shape?_of_handsOn (hfind : plan.handlers.find? symbol = some handler)
    (hhands : handler.handsOn = true) : plan.shape? symbol = none := by
  rw [shape?, hfind]
  cases handler with
  | branch shape => cases hhands
  | _ => rfl

namespace Tapering

theorem ne_seed (h : plan.Tapering symbols) (hfind : plan.handlers.find? symbol = some handler)
    (inner : PlantPlan) : handler ≠ .seed inner := by
  rintro rfl
  rcases h.handlers symbol _ hfind with hhands | ⟨shape, hshape, -⟩
  · cases hhands
  · cases hshape

/-- No branch has a tip. -/
theorem tipsEnd (h : plan.Tapering symbols) : plan.TipsEnd := by
  refine TipsEnd.of_untipped (fun symbol => ?_) fun symbol inner hfind =>
    absurd rfl (h.ne_seed hfind inner)
  rw [tipOf?]
  split
  next shape hfind =>
    rcases h.handlers symbol _ hfind with hhands | ⟨other, hother, htip⟩
    · cases hhands
    · cases hother
      exact htip
  next => rfl

/-- **The seed of such a plan grows a chain of branches.** -/
theorem proper_stem (h : plan.Tapering symbols) (hok : plan.seed = .ok seed) :
    (plan.stem seed).Proper := by
  refine ⟨ceiling_of_inAdvance hok h.mode, fun symbol prototype hfind hnone => ?_,
    fun symbol prototype shape hfind hshape => ?_⟩
  · obtain ⟨handler, hplan, hmade⟩ := exists_of_find? hok hfind
    rcases h.handlers symbol handler hplan with hhands | ⟨shape, rfl, -⟩
    · exact ⟨_, (HandlerPlan.yields_of_prototype hmade (h.ne_seed hplan)).handsOn hhands⟩
    · have hsome : plan.shape? symbol = some shape := by
        rw [shape?, hplan]
      cases hsome.symm.trans hnone
  · obtain ⟨handler, hplan, hmade⟩ := exists_of_find? hok hfind
    have hbound : plan.shape? symbol = some shape := hshape
    rcases h.handlers symbol handler hplan with hhands | ⟨other, rfl, htip⟩
    · cases (shape?_of_handsOn hplan hhands).symm.trans hbound
    · rw [shape?, hplan] at hbound
      cases hbound
      cases hmade
      exact ⟨rfl, htip⟩

/-- At the start all limbs are ahead of the chain that begins at the root. -/
theorem stage_seedbed (h : plan.Tapering symbols) (hok : plan.seed = .ok seed) (settings : Settings)
    (position : Vec3) :
    (plan.stem seed).Stage (plan.limbs symbols) (Garden.seedbed plan settings)
      [.carryOn 0 (seed.chain position .empty)] := by
  have hunread : seed.grammar.1.unread = symbols := by
    rw [Sentence.unread_of_cursor_eq seed.cursor_grammar, symbols_of_inAdvance hok h.mode h.derived]
  have hahead : (plan.stem seed).ahead none seed.grammar.1 = plan.limbs symbols := by
    have hbinds : (plan.stem seed).binds = plan.binds := funext (isSome_find?_seed hok)
    rw [Stem.ahead, hunread, hbinds]
    rfl
  have hstands : Limb.Stands (Garden.seedbed plan settings) [] := by
    refine ⟨⟨plan.traits.root.symbol, ?_⟩, rfl, rfl⟩
    rw [Garden.marks_seedbed]
    show [(plan.traits.root.symbol, false, plan.traits.baked)] = _
    rw [h.baked]
    rfl
  have hholds : (plan.stem seed).Holds [] none (seed.chain position .empty).bundle seed.grammar.1 := by
    refine ⟨(Seed.follows_chain Bundle.tidy_empty).bundle, ?_, Bundle.conveys_chain position,
      Int.le_of_eq seed.cursor_grammar.symm, ?_⟩
    · exact Int.le_of_eq (Seed.generation_chain Bundle.tidy_empty).symm
    · rw [hunread]
      exact h.proper
  refine .seeks hstands (fun k limb hlimb => (by cases hlimb)) (.carryOn (Nat.le_refl 0) hholds) hahead
    fun task hmem => (by cases hmem)

end Tapering
end PlantPlan

/-! ## Gardens -/

namespace Garden

/-- The nodes after the root are those of the limbs, each with its drawing. -/
structure HasGrown (garden : Garden) (limbs : List Limb) : Prop where
  size : garden.world.nodes.size = limbs.length + 1
  dispatched : garden.world.dispatched = limbs.length
  drawn : ∀ (k : Nat) (limb : Limb), limbs[k]? = some limb →
    ∃ state, garden.world.nodes.get? (k + 1) = some state ∧ state.symbol = limb.symbol ∧
      limb.Draws (limbs.drop (k + 1)) state.segment

variable {plan : PlantPlan} {symbols : List Char} {seed : Seed Empty} {settings : Settings}
  {garden : Garden} {m : Moment}

/-- A stage of the growth of a plan of branches: the root has not been called yet, or the chain is on
its way. Nothing waits. -/
def Tapers (plan : PlantPlan) (settings : Settings) (seed : Seed Empty) (symbols : List Char)
    (w : World Empty) (tasks : List (Task Empty)) (waiting : List (Continuation Empty)) : Prop :=
  ((plan.stem seed).Stage (plan.limbs symbols) w tasks ∨
    w = seedbed plan settings ∧ tasks = [rootTask plan seed]) ∧ waiting = []

/-- **Every step of growth keeps the chain on its way.** -/
theorem tapers_invariant (h : plan.Tapering symbols) (hok : plan.seed = .ok seed) (settings : Settings) :
    Invariant (Tapers plan settings seed symbols) where
  perform := by
    rintro w task rest waiting ⟨hstage | ⟨rfl, htasks⟩, rfl⟩
    · exact ⟨Or.inl (hstage.perform (h.proper_stem hok)), rfl⟩
    · cases htasks
      obtain ⟨position, hroot⟩ := perform_rootTask hok h.unshared settings
      rw [hroot]
      exact ⟨Or.inl (h.stage_seedbed hok settings position), rfl⟩
  resume := by
    rintro w work waiting ⟨-, hwaiting⟩
    cases hwaiting
  reorder := by
    rintro w tasks waiting other hperm ⟨hstage, rfl⟩
    exact ⟨hstage, hperm.symm.eq_nil⟩
  unpark := by
    rintro w waiting ⟨hstage | ⟨-, htasks⟩, rfl⟩
    · obtain ⟨hstands, hdrawn⟩ := hstage.of_nil
      exact ⟨Or.inl (.ended ⟨hstands.marks, hstands.dispatched, rfl⟩ hdrawn
        fun task hmem => (by cases hmem)), hstands.parked⟩
    · cases htasks
  elapse := by
    rintro w waiting seconds ⟨hstage | ⟨-, htasks⟩, rfl⟩
    · obtain ⟨hstands, hdrawn⟩ := hstage.of_nil
      exact ⟨Or.inl (.ended ⟨hstands.marks, hstands.dispatched, hstands.parked⟩ hdrawn
        fun task hmem => (by cases hmem)), rfl⟩
    · cases htasks

theorem tapers_of_leads (h : plan.Tapering symbols) (hok : plan.seed = .ok seed)
    (hm : (Moment.start plan seed settings).Leads m) :
    Tapers plan settings seed symbols m.world m.tasks m.waiting :=
  (tapers_invariant h hok settings).of_leads hm ⟨Or.inr ⟨rfl, rfl⟩, rfl⟩

/-- A garden is idle, and has grown all limbs. -/
theorem hasGrown_of_reached (h : plan.Tapering symbols) (hok : plan.seed = .ok seed)
    (hreached : Reached plan settings garden) :
    garden.isIdle = true ∧ garden.HasGrown (plan.limbs symbols) := by
  obtain ⟨hstage | ⟨-, htasks⟩, hqueue⟩ := tapers_of_leads h hok (hreached.leads hok)
  · obtain ⟨hstands, hdrawn⟩ := hstage.of_nil
    refine ⟨isIdle_iff.mpr (List.append_eq_nil_iff.mpr ⟨hqueue, hstands.parked⟩), hstands.size,
      hstands.dispatched, fun k limb hlimb => ?_⟩
    obtain ⟨hlt, -⟩ := List.getElem?_eq_some_iff.mp hlimb
    obtain ⟨state, hstate, -, -, hsymbol⟩ := hstands.exists_node (Nat.succ_le_of_lt hlt)
    obtain ⟨segment, hsegment, hdraws⟩ := hdrawn k limb hlimb
    refine ⟨state, hstate, hsymbol k limb rfl hlimb, ?_⟩
    rw [Arena.look_of_get? hstate] at hsegment
    rw [Option.some.inj hsegment]
    exact hdraws
  · cases htasks

/-- **Nothing halts in the garden of a plan of branches whose limbs are all of narrow symbols.** -/
theorem neverHalts_of_tapering (h : plan.Tapering symbols) (hok : plan.seed = .ok seed)
    (hnarrow : ∀ limb ∈ plan.limbs symbols, seed.Narrow true limb.symbol) :
    NeverHalts plan settings := by
  refine neverHalts_of_calls hok h.unshared (by rw [PlantPlan.ceiling_of_inAdvance hok h.mode]; decide)
    ?_ ?_
  · intro symbol prototype hfind planted hplanted
    obtain ⟨handler, hplan, hmakes⟩ := PlantPlan.makes_of_find? hok hfind
    rw [hplanted] at hmakes
    cases hmakes with
    | @seed plant _ _ => exact h.ne_seed hplan plant rfl
  · intro w handler node bundle baked rest hunderway
    have hstart : ∀ other, plan.seed = .ok other →
        Tapers plan settings seed symbols (seedbed plan settings) [rootTask plan other] [] := by
      intro other hother
      obtain rfl : seed = other := Except.ok.inj (hok.symm.trans hother)
      exact ⟨Or.inr ⟨rfl, rfl⟩, rfl⟩
    obtain ⟨waiting, hstage | ⟨hworld, htasks⟩, -⟩ :=
      (tapers_invariant h hok settings).of_underway hstart hunderway
    · obtain ⟨⟨k, limb, -, hlimb, hhandler, -⟩, rfl⟩ := hstage.acts_of_call
      obtain ⟨prototype, hfind, rfl⟩ := Option.map_eq_some_iff.mp hhandler
      exact Or.inr (hnarrow limb (List.mem_of_getElem? hlimb) prototype hfind)
    · exact Or.inl ⟨hworld, (List.cons.inj htasks).1⟩

/-- **A baked plant of branches is drawn as its limbs say.** It can be planted if the symbols of its limbs
are narrow. It is grown when it is planted, and then nothing waits. The nodes after the root are those of
the bound symbols, up to a branch that is too short or too thin for its shape, at which nothing is drawn.
Every branch before it has the radius that is carried to it at its base, and the radius of the next one at
its top, each times a factor of its own shape. No handler ever acts but the root's and those of the limbs,
each with the dimensions that are carried to it. -/
theorem baked_tapers (h : plan.Tapering symbols) (hok : plan.seed = .ok seed) (settings : Settings) :
    ((∀ limb ∈ plan.limbs symbols, seed.Narrow true limb.symbol) →
      ∃ limit garden, build limit plan settings = .ok (some garden)) ∧
    (∀ garden, Reached plan settings garden →
      garden.isIdle = true ∧ garden.HasGrown (plan.limbs symbols)) ∧
    (∀ m, (Moment.start plan seed settings).Leads m →
      ∀ handler node bundle baked rest, m.tasks = .call handler node bundle baked :: rest →
        m = Moment.start plan seed settings ∨
          ∃ (k : Nat) (limb : Limb), node = k + 1 ∧ (plan.limbs symbols)[k]? = some limb ∧
            (seed.registry.find? limb.symbol).map Prototype.handler = some handler ∧
            bundle.Carries limb.carried) ∧
    ∀ (k : Nat) (limb : Limb), (plan.limbs symbols)[k]? = some limb → limb.ends = true →
      k + 1 = (plan.limbs symbols).length := by
  refine ⟨fun hnarrow => exists_build h.tipsEnd (neverHalts_of_tapering h hok hnarrow) hok,
    fun garden hreached => hasGrown_of_reached h hok hreached, ?_,
    fun k limb hlimb hends => Limb.eq_length_of_ends hlimb hends⟩
  rintro ⟨w, tasks, waiting⟩ hm handler node bundle baked rest htasks
  obtain rfl : tasks = _ := htasks
  obtain ⟨hstage | ⟨hworld, hroot⟩, hwaiting⟩ := tapers_of_leads h hok hm
  · exact Or.inr hstage.acts_of_call.1
  · exact Or.inl (by rw [Moment.start, ← hworld, ← hroot, ← hwaiting])

/-- A plant of three branches with a turn and a leaf between the first two. The third branch is too thin
to grow, so the pause after it is never reached. -/
def bramble : PlantPlan where
  traits := { start := "FRLFFP", baked := true, mode := .inAdvance }
  handlers := ⟨[('F', .branch { radiusFactor := 0.5, topRadiusFactor := 0.5, radiusCutoff := 0.3 }),
    ('R', .turnHeading { x := 0, y := 1, z := 0 } 1 1), ('L', .leaf none {}), ('P', .pause 1 1)]⟩

theorem tapering_bramble : bramble.Tapering "FRLFFP".toList := by
  refine ⟨rfl, rfl, rfl, fun symbol handler hfind => ?_, ⟨_, rfl, by decide⟩, by decide⟩
  have hmem := SymbolTable.mem_of_find? hfind
  simp only [bramble, List.mem_cons, List.not_mem_nil, or_false, Prod.mk.injEq] at hmem
  rcases hmem with ⟨-, rfl⟩ | ⟨-, rfl⟩ | ⟨-, rfl⟩ | ⟨-, rfl⟩
  · exact Or.inr ⟨_, rfl, rfl⟩
  · exact Or.inl rfl
  · exact Or.inl rfl
  · exact Or.inl rfl

/-- Two branches grow. The second one is half as thick at its base as the first one, and the top of the
first one is half of that. -/
theorem bramble_tapers : ∃ (seed : Seed Empty) (limit : Nat) (garden : Garden),
    bramble.seed = .ok seed ∧ build limit bramble {} = .ok (some garden) ∧ garden.isIdle = true ∧
      garden.HasGrown (bramble.limbs "FRLFFP".toList) ∧
      (bramble.limbs "FRLFFP".toList).map (fun limb =>
        (limb.symbol, limb.ends, limb.grown.map fun branch => branch.2.radius)) =
        [('F', false, some 1), ('R', false, none), ('L', false, none), ('F', false, some 0.5),
          ('F', true, none)] ∧
      (garden.world.nodes.look Node.segment 1).map (·.map Segment.topRadius) = some (some 0.25) := by
  obtain ⟨seed, hseed, hnarrow⟩ : ∃ seed : Seed Empty, bramble.seed = .ok seed ∧
      ∀ entry ∈ seed.registry.entries, ∀ bounds ∈ entry.2.handler.bounds true, bounds.far = false :=
    ⟨_, rfl, by decide +kernel⟩
  obtain ⟨hplanted, hall, -⟩ := baked_tapers tapering_bramble hseed {}
  obtain ⟨limit, garden, hbuild⟩ := hplanted fun limb _ => Seed.narrow_of_entries hnarrow limb.symbol
  obtain ⟨hidle, hgrown⟩ := hall garden (Reached.planted hbuild)
  refine ⟨seed, limit, garden, hseed, hbuild, hidle, hgrown, by rfl, ?_⟩
  obtain ⟨state, hstate, -, origin, direction, hsegment⟩ := hgrown.drawn 0 _ rfl
  rw [Arena.look_of_get? hstate, hsegment]
  rfl

/-- A baked plant of a branch behind a move, of any distance in any direction. -/
def tumbleweed : PlantPlan where
  traits := { start := "TF", baked := true }
  handlers := ⟨[('T', .move (-huge) huge), ('F', .branch {})]⟩

/-- **The plan is one of branches and has no faults, and it is never planted.** -/
theorem build_tumbleweed : tumbleweed.Tapering ['T', 'F'] ∧
    (∃ seed : Seed Empty, tumbleweed.seed = .ok seed) ∧
      ∀ limit settings, build limit tumbleweed settings = .ok none := by
  obtain ⟨seed, hseed, hfind, hunread⟩ : ∃ seed : Seed Empty, tumbleweed.seed = .ok seed ∧
      seed.registry.find? 'T' = some (.named "translate" (.move (-huge) huge)) ∧
      seed.grammar.1.unread = ['T', 'F'] := ⟨_, rfl, rfl, by decide⟩
  refine ⟨⟨rfl, rfl, rfl, fun symbol handler hfind => ?_, ⟨_, rfl, by decide⟩, by decide⟩,
    ⟨seed, hseed⟩, fun limit settings => ?_⟩
  · rcases List.mem_pair.mp (SymbolTable.mem_of_find? hfind) with heq | heq
    · cases heq
      exact Or.inl rfl
    · cases heq
      exact Or.inr ⟨_, rfl, rfl⟩
  · exact build_of_far hseed rfl rfl hunread (by decide) hfind (fun planted heq => by cases heq)
      ⟨_, List.mem_singleton.mpr rfl, by decide +kernel⟩ limit settings

end Garden
end PlantGrowth
