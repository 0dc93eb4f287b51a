import PlantGrowth.Proofs.Growing
import Mathlib.Data.List.Nodup

/-!
# Baked bracketed plants

A baked bracketed plant is grown as soon as it is planted, and its nodes are the walk over its
sentence: one node for every bound symbol, in the order of the walk, each below the nearest solid
node before it on its own path. It can be planted exactly if numbers can be drawn from the ranges of all
symbols of the sentence (`Garden.baked_walks`).
-/

namespace PlantGrowth

/-- The node that the walk over a sentence makes at an anchor. The root comes first. -/
def Signs.nodeAt (signs : Signs) (symbols : List Char) : Option Nat → NodeId
  | none => 0
  | some position => ((signs.walk symbols.zipIdx).map Prod.snd).idxOf position + 1

/-- The garden is the walk over a sentence. -/
structure Signs.Walked (signs : Signs) (symbols : List Char) (garden : Garden) : Prop where
  /-- Nothing is left to do. -/
  idle : garden.isIdle = true
  /-- The walk visits every bound symbol once. -/
  visited : (signs.walk symbols.zipIdx).Perm
    (symbols.zipIdx.filter fun entry => signs.binds entry.1)
  root : ∃ node, garden.world.nodes.get? 0 = some node ∧ node.previous = none
  /-- After the root there is one node for each visit. -/
  size : garden.world.nodes.size = (signs.walk symbols.zipIdx).length + 1
  /-- The nodes carry the symbols of the walk, in its order, and hang on the nodes of their anchors.
  -/
  node : ∀ k symbol position, (signs.walk symbols.zipIdx)[k]? = some (symbol, position) →
    ∃ node anchor, garden.world.nodes.get? (k + 1) = some node ∧ node.symbol = symbol ∧
      node.ethereal = !signs.solid symbol ∧ signs.Anchors symbols position anchor ∧
      node.previous = some (signs.nodeAt symbols anchor)
  dispatched : garden.world.dispatched = symbols.countP signs.binds

section

variable {signs : Signs} {symbols : List Char} {anchor : Option Nat} {node : NodeId}

/-- The names of nodes, where the visits were made in the order of the walk. -/
theorem Signs.Names.eq_nodeAt (hsigns : signs.Regular) (hwhole : signs.Whole symbols.zipIdx)
    (h : signs.Names (signs.visits none symbols.zipIdx) anchor node) :
    node = signs.nodeAt symbols anchor := by
  cases h with
  | root => rfl
  | @node k visit hvisit _ =>
    have hpositions : (signs.walk symbols.zipIdx).map Prod.snd =
        (signs.visits none symbols.zipIdx).map Visit.position := by
      rw [← map_entry_visits none, List.map_map]
      rfl
    have hnodup := nodup_positions hsigns hwhole none
    have hat : ((signs.visits none symbols.zipIdx).map Visit.position)[k]? = some visit.position := by
      rw [List.getElem?_map, hvisit, Option.map_some]
    obtain ⟨hlt, hget⟩ := List.getElem?_eq_some_iff.mp hat
    have hindex := hnodup.idxOf_getElem k hlt
    rw [hget] at hindex
    rw [nodeAt, hpositions, hindex]

end

namespace Garden

variable {plan : PlantPlan} {seed : Seed Empty} {opening closing : Char} {symbols : List Char}

/-- **A baked bracketed plan can be planted exactly if all symbols of its sentence are narrow, and what
grows is the walk over the sentence.** -/
theorem baked_walks (h : plan.Bracketed opening closing symbols) (hok : plan.seed = .ok seed)
    (hbaked : plan.traits.baked = true) (settings : Settings) :
    ((∃ limit garden, build limit plan settings = .ok (some garden)) ↔
        ∀ symbol ∈ symbols, seed.Narrow true symbol) ∧
      ∀ limit garden, build limit plan settings = .ok (some garden) →
        (plan.signs opening closing).Walked symbols garden := by
  refine ⟨⟨?_, fun hnarrow => ?_⟩, fun limit garden hbuild => ?_⟩
  · rintro ⟨limit, garden, hbuild⟩
    have hreached := Reached.planted hbuild
    rw [← hbaked]
    exact narrow_of_idle h hok hreached (grown_of_baked h hok hbaked hreached).1
  · rw [← hbaked] at hnarrow
    exact exists_build h.tipsEnd (neverHalts_of_bracketed h hok hnarrow) hok
  obtain ⟨hidle, hgrown⟩ := grown_of_baked h hok hbaked (Reached.planted hbuild)
  have hregular := h.regular
  have hwhole := h.whole
  have hvisits : (plan.visits opening closing symbols).map Visit.entry =
      (plan.signs opening closing).walk symbols.zipIdx := Signs.map_entry_visits none _
  have hlength := congrArg List.length hvisits
  rw [List.length_map] at hlength
  refine ⟨hidle, Signs.walk_perm hregular hwhole, ?_, ?_, ?_, ?_⟩
  · obtain ⟨node, hnode, hmark⟩ := Arena.exists_of_getElem?_marks hgrown.holds.root
    exact ⟨node, hnode, congrArg Mark.previous hmark⟩
  · rw [← Arena.length_marks, hgrown.holds.length, hlength]
  · intro k symbol position hentry
    rw [← hvisits, List.getElem?_map, Option.map_eq_some_iff] at hentry
    obtain ⟨visit, hvisit, heq⟩ := hentry
    have hsymbol : visit.symbol = symbol := congrArg Prod.fst heq
    have hposition : visit.position = position := congrArg Prod.snd heq
    obtain ⟨mark, hmark, hshows⟩ := hgrown.holds.node k visit hvisit
    obtain ⟨node, hnode, rfl⟩ := Arena.exists_of_getElem?_marks hmark
    obtain ⟨previous, hprevious, hnames⟩ := hshows.previous
    have hanchors : (plan.signs opening closing).Anchors symbols visit.position visit.anchor :=
      Signs.anchors_of_mem_visits hregular hwhole (List.mem_of_getElem? hvisit)
    refine ⟨node, visit.anchor, hnode, ?_, ?_, ?_, ?_⟩
    · rw [← hsymbol]
      exact hshows.symbol
    · rw [← hsymbol]
      exact hshows.ethereal
    · rw [← hposition]
      exact hanchors
    · rw [← hnames.eq_nodeAt hregular hwhole]
      exact hprevious
  · rw [hgrown.dispatched]
    have hcount := Signs.length_visits hregular hwhole none
    rw [List.zipIdx_map_fst] at hcount
    exact hcount

/-- A baked plant with a side branch on a side branch, derived in two generations. -/
def bough : PlantPlan where
  traits :=
    { start := "X", iterations := 2, rules := .map ⟨[('X', "F[+X]L")]⟩, baked := true }
  handlers := ⟨[('+', .turnHeading Vec3.unitY 30 30), ('F', .move 1 1), ('L', .leaf none {}),
    ('[', .fork ']')]⟩

theorem bracketed_bough : bough.Bracketed '[' ']'
    ['F', '[', '+', 'F', '[', '+', 'X', ']', 'L', ']', 'L'] := by
  refine ⟨rfl, rfl, by decide, rfl, rfl, fun symbol handler hfind => ?_, ⟨_, rfl, rfl⟩, by decide,
    by decide⟩
  have hmem := SymbolTable.mem_of_find? hfind
  simp only [bough, List.mem_cons, List.not_mem_nil, or_false, Prod.mk.injEq] at hmem
  rcases hmem with ⟨-, rfl⟩ | ⟨-, rfl⟩ | ⟨-, rfl⟩ | ⟨hsymbol, -⟩
  · exact Or.inr rfl
  · exact Or.inr rfl
  · exact Or.inr rfl
  · exact Or.inl hsymbol

theorem bough_walked : ∃ seed : Seed Empty, bough.seed = .ok seed ∧
    (∃ limit garden, build limit bough {} = .ok (some garden)) ∧
      ∀ limit garden, build limit bough {} = .ok (some garden) →
        (bough.signs '[' ']').Walked ['F', '[', '+', 'F', '[', '+', 'X', ']', 'L', ']', 'L']
          garden := by
  obtain ⟨seed, hseed, hnarrow⟩ : ∃ seed : Seed Empty, bough.seed = .ok seed ∧
      ∀ entry ∈ seed.registry.entries, ∀ bounds ∈ entry.2.handler.bounds true, bounds.far = false :=
    ⟨_, rfl, by decide +kernel⟩
  obtain ⟨hplanted, hwalked⟩ := baked_walks bracketed_bough hseed rfl {}
  exact ⟨seed, hseed, hplanted.mpr fun symbol _ => Seed.narrow_of_entries hnarrow symbol, hwalked⟩

/-- A baked plant of one move, of any distance in any direction. -/
def gale : PlantPlan where
  traits := { start := "T", baked := true }
  handlers := ⟨[('T', .move (-huge) huge), ('[', .fork ']')]⟩

/-- **The plan is bracketed and has no faults, and it is never planted.** -/
theorem build_gale : gale.Bracketed '[' ']' ['T'] ∧ (∃ seed : Seed Empty, gale.seed = .ok seed) ∧
    ∀ limit settings, build limit gale settings = .ok none := by
  obtain ⟨seed, hseed, hfind, hunread⟩ : ∃ seed : Seed Empty, gale.seed = .ok seed ∧
      seed.registry.find? 'T' = some (.named "translate" (.move (-huge) huge)) ∧
      seed.grammar.1.unread = ['T'] := ⟨_, rfl, rfl, by decide⟩
  refine ⟨?_, ⟨seed, hseed⟩, fun limit settings => ?_⟩
  · refine ⟨rfl, rfl, by decide, rfl, rfl, fun symbol handler hfind => ?_, ⟨_, rfl, rfl⟩, by decide,
      by decide⟩
    rcases List.mem_pair.mp (SymbolTable.mem_of_find? hfind) with heq | heq
    · cases heq
      exact Or.inr rfl
    · cases heq
      exact Or.inl rfl
  · exact build_of_far hseed rfl rfl hunread (by decide) hfind (fun planted heq => by cases heq)
      ⟨_, List.mem_singleton.mpr rfl, by decide +kernel⟩ limit settings

end Garden
end PlantGrowth
