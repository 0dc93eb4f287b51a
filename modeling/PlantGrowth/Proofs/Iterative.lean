import PlantGrowth.Proofs.Bracketed
import Mathlib.Data.List.Range

/-!
# Iterative plans

A plan is iterative if its rules are applied along the way and its handlers do nothing to a chain but
hand it on. Its plant has one chain. This chain reads the sentence that growth starts from, then the
next generation of it, and so on up to the last generation that is allowed.

`PlantPlan.glyphs` is all that the plant reads: the bound symbols of these generations, in turn.

## What is still to be read

A chain has its generation in its bundle and the sentence of it in its core. `Cycle.Carries` says that
the two belong together, and that what the chain still reads is the rest of this sentence and all
generations to come. A generation that is empty, or has no bound symbols, adds nothing to it; so the
one round of the search that takes the next generation leaves it as it is
(`Cycle.Carries.of_current`), and every other round takes at most one symbol off its front
(`Cycle.Carries.searches`).
-/

namespace PlantGrowth

/-! ## Plans -/

/-- A symbol with the generation that it is read in. -/
structure Glyph where
  symbol : Char
  generation : Nat
  deriving DecidableEq, Repr

/-- What is read of a row of symbols: those that are bound. -/
def Glyph.row (binds : Char → Bool) (generation : Nat) (symbols : List Char) : List Glyph :=
  (symbols.filter binds).map fun symbol => { symbol, generation }

namespace PlantPlan

/-- Is a symbol bound to a handler? -/
def binds (plan : PlantPlan) (symbol : Char) : Bool := (plan.handlers.find? symbol).isSome

/-- The symbols of a generation of the sentence that growth starts from. -/
def rewriting (plan : PlantPlan) (rules : RuleSet) (generation : Nat) : List Char :=
  (({ rules with fertile := true } : RuleSet).generation generation
    (Sentence.ofString plan.traits.start)).symbols

/-- The bound symbols of all generations up to the last one. -/
def glyphs (plan : PlantPlan) (rules : RuleSet) (last : Nat) : List Glyph :=
  (List.range (last + 1)).flatMap fun generation =>
    Glyph.row plan.binds generation (plan.rewriting rules generation)

/-- The rules are applied along the way, all handlers hand their chain on, and no generation has the
sentinel in it. -/
structure Iterative (plan : PlantPlan) (rules : RuleSet) (last : Nat) : Prop where
  mode : plan.traits.mode = .alongTheWay
  iterations : plan.traits.iterations = last
  unshared : plan.traits.prefab = none
  handsOn : ∀ symbol handler, plan.handlers.find? symbol = some handler → handler.handsOn = true
  readRules : plan.traits.readRules = .ok rules
  proper : ∀ generation ≤ last, sentinel ∉ plan.rewriting rules generation

end PlantPlan

namespace Glyph

variable {binds : Char → Bool} {generation : Nat} {symbols others : List Char} {symbol : Char}

theorem row_append : row binds generation (symbols ++ others) =
    row binds generation symbols ++ row binds generation others := by
  rw [row, List.filter_append, List.map_append]
  rfl

theorem row_cons_of_binds (h : binds symbol = true) :
    row binds generation (symbol :: others) =
      { symbol, generation } :: row binds generation others := by
  rw [row, List.filter_cons_of_pos h, List.map_cons]
  rfl

theorem row_eq_nil (h : ∀ symbol ∈ symbols, binds symbol = false) :
    row binds generation symbols = [] := by
  have hnone : symbols.filter binds = [] :=
    List.filter_eq_nil_iff.mpr fun symbol hmem => by simp [h symbol hmem]
  rw [row, hnone, List.map_nil]

end Glyph

/-! ## What is read -/

/-- What is followed while an iterative plant grows: its seed, the mark of its root, and its last
generation. -/
structure Cycle where
  seed : Seed Empty
  root : Mark
  last : Nat

namespace Cycle

/-- Is a symbol bound to a handler? -/
def binds (cycle : Cycle) (symbol : Char) : Bool := (cycle.seed.registry.find? symbol).isSome

/-- Are the nodes of a symbol ethereal? -/
def ethereal (cycle : Cycle) (symbol : Char) : Bool :=
  (cycle.seed.registry.find? symbol).any Prototype.ethereal

/-- The symbols of a generation. -/
def symbols (cycle : Cycle) (generation : Nat) : List Char :=
  (cycle.seed.grammar.2.generation generation cycle.seed.grammar.1).symbols

/-- What is read from the beginning of a generation on. -/
def rounds (cycle : Cycle) (generation : Nat) : List Glyph :=
  (List.range' generation (cycle.last + 1 - generation)).flatMap fun generation =>
    Glyph.row cycle.binds generation (cycle.symbols generation)

/-- What is read from somewhere in a generation on. -/
def ahead (cycle : Cycle) (generation : Nat) (s : Sentence) : List Glyph :=
  Glyph.row cycle.binds generation s.unread ++ cycle.rounds (generation + 1)

/-- The seed goes on to the last generation, its handlers hand their chain on, and no sentence has
the sentinel in it. -/
structure Proper (cycle : Cycle) : Prop where
  ceiling : cycle.seed.ceiling = cycle.last
  handsOn : ∀ symbol prototype, cycle.seed.registry.find? symbol = some prototype →
    prototype.handler.handsOn? = some prototype.ethereal
  live : ∀ symbol prototype, cycle.seed.registry.find? symbol = some prototype →
    prototype.baked = false
  alive : cycle.root.dead = false
  proper : ∀ generation ≤ cycle.last, sentinel ∉ cycle.symbols generation

end Cycle

namespace Cycle

variable {cycle : Cycle} {generation other : Nat} {s : Sentence}

theorem symbols_apply (h : s.symbols = cycle.symbols generation) :
    (cycle.seed.grammar.2.apply s).symbols = cycle.symbols (generation + 1) := by
  rw [symbols, RuleSet.generation_add, RuleSet.apply_congr h]
  rfl

/-- Nothing comes of an empty generation. -/
theorem symbols_of_blank (h : cycle.symbols generation = []) (hle : generation ≤ other) :
    cycle.symbols other = [] := by
  induction other, hle using Nat.le_induction with
  | base => exact h
  | succ other _ ih =>
    rw [← symbols_apply rfl]
    exact RuleSet.symbols_apply_of_blank ih

theorem rounds_of_le (h : generation ≤ cycle.last) :
    cycle.rounds generation =
      Glyph.row cycle.binds generation (cycle.symbols generation) ++
        cycle.rounds (generation + 1) := by
  have hcount : cycle.last + 1 - generation = cycle.last + 1 - (generation + 1) + 1 := by omega
  rw [rounds, hcount, List.range'_succ, List.flatMap_cons]
  rfl

theorem rounds_of_lt (h : cycle.last < generation) : cycle.rounds generation = [] := by
  have hcount : cycle.last + 1 - generation = 0 := by omega
  rw [rounds, hcount, List.range'_zero, List.flatMap_nil]

theorem rounds_of_blank (h : cycle.symbols generation = []) : cycle.rounds generation = [] := by
  rw [rounds, List.flatMap_eq_nil_iff]
  intro other hmem
  rw [symbols_of_blank h (List.mem_range'_1.mp hmem).1]
  rfl

theorem ahead_of_unread (h : s.unread = []) :
    cycle.ahead generation s = cycle.rounds (generation + 1) := by
  rw [ahead, h]
  rfl

/-- A sentence that was not read yet. -/
theorem ahead_of_cursor (h : s.cursor = -1) (hs : s.symbols = cycle.symbols generation)
    (hle : generation ≤ cycle.last) : cycle.ahead generation s = cycle.rounds generation := by
  rw [ahead, Sentence.unread_of_cursor_eq h, hs, rounds_of_le hle]

/-- Symbols that the search passes over are not read. -/
theorem row_of_skips {skipped : List Char} (h : Registry.Skips cycle.seed.registry skipped) :
    Glyph.row cycle.binds generation skipped = [] := by
  refine Glyph.row_eq_nil fun symbol hmem => ?_
  rw [binds, (h symbol hmem).2]
  rfl

end Cycle

/-! ## Chains -/

/-- The chain is in the generation that its bundle names, and this is what it still reads. -/
inductive Cycle.Carries (cycle : Cycle) (chain : Chain Empty) : List Glyph → Prop where
  | intro {generation : Nat} (follows : chain.Follows cycle.seed)
      (cursor : -1 ≤ chain.core.sentence.cursor) (same : chain.bundle.generation = generation)
      (le : generation ≤ cycle.last)
      (symbols : chain.core.sentence.symbols = cycle.symbols generation) :
      Carries cycle chain (cycle.ahead generation chain.core.sentence)

/-- What one round of the search comes to: there is nothing more to read, or a sentence was read to
its end, or the next symbol was found. -/
inductive Cycle.Searches (cycle : Cycle) (w : World Empty) (node : NodeId) (baked : Bool)
    (next : World Empty × List (Task Empty)) : List Glyph → Prop where
  | done (hnext : next = (w, [])) : Searches cycle w node baked next []
  | onward {chain : Chain Empty} {owed : List Glyph} (hnext : next = (w, [.search node chain baked]))
      (carries : cycle.Carries chain owed) : Searches cycle w node baked next owed
  | found {glyph : Glyph} {prototype : Prototype Empty} {s : Sentence} {bundle : Bundle Empty}
      {owed : List Glyph}
      (hnext : next = (w.make (prototype.draft glyph.symbol (w.nodes.nearestAnchor node) baked),
        [.call prototype.handler w.nodes.size bundle (baked || prototype.baked)]))
      (find : cycle.seed.registry.find? glyph.symbol = some prototype)
      (sentence : bundle.find? Key.sentence = some (.sentence s))
      (generation : bundle.find? Key.generation = some (.int glyph.generation))
      (carries : cycle.Carries { core := cycle.seed.core s, bundle } owed) :
      Searches cycle w node baked next (glyph :: owed)

theorem Bundle.Follows.find?_generation {seed : Seed Empty} {bundle : Bundle Empty}
    (h : bundle.Follows seed) : bundle.find? Key.generation = some (.int bundle.generation) := by
  obtain ⟨n, hn⟩ := h.generation
  rw [hn, Bundle.generation_of_find? hn]

namespace Cycle.Carries

variable {cycle : Cycle} {chain current later : Chain Empty} {owed : List Glyph} {usual : Nat}

theorem follows (h : cycle.Carries chain owed) : chain.Follows cycle.seed := by
  cases h with
  | intro hfollows => exact hfollows

/-- A chain with a later bundle of the same generation reads the same. -/
theorem succeeds {core : Core Empty} {bundle after : Bundle Empty}
    (h : cycle.Carries { core, bundle } owed) (hafter : Bundle.Succeeds cycle.seed bundle after) :
    cycle.Carries { core, bundle := after } owed := by
  cases h with
  | intro hfollows hcursor hsame hle hsymbols =>
    have hlater : ({ core, bundle := after } : Chain Empty).Follows cycle.seed :=
      ⟨hfollows.registry, hfollows.rules, hafter.follows⟩
    exact Carries.intro hlater hcursor (hafter.generation.trans hsame) hle hsymbols

/-- A chain that follows another one with the same core reads the same. -/
theorem leads (h : cycle.Carries chain owed) (hleads : chain.Leads later) :
    cycle.Carries later owed := by
  obtain ⟨core, bundle⟩ := later
  obtain ⟨rfl, hbundle⟩ := hleads
  exact h.succeeds (hbundle cycle.seed h.follows.bundle)

/-- A chain that has read its sentence to the end reads the generations to come. -/
theorem eq_rounds (h : cycle.Carries chain owed) (hread : chain.core.sentence.hasUnread = false) :
    ∃ generation : Nat, chain.bundle.generation = generation ∧
      chain.core.sentence.symbols = cycle.symbols generation ∧
      owed = cycle.rounds (generation + 1) := by
  cases h with
  | intro hfollows hcursor hsame hle hsymbols =>
    refine ⟨_, hsame, hsymbols, Cycle.ahead_of_unread ?_⟩
    by_contra hunread
    rw [(Sentence.hasUnread_iff hcursor).mpr hunread] at hread
    cases hread

/-- **Taking the next generation does not change what is still to be read.** -/
theorem of_current (hproper : cycle.Proper) (h : cycle.Carries chain owed)
    (hcurrent : chain.Current usual current) : cycle.Carries current owed := by
  cases hcurrent with
  | same _ => exact h
  | renewed hread hrenew =>
    obtain ⟨generation, hsame, hsymbols, rfl⟩ := h.eq_rounds hread
    obtain ⟨hfollows, hsentence, hnext, hlast⟩ := h.follows.renew hrenew
    have hcursor : current.core.sentence.cursor = -1 := by
      rw [hsentence, RuleSet.cursor_apply]
    have hrenewed : current.core.sentence.symbols = cycle.symbols (generation + 1) := by
      rw [hsentence, Cycle.symbols_apply hsymbols]
    have hle : generation + 1 ≤ cycle.last := by
      rw [hproper.ceiling] at hlast
      omega
    rw [← Cycle.ahead_of_cursor hcursor hrenewed hle]
    refine Carries.intro hfollows (Int.le_of_eq hcursor.symm) ?_ hle hrenewed
    rw [hnext, hsame]
    rfl

/-- Nothing is left to be read when the next generation is empty. -/
theorem eq_nil_of_blank (h : cycle.Carries chain owed) (hcurrent : chain.Current usual current)
    (hblank : current.core.sentence.unread = []) : owed = [] := by
  cases hcurrent with
  | same hread =>
    cases h with
    | intro _ hcursor =>
      exact absurd hblank ((Sentence.hasUnread_iff hcursor).mp hread)
  | renewed hread hrenew =>
    obtain ⟨generation, -, hsymbols, rfl⟩ := h.eq_rounds hread
    obtain ⟨-, hsentence, -⟩ := h.follows.renew hrenew
    rw [hsentence, Sentence.unread_of_cursor_eq (RuleSet.cursor_apply _ _),
      Cycle.symbols_apply hsymbols] at hblank
    exact Cycle.rounds_of_blank hblank

/-- Nothing is left to be read when there is no next generation. -/
theorem eq_nil_of_last (hproper : cycle.Proper) (h : cycle.Carries chain owed)
    (hread : chain.core.sentence.hasUnread = false) (hrenew : chain.renew? usual = none) :
    owed = [] := by
  obtain ⟨generation, hsame, -, rfl⟩ := h.eq_rounds hread
  have hceiling := h.follows.ceiling_le hrenew
  rw [hproper.ceiling, hsame] at hceiling
  exact Cycle.rounds_of_lt (by omega)

/-- **A round of the search reads what comes next**, or finds that nothing does. -/
theorem searches (hproper : cycle.Proper) (h : cycle.Carries chain owed) (w : World Empty)
    (node : NodeId) (baked : Bool) :
    cycle.Searches w node baked (w.search node chain baked) owed := by
  have hfinds := w.finds_search node chain baked
  generalize hnext : w.search node chain baked = next at hfinds
  cases hfinds with
  | last hread hrenew =>
    rw [h.eq_nil_of_last hproper hread hrenew]
    exact Searches.done rfl
  | blank hcurrent hblank =>
    rw [h.eq_nil_of_blank hcurrent hblank]
    exact Searches.done rfl
  | ended hcurrent hended =>
    cases h.of_current hproper hcurrent with
    | intro _ _ _ hle hsymbols =>
      refine absurd ?_ (hproper.proper _ hle)
      rw [← hsymbols]
      exact List.mem_of_mem_drop (Sentence.sentinel_mem_of_readTo_eq_ended hended)
  | exhausted hcurrent _ hreading =>
    cases h.of_current hproper hcurrent with
    | @intro generation hfollows hcursor hsame hle hsymbols =>
      rw [hfollows.registry] at hreading
      obtain ⟨hskips, -⟩ := Sentence.eq_of_readTo_eq_exhausted hreading
      obtain ⟨hunread, hlater, hkept⟩ := Sentence.unread_of_readTo_eq_exhausted hcursor hreading
      rw [Cycle.ahead, Cycle.row_of_skips hskips, List.nil_append, ← Cycle.ahead_of_unread hunread]
      refine Searches.onward rfl (Carries.intro ?_ hlater hsame hle (hkept.trans hsymbols))
      exact ⟨hfollows.registry, hfollows.rules, hfollows.bundle⟩
  | @found current symbol prototype s hcurrent hreading =>
    cases h.of_current hproper hcurrent with
    | @intro generation hfollows hcursor hsame hle hsymbols =>
      rw [hfollows.registry] at hreading
      obtain ⟨skipped, hunread, hskips⟩ := Sentence.unread_of_readTo_eq_found hcursor hreading
      obtain ⟨_, _, -, -, -, hfind, hmoved⟩ := Sentence.exists_of_readTo_eq_found hreading
      have hkept : s.symbols = current.core.sentence.symbols := by rw [hmoved]
      have hbinds : cycle.binds symbol = true := by
        rw [Cycle.binds, hfind]
        rfl
      obtain ⟨hlater, hsentence⟩ := hfollows.bundle.dispatch s
      have hgeneration := hlater.generation.trans hsame
      have hcursor' := Sentence.cursor_of_readTo_eq_found hcursor hreading
      rw [Cycle.ahead, hunread, Glyph.row_append, Cycle.row_of_skips hskips, List.nil_append,
        Glyph.row_cons_of_binds hbinds]
      have hread : -1 ≤ s.cursor := by omega
      refine @Searches.found cycle w node baked _ ⟨symbol, generation⟩ prototype s _ _
        (World.dispatch_eq hfollows.bundle.tidy w node symbol prototype s baked) hfind hsentence ?_ ?_
      · rw [hlater.follows.find?_generation, hgeneration]
      · exact Carries.intro (Seed.follows_core hlater.follows s) hread hgeneration hle
          (hkept.trans hsymbols)

end Cycle.Carries

/-! ## The plan's seed -/

/-- What is followed while a plan grows along the way. -/
def PlantPlan.cycle (plan : PlantPlan) (seed : Seed Empty) (last : Nat) : Cycle where
  seed
  root := plan.traits.root.mark
  last

namespace PlantPlan

variable {plan : PlantPlan} {rules : RuleSet} {last : Nat} {seed : Seed Empty}

/-- A symbol is bound in the seed exactly if it is in the plan. -/
theorem isSome_find?_seed (hok : plan.seed = .ok seed) (symbol : Char) :
    (seed.registry.find? symbol).isSome = plan.binds symbol := by
  rw [binds]
  cases hfind : plan.handlers.find? symbol with
  | some handler =>
    obtain ⟨prototype, hfound, -⟩ := find?_of_exists hok hfind
    rw [hfound]
    rfl
  | none =>
    cases hfound : seed.registry.find? symbol with
    | none => rfl
    | some prototype =>
      obtain ⟨handler, hplan, -⟩ := exists_of_find? hok hfound
      cases hfind.symm.trans hplan

theorem binds_cycle (hok : plan.seed = .ok seed) : (plan.cycle seed last).binds = plan.binds :=
  funext (isSome_find?_seed hok)

namespace Iterative

/-- There are no branches and no plants in an iterative plant. -/
theorem tipsEnd (h : plan.Iterative rules last) : plan.TipsEnd :=
  TipsEnd.of_unbranched (fun symbol _ hfind => (by cases h.handsOn symbol _ hfind))
    fun symbol _ hfind => (by cases h.handsOn symbol _ hfind)

/-- The seed begins with the plan's sentence and keeps its rules. -/
theorem grammar_eq (h : plan.Iterative rules last) (hok : plan.seed = .ok seed) :
    seed.grammar = (Sentence.ofString plan.traits.start, { rules with fertile := true }) := by
  obtain ⟨rules', hrules, -, htraits, -⟩ := traits_of_seed hok
  obtain rfl : rules = rules' := Except.ok.inj (h.readRules.symm.trans hrules)
  rw [Seed.grammar, mode_of_seed hok, h.mode, htraits]

theorem symbols_cycle (h : plan.Iterative rules last) (hok : plan.seed = .ok seed)
    (generation : Nat) :
    (plan.cycle seed last).symbols generation = plan.rewriting rules generation := by
  show (seed.grammar.2.generation generation seed.grammar.1).symbols = _
  rw [h.grammar_eq hok]
  rfl

/-- **All that the plant reads** are the bound symbols of its generations. -/
theorem rounds_cycle (h : plan.Iterative rules last) (hok : plan.seed = .ok seed) :
    (plan.cycle seed last).rounds 0 = plan.glyphs rules last := by
  rw [Cycle.rounds, binds_cycle hok, glyphs, List.range_eq_range']
  simp only [h.symbols_cycle hok]
  rfl

/-- **The seed of an iterative plan goes on to the last generation.** -/
theorem proper_cycle (h : plan.Iterative rules last) (hok : plan.seed = .ok seed) :
    (plan.cycle seed last).Proper := by
  have hyields : ∀ symbol prototype, seed.registry.find? symbol = some prototype →
      prototype.handler.handsOn? = some prototype.ethereal ∧ prototype.baked = false := by
    intro symbol prototype hfind
    obtain ⟨handler, hplan, hmade⟩ := exists_of_find? hok hfind
    have hhands := h.handsOn symbol handler hplan
    have hmakes := HandlerPlan.yields_of_prototype hmade fun inner heq => by
      rw [heq] at hhands
      cases hhands
    rw [hmakes.ethereal]
    exact ⟨hmakes.handsOn hhands, hmakes.baked⟩
  refine ⟨?_, fun symbol prototype hfind => (hyields symbol prototype hfind).1,
    fun symbol prototype hfind => (hyields symbol prototype hfind).2, rfl, fun generation hle => ?_⟩
  · obtain ⟨_, -, -, htraits, -⟩ := traits_of_seed hok
    show seed.ceiling = last
    rw [Seed.ceiling, mode_of_seed hok, h.mode, htraits]
    exact h.iterations
  · rw [h.symbols_cycle hok]
    exact h.proper generation hle

end Iterative
end PlantPlan
end PlantGrowth
