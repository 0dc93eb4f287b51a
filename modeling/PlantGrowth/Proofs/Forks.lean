import PlantGrowth.Proofs.Brackets
import PlantGrowth.Proofs.Law
import PlantGrowth.Proofs.Moments
import PlantGrowth.Proofs.Plan

/-!
# Forks in balanced grammars

A fork fails if no bracket closes behind it, and then two branches of the plant are lost. In a plan
whose texts are balanced in the brackets of its one fork this never happens: neither in the sentence
that the plant starts from, nor in what is left of it when parts were cut out, nor in any generation
of what is left.

The reason is a law of sentences. No bracket was ever read and not cut out, so the symbols up to the
cursor are no brackets, and the ones behind it close all brackets that they open. When the fork acts
its bracket is the only one that was read.
-/

namespace PlantGrowth

/-! ## Balanced plans -/

/-- The texts of a plan agree with a pair of brackets that its fork reads. -/
structure PlantPlan.Brackets (plan : PlantPlan) (opening closing : Char) : Prop where
  distinct : opening ≠ closing
  /-- The fork acts at no tip of a branch. -/
  tips : ∀ symbol shape, plan.handlers.find? symbol = some (.branch shape) →
    shape.tipSymbol ≠ some opening
  start : Balanced opening closing plan.traits.start.toList
  /-- Brackets are not rewritten. -/
  fixed : ∀ rules, plan.traits.readRules = .ok rules →
    rules.find? opening = none ∧ rules.find? closing = none
  replacements : ∀ rules symbol text, plan.traits.readRules = .ok rules →
    rules.find? symbol = some text → Balanced opening closing text.toList

/-- There is at most one fork in the plant, the texts are balanced in its brackets, and the plants
within the plant are balanced as well. -/
inductive PlantPlan.Balanced : PlantPlan → Prop where
  | intro {plan : PlantPlan}
      (single : ∀ opening closing other closing',
        plan.handlers.find? opening = some (.fork closing) →
        plan.handlers.find? other = some (.fork closing') → other = opening)
      (own : ∀ opening closing, plan.handlers.find? opening = some (.fork closing) →
        plan.Brackets opening closing)
      (within : ∀ symbol inner, plan.handlers.find? symbol = some (.seed inner) → Balanced inner) :
      Balanced plan

/-- A symbol is bound to a fork. -/
def Seed.Forks (seed : Seed Empty) (opening closing : Char) : Prop :=
  ∃ prototype, seed.registry.find? opening = some prototype ∧ prototype.handler = .fork closing

namespace PlantPlan

variable {plan : PlantPlan} {seed : Seed Empty} {opening closing other closing' : Char}

theorem find?_of_forks (h : plan.seed = .ok seed) (hforks : seed.Forks opening closing) :
    plan.handlers.find? opening = some (.fork closing) := by
  obtain ⟨prototype, hfind, hhandler⟩ := hforks
  obtain ⟨handler, hbound, hmakes⟩ := makes_of_find? h hfind
  rw [hhandler] at hmakes
  cases hmakes
  exact hbound

theorem Balanced.within {symbol : Char} {inner : PlantPlan} (h : plan.Balanced)
    (hfind : plan.handlers.find? symbol = some (.seed inner)) : inner.Balanced := by
  cases h with
  | intro _ _ hwithin => exact hwithin symbol inner hfind

theorem Balanced.brackets (h : plan.Balanced) (hok : plan.seed = .ok seed)
    (hforks : seed.Forks opening closing) : plan.Brackets opening closing := by
  cases h with
  | intro _ hown _ => exact hown opening closing (find?_of_forks hok hforks)

/-- The brackets of the fork are the only ones. -/
theorem Balanced.eq_of_forks (h : plan.Balanced) (hok : plan.seed = .ok seed)
    (hforks : seed.Forks opening closing) (hforks' : seed.Forks other closing') :
    other = opening ∧ closing' = closing := by
  have hother : other = opening := by
    cases h with
    | intro hsingle _ _ =>
      exact hsingle _ _ _ _ (find?_of_forks hok hforks) (find?_of_forks hok hforks')
  subst hother
  have hsame := (find?_of_forks hok hforks').symm.trans (find?_of_forks hok hforks)
  refine ⟨rfl, ?_⟩
  injection hsame with hsame
  injection hsame

end PlantPlan

/-! ## Rewriting a sentence -/

theorem balanced_of_plain {opening closing : Char} {symbols : List Char}
    (h : Plain opening closing symbols) : Balanced opening closing symbols := by
  have hcount : ∀ row : List Char, (∀ symbol ∈ row, symbol ∈ symbols) →
      row.count closing = 0 ∧ row.count opening = 0 := by
    intro row hrow
    rw [List.count_eq_zero, List.count_eq_zero]
    exact ⟨fun hmem => (h closing (hrow closing hmem)).2 rfl,
      fun hmem => (h opening (hrow opening hmem)).1 rfl⟩
  constructor
  · intro first rest hsplit
    obtain ⟨hclosing, -⟩ := hcount first fun symbol hmem => by
      rw [hsplit]
      exact List.mem_append_left rest hmem
    rw [hclosing]
    exact Nat.zero_le _
  · obtain ⟨hclosing, hopening⟩ := hcount symbols fun symbol hmem => hmem
    rw [hclosing, hopening]

/-- **The next generation of a sentence that closes all its brackets closes them too.** -/
theorem RuleSet.depthAfter?_apply {rules : RuleSet} {opening closing : Char}
    (hne : opening ≠ closing) (hopening : rules.find? opening = none)
    (hclosing : rules.find? closing = none)
    (hreplacements : ∀ symbol text, rules.find? symbol = some text →
      Balanced opening closing text.toList) {s : Sentence}
    (h : depthAfter? opening closing 0 s.symbols = some 0) :
    depthAfter? opening closing 0 (rules.apply s).symbols = some 0 := by
  by_cases hfertile : rules.fertile = true
  · rw [symbols_apply hfertile]
    have hbound : ∀ symbol text, rules.find? symbol = some text →
        Balanced opening closing (rules.successor symbol) := by
      intro symbol text hfind
      rw [successor, hfind]
      exact hreplacements symbol text hfind
    cases hfallback : rules.fallback with
    | keep =>
      have hkept : ∀ symbol, rules.find? symbol = none → rules.successor symbol = [symbol] := by
        intro symbol hfind
        rw [successor, hfind, hfallback]
      rw [depthAfter?_flatMap hne (hkept opening hopening) (hkept closing hclosing) ?_, h]
      intro symbol hopening' hclosing'
      cases hfind : rules.find? symbol with
      | some text => exact hbound symbol text hfind
      | none =>
        rw [hkept symbol hfind]
        refine balanced_of_plain fun other hmem => ?_
        rw [List.mem_singleton.mp hmem]
        exact ⟨hopening', hclosing'⟩
    | drop =>
      refine depthAfter?_flatMap_of_balanced hne (fun symbol => ?_) 0 s.symbols
      cases hfind : rules.find? symbol with
      | some text => exact hbound symbol text hfind
      | none =>
        rw [successor, hfind, hfallback]
        exact balanced_of_plain plain_nil
  · rw [symbols_apply_of_infertile hfertile]
    rfl

/-! ## The law -/

/-- A sentence that was read up to no bracket, and closes all brackets from there on. -/
structure Sentence.Awaits (s : Sentence) (opening closing : Char) : Prop where
  read : Plain opening closing s.read
  unread : depthAfter? opening closing 0 s.unread = some 0

/-- A sentence that was read up to its first bracket, and closes all brackets from there on. -/
structure Sentence.Opens (s : Sentence) (opening closing : Char) : Prop where
  behind : Plain opening closing s.behind
  unread : depthAfter? opening closing 1 s.unread = some 0

/-- The law of sentences in balanced plants. -/
def Law.brackets : Law where
  grows := PlantPlan.Yields PlantPlan.Balanced
  reads seed s := -1 ≤ s.cursor ∧ ∀ opening closing, seed.Forks opening closing →
    s.Awaits opening closing
  acts seed symbol s := 0 ≤ s.cursor ∧ ∀ opening closing, seed.Forks opening closing →
    (symbol = opening → s.Opens opening closing) ∧ (symbol ≠ opening → s.Awaits opening closing)

namespace Sentence

variable {s later : Sentence} {opening closing symbol : Char} {prototype : Prototype Empty}
  {registry : Registry Empty}

theorem Awaits.symbols (h : s.Awaits opening closing) :
    depthAfter? opening closing 0 s.symbols = some 0 := by
  rw [← read_append_unread s, depthAfter?_append, depthAfter?_of_plain h.read, Option.bind_some,
    h.unread]

/-- A sentence before its first read. -/
theorem awaits_of_cursor_eq (hcursor : s.cursor = -1)
    (h : depthAfter? opening closing 0 s.symbols = some 0) : s.Awaits opening closing := by
  refine ⟨?_, ?_⟩
  · rw [read_of_cursor_eq hcursor]
    exact plain_nil
  · rw [unread_of_cursor_eq hcursor, h]

/-- **The search keeps the law.** The first bracket that it comes to is an opening one, and it does
not pass over it because it is bound. -/
theorem Awaits.found (h : s.Awaits opening closing) (hne : opening ≠ closing)
    (hbound : registry.find? opening ≠ none) (hcursor : -1 ≤ s.cursor)
    (hreading : s.readTo registry s.unread = .found symbol prototype later) :
    (symbol = opening → later.Opens opening closing) ∧
      (symbol ≠ opening → later.Awaits opening closing) := by
  obtain ⟨skipped, hunread, hskips, hbehind, hread⟩ := read_of_readTo_eq_found hcursor hreading
  have hdepth := h.unread
  rw [hunread] at hdepth
  have hskipped : Plain opening closing skipped :=
    plain_of_depthAfter? hdepth fun hmem => hbound (hskips opening hmem).2
  have hpassed : Plain opening closing (s.read ++ skipped) := h.read.append hskipped
  rw [depthAfter?_append, depthAfter?_of_plain hskipped, Option.bind_some] at hdepth
  constructor
  · rintro rfl
    rw [depthAfter?_opening hne] at hdepth
    refine ⟨?_, hdepth⟩
    rw [hbehind]
    exact hpassed
  · intro hopening
    have hclosing : symbol ≠ closing := by
      rintro rfl
      rw [depthAfter?, if_pos rfl, if_pos rfl] at hdepth
      cases hdepth
    rw [depthAfter?_other hopening hclosing] at hdepth
    refine ⟨?_, hdepth⟩
    rw [hread]
    refine hpassed.append fun other hmem => ?_
    rw [List.mem_singleton.mp hmem]
    exact ⟨hopening, hclosing⟩

theorem Awaits.exhausted (h : s.Awaits opening closing) (hbound : registry.find? opening ≠ none)
    (hcursor : -1 ≤ s.cursor) (hreading : s.readTo registry s.unread = .exhausted later) :
    later.Awaits opening closing := by
  obtain ⟨hskips, -⟩ := eq_of_readTo_eq_exhausted hreading
  obtain ⟨hunread, -, -⟩ := unread_of_readTo_eq_exhausted hcursor hreading
  have hdepth : depthAfter? opening closing 0 (s.unread ++ []) = some 0 := by
    rw [List.append_nil, h.unread]
  have hplain : Plain opening closing s.unread :=
    plain_of_depthAfter? hdepth fun hmem => hbound (hskips opening hmem).2
  refine ⟨?_, ?_⟩
  · rw [read_of_readTo_eq_exhausted hcursor hreading]
    exact h.read.append hplain
  · rw [hunread]
    rfl

/-- **Where a fork stands a branch can be cut out**, and the sentences that come of it keep the law.
-/
theorem Opens.takeBranch (h : s.Opens opening closing) (hne : opening ≠ closing)
    (hcursor : 0 ≤ s.cursor) :
    ∃ interior residue, s.takeBranch opening closing = (.ok interior, residue) ∧
      interior.Awaits opening closing ∧ residue.Awaits opening closing := by
  obtain ⟨count, hcount, hinterior, hresidue⟩ := exists_closingAfter hne h.unread
  have hpos := closingAfter_pos hcount
  have hle := closingAfter_le_length hcount
  refine ⟨_, _, takeBranch_of_closingAfter hcursor hcount, awaits_of_cursor_eq rfl hinterior, ?_, ?_⟩
  · rw [read_residue hcursor hpos hle]
    exact h.behind
  · rw [unread_residue hcursor hpos hle, hresidue]

end Sentence

namespace PlantPlan

variable {plan : PlantPlan} {seed : Seed Empty} {opening closing : Char} {s : Sentence}

/-- The rules of a plant's chains agree with its brackets. -/
theorem Brackets.depthAfter?_apply (h : plan.Brackets opening closing) (hok : plan.seed = .ok seed)
    (hs : depthAfter? opening closing 0 s.symbols = some 0) :
    depthAfter? opening closing 0 (seed.grammar.2.apply s).symbols = some 0 := by
  obtain ⟨rules, hrules, -, htraits, -⟩ := traits_of_seed hok
  obtain ⟨hopening, hclosing⟩ := h.fixed rules hrules
  have happly : ∀ fertile, depthAfter? opening closing 0
      (({ rules with fertile } : RuleSet).apply s).symbols = some 0 := by
    intro fertile
    refine RuleSet.depthAfter?_apply h.distinct ?_ ?_ (fun symbol text hfind => ?_) hs
    · exact hopening
    · exact hclosing
    · exact h.replacements rules symbol text hrules hfind
  rw [Seed.grammar, htraits]
  cases plan.traits.mode with
  | inAdvance => exact happly false
  | alongTheWay => exact happly true

/-- A plant's first sentence agrees with its brackets. -/
theorem Brackets.depthAfter?_grammar (h : plan.Brackets opening closing)
    (hok : plan.seed = .ok seed) :
    depthAfter? opening closing 0 seed.grammar.1.symbols = some 0 := by
  obtain ⟨rules, hrules, -, htraits, -⟩ := traits_of_seed hok
  obtain ⟨hopening, hclosing⟩ := h.fixed rules hrules
  have hstart : depthAfter? opening closing 0
      (Sentence.ofString plan.traits.start).symbols = some 0 := h.start.depthAfter?_eq h.distinct 0
  have hgeneration : ∀ (n : Nat) (s : Sentence), depthAfter? opening closing 0 s.symbols = some 0 →
      depthAfter? opening closing 0 (rules.generation n s).symbols = some 0 := by
    intro n
    induction n with
    | zero => exact fun s hs => hs
    | succ n ih =>
      intro s hs
      exact ih _ (RuleSet.depthAfter?_apply h.distinct hopening hclosing
        (fun symbol text => h.replacements rules symbol text hrules) hs)
  rw [Seed.grammar, htraits]
  cases plan.traits.mode with
  | inAdvance => exact hgeneration _ _ hstart
  | alongTheWay => exact hstart

end PlantPlan

/-- **The law of balanced plants is kept.** -/
theorem Law.sound_brackets : Law.brackets.Sound where
  start := by
    rintro seed ⟨plan, hplan, hok⟩
    refine ⟨Int.le_of_eq seed.cursor_grammar.symm, fun opening closing hforks => ?_⟩
    exact Sentence.awaits_of_cursor_eq seed.cursor_grammar
      ((hplan.brackets hok hforks).depthAfter?_grammar hok)
  within := by
    intro seed inner symbol prototype hgrows hfind hseed
    exact hgrows.within (fun hplan hbound => hplan.within hbound) hfind hseed
  renew := by
    rintro seed s ⟨plan, hplan, hok⟩ ⟨-, hawaits⟩
    have hcursor := RuleSet.cursor_apply seed.grammar.2 s
    refine ⟨Int.le_of_eq hcursor.symm, fun opening closing hforks => ?_⟩
    exact Sentence.awaits_of_cursor_eq hcursor
      ((hplan.brackets hok hforks).depthAfter?_apply hok (hawaits opening closing hforks).symbols)
  found := by
    rintro seed s symbol prototype later ⟨plan, hplan, hok⟩ ⟨hcursor, hawaits⟩ hreading
    refine ⟨Sentence.cursor_of_readTo_eq_found hcursor hreading, fun opening closing hforks => ?_⟩
    obtain ⟨fork, hfork, -⟩ := id hforks
    refine (hawaits opening closing hforks).found (hplan.brackets hok hforks).distinct ?_ hcursor
      hreading
    rw [hfork]
    exact Option.some_ne_none fork
  exhausted := by
    rintro seed s later - ⟨hcursor, hawaits⟩ hreading
    refine ⟨(Sentence.unread_of_readTo_eq_exhausted hcursor hreading).2.1,
      fun opening closing hforks => ?_⟩
    obtain ⟨fork, hfork, -⟩ := id hforks
    refine (hawaits opening closing hforks).exhausted ?_ hcursor hreading
    rw [hfork]
    exact Option.some_ne_none fork
  handOn := by
    rintro seed s symbol prototype - hfind hnone ⟨hcursor, hacts⟩
    refine ⟨by omega, fun opening closing hforks => (hacts opening closing hforks).2 ?_⟩
    rintro rfl
    obtain ⟨fork, hfork, hhandler⟩ := hforks
    obtain rfl : prototype = fork := Option.some.inj (hfind.symm.trans hfork)
    exact hnone closing hhandler
  fork := by
    rintro seed s symbol prototype closing interior residue ⟨plan, hplan, hok⟩ hfind hhandler
      ⟨hcursor, hacts⟩ hcut
    have hforks : seed.Forks symbol closing := ⟨prototype, hfind, hhandler⟩
    obtain ⟨interior', residue', hcut', hinterior, hresidue⟩ :=
      ((hacts symbol closing hforks).1 rfl).takeBranch (hplan.brackets hok hforks).distinct hcursor
    rw [hcut] at hcut'
    cases hcut'
    obtain ⟨hcursor', hstart, -, -⟩ := Sentence.cursor_of_takeBranch hcursor hcut
    -- the plant has one pair of brackets, so these are the ones that the law is about
    have hall : ∀ later : Sentence, later.Awaits symbol closing → ∀ opening closing',
        seed.Forks opening closing' → later.Awaits opening closing' := by
      intro later hlater opening closing' hforks'
      obtain ⟨rfl, rfl⟩ := hplan.eq_of_forks hok hforks hforks'
      exact hlater
    exact ⟨⟨hcursor', hall residue hresidue⟩, ⟨Int.le_of_eq hstart.symm, hall interior hinterior⟩⟩
  tip := by
    rintro seed s symbol prototype shape tip other ⟨plan, hplan, hok⟩ hfind hhandler htip hother
      ⟨hcursor, hacts⟩
    obtain ⟨handler, hbound, hmakes⟩ := PlantPlan.makes_of_find? hok hfind
    rw [hhandler] at hmakes
    cases hmakes
    refine ⟨hcursor, fun opening closing hforks => ⟨?_, fun _ => ?_⟩⟩
    · rintro rfl
      exact absurd htip ((hplan.brackets hok hforks).tips symbol shape hbound)
    · refine (hacts opening closing hforks).2 ?_
      rintro rfl
      have hfork := PlantPlan.find?_of_forks hok hforks
      rw [hbound] at hfork
      cases hfork

/-! ## No fork fails -/

/-- The chain of a fork's residue or interior. -/
def Core.resume {H : Type} (core : Core H) (s : Sentence) (bundle : Bundle H) : Chain H :=
  { core := { core with sentence := s }, bundle }

/-- The fork at a node cuts a branch out, and both sentences are handed on. -/
def World.ForkSucceeds (w : World Empty) (closing : Char) (node : NodeId) (bundle : Bundle Empty)
    (baked : Bool) : Prop :=
  ∃ state core interior residue, w.nodes.get? node = some state ∧ bundle.core = .ok core ∧
    core.sentence.takeBranch state.symbol closing = (.ok interior, residue) ∧
    w.perform (.call (.fork closing) node bundle baked) =
      (w, [.carryOn node (core.resume residue bundle), .carryOn node (core.resume interior bundle),
        .destroy node])

theorem World.forkSucceeds_of_calls {w : World Empty} {closing : Char} {node : NodeId}
    {bundle : Bundle Empty} (h : Law.brackets.Calls w node bundle (.fork closing)) (baked : Bool) :
    w.ForkSucceeds closing node bundle baked := by
  generalize hhandler : Handler.fork closing = handler at h
  cases h with
  | root _ _ => cases hhandler
  | @bound seed symbol prototype s state hgrows hfollows hs hfind hacts hnode hsymbol =>
    obtain ⟨plan, hplan, hok⟩ := hgrows
    obtain ⟨hcursor, hacts⟩ := hacts
    have hforks : seed.Forks symbol closing := ⟨prototype, hfind, hhandler.symm⟩
    obtain ⟨interior, residue, hcut, -, -⟩ :=
      ((hacts symbol closing hforks).1 rfl).takeBranch (hplan.brackets hok hforks).distinct hcursor
    have hopening : (w.nodes.get? node).map (·.symbol) = some symbol := by
      rw [hnode, Option.map_some, hsymbol]
    refine ⟨state, seed.core s, interior, residue, hnode, hfollows.core_eq hs, ?_, ?_⟩
    · rw [hsymbol]
      exact hcut
    · show ((w.fork closing node bundle).world, (w.fork closing node bundle).allTasks) = _
      rw [World.fork_eq hfollows hs closing hopening, hcut]
      rfl

theorem World.not_mem_warnings_of_forkFailures {w : World Empty} (h : w.forkFailures = [])
    (node : NodeId) (cause : CutError) : Warning.forkFailed node cause ∉ w.warnings := by
  intro hmem
  have hnone := List.filterMap_eq_nil_iff.mp h _ (Array.mem_toList_iff.mpr hmem)
  cases hnone

/-- The law of balanced plants, in a garden in which no fork has failed. -/
def World.Unfailing (w : World Empty) (tasks : List (Task Empty))
    (waiting : List (Continuation Empty)) : Prop :=
  Law.brackets.Governs w tasks waiting ∧ w.forkFailures = []

/-- **Every step of growth keeps to the law, and no fork fails in it.** -/
theorem World.invariant_unfailing : Garden.Invariant World.Unfailing where
  perform := by
    rintro w task rest waiting ⟨hgoverns, hnone⟩
    refine ⟨Law.sound_brackets.invariant.perform hgoverns, ?_⟩
    have hhead := hgoverns.tasks.1
    by_cases hfork : ∃ closing node bundle baked, task = .call (.fork closing) node bundle baked
    · obtain ⟨closing, node, bundle, baked, rfl⟩ := hfork
      rcases hhead with hobeys | ⟨_, _, _, _, heq, hcall⟩
      · exact hobeys.elim
      · cases heq
        obtain ⟨_, _, _, _, -, -, -, hperform⟩ := World.forkSucceeds_of_calls hcall baked
        rw [hperform, hnone]
    · rw [Law.sound_brackets.forkFailures_perform hhead ?_, hnone]
      intro closing node bundle baked heq
      exact hfork ⟨closing, node, bundle, baked, heq⟩
  resume := by
    rintro w work waiting ⟨hgoverns, hnone⟩
    refine ⟨Law.sound_brackets.invariant.resume hgoverns, ?_⟩
    rw [(work.quiet_resume w).forkFailures, hnone]
  reorder := fun hperm h => ⟨Law.sound_brackets.invariant.reorder hperm h.1, h.2⟩
  unpark := fun h => ⟨Law.sound_brackets.invariant.unpark h.1, h.2⟩
  elapse := fun seconds h => ⟨Law.sound_brackets.invariant.elapse seconds h.1, h.2⟩

namespace Garden

variable {plan : PlantPlan}

theorem unfailing_seedbed (hplan : plan.Balanced) {settings : Settings} (seed : Seed Empty)
    (hseed : plan.seed = .ok seed) :
    World.Unfailing (seedbed plan settings) [rootTask plan seed] [] :=
  ⟨Law.governs_seedbed ⟨plan, hplan, hseed⟩, rfl⟩

/-- **No fork ever fails in a balanced plan**: every call of a fork, while the plan is planted or
ticked, cuts a branch out and hands both sentences on, and no garden has a warning of a failed fork.
-/
theorem forks_succeed (hplan : plan.Balanced) (settings : Settings) :
    (∀ w tasks, Underway plan settings w tasks →
        (∀ node cause, Warning.forkFailed node cause ∉ w.warnings) ∧
          ∀ closing node bundle baked rest, tasks = .call (.fork closing) node bundle baked :: rest →
            w.ForkSucceeds closing node bundle baked) ∧
      ∀ garden, Reached plan settings garden →
        ∀ node cause, Warning.forkFailed node cause ∉ garden.world.warnings := by
  constructor
  · intro w tasks hunderway
    obtain ⟨waiting, hgoverns, hnone⟩ :=
      World.invariant_unfailing.of_underway (unfailing_seedbed hplan) hunderway
    refine ⟨World.not_mem_warnings_of_forkFailures hnone, ?_⟩
    rintro closing node bundle baked rest rfl
    rcases hgoverns.tasks.1 with hobeys | ⟨_, _, _, _, heq, hcall⟩
    · exact hobeys.elim
    · cases heq
      exact World.forkSucceeds_of_calls hcall baked
  · intro garden hreached
    obtain ⟨-, hnone⟩ := World.invariant_unfailing.of_reached (unfailing_seedbed hplan) hreached
    exact World.not_mem_warnings_of_forkFailures hnone

/-- A baked plant with a side branch. -/
def sprig : PlantPlan where
  traits := { start := "F[F]F", baked := true }
  handlers := ⟨[('F', .move 1 1), ('[', .fork ']')]⟩

theorem balanced_sprig : sprig.Balanced := by
  have hbound : ∀ symbol handler, sprig.handlers.find? symbol = some handler →
      handler = .move 1 1 ∨ (symbol = '[' ∧ handler = .fork ']') := by
    intro symbol handler hfind
    rcases List.mem_cons.mp (SymbolTable.mem_of_find? hfind) with heq | hmem
    · exact Or.inl (congrArg Prod.snd heq)
    · have heq := List.mem_singleton.mp hmem
      exact Or.inr ⟨congrArg Prod.fst heq, congrArg Prod.snd heq⟩
  have hfork : ∀ opening closing, sprig.handlers.find? opening = some (.fork closing) →
      opening = '[' ∧ closing = ']' := by
    intro opening closing hfind
    rcases hbound opening _ hfind with heq | ⟨hopening, heq⟩
    · cases heq
    · cases heq
      exact ⟨hopening, rfl⟩
  refine PlantPlan.Balanced.intro ?_ ?_ ?_
  · intro opening closing other closing' hfind hfind'
    rw [(hfork _ _ hfind).1, (hfork _ _ hfind').1]
  · intro opening closing hfind
    obtain ⟨rfl, rfl⟩ := hfork _ _ hfind
    refine ⟨by decide, ?_, (balanced_iff (by decide)).mpr (by decide), ?_, ?_⟩
    · intro symbol shape hbranch
      rcases hbound symbol _ hbranch with heq | ⟨-, heq⟩
      · cases heq
      · cases heq
    · intro rules hrules
      cases hrules
      exact ⟨rfl, rfl⟩
    · intro rules symbol text hrules hreplacement
      cases hrules
      cases hreplacement
  · intro symbol inner hinner
    rcases hbound symbol _ hinner with heq | ⟨-, heq⟩
    · cases heq
    · cases heq

/-- The fork is called once, after the first move, and succeeds. Then both moves that follow are made. -/
theorem sprig_forks_succeed : sprig.Balanced ∧
    (∃ (m : Moment) (node : NodeId) (bundle : Bundle Empty) (baked : Bool) (rest : List (Task Empty)),
      Underway sprig {} m.world m.tasks ∧
        m.tasks = .call (.fork ']') node bundle baked :: rest ∧
        m.world.ForkSucceeds ']' node bundle baked) ∧
    ∃ garden, Reached sprig {} garden ∧ garden.world.dispatched = 4 ∧
      ∀ node cause, Warning.forkFailed node cause ∉ garden.world.warnings := by
  obtain ⟨seed, hseed, node, bundle, baked, rest, htasks⟩ : ∃ seed : Seed Empty,
      sprig.seed = .ok seed ∧ ∃ node bundle baked rest,
        ((Moment.start sprig seed {}).after 8).tasks =
          .call (.fork ']') node bundle baked :: rest := ⟨_, rfl, _, _, _, _, rfl⟩
  have hunderway : Underway sprig {} _ _ :=
    Underway.after (m := Moment.start sprig seed {}) (.planting hseed) 8
  obtain ⟨garden, hgarden, hdispatched⟩ : ∃ garden ∈ grown? sprig {} 30 0,
      garden.world.dispatched = 4 := by decide +kernel
  have hreached : Reached sprig {} garden := .of_grown? hgarden
  obtain ⟨hstages, hgardens⟩ := forks_succeed balanced_sprig {}
  obtain ⟨-, hsucceeds⟩ := hstages _ _ hunderway
  exact ⟨balanced_sprig, ⟨_, node, bundle, baked, rest, hunderway, htasks,
    hsucceeds ']' node bundle baked rest htasks⟩, garden, hreached, hdispatched,
    hgardens garden hreached⟩

end Garden
end PlantGrowth
