import PlantGrowth.Proofs.Chain
import PlantGrowth.Proofs.Splicing

/-!
# Generations, symbol by symbol

A rule sees one symbol and nothing around it. So rewriting a row of symbols in two parts is the same as
rewriting it whole, and this stays so however often the rules are applied: what a sentence becomes in some
generation is what each of its symbols becomes, one after the other (`RuleSet.offspring`). Neither where
the sentence was read to nor what was saved in it plays a part, and a generation after the first one is a
sentence that nothing was read of.

* `RuleSet.symbols_generation_append`: the generations of two rows, one behind the other.
* `RuleSet.symbols_generation_eq_flatMap`: the generations of a row by those of its symbols.
* `RuleSet.generation_symbolwise`: both, with what a generation does not depend on, for all rules.
* `RuleSet.symbols_generation_of_cutOut`: a branch may be cut out before the rules are applied.
-/

namespace PlantGrowth
namespace RuleSet

variable {rules : RuleSet} {n : Nat} {s t x y : Sentence}

/-! ## One generation -/

theorem symbols_apply_append (hfertile : rules.fertile) (h : s.symbols = x.symbols ++ y.symbols) :
    (rules.apply s).symbols = (rules.apply x).symbols ++ (rules.apply y).symbols := by
  rw [symbols_apply hfertile, symbols_apply hfertile, symbols_apply hfertile, h, List.flatMap_append]

/-- The next generation is a sentence before its first read. -/
theorem ofSymbols_symbols_apply (rules : RuleSet) (s : Sentence) :
    Sentence.ofSymbols (rules.apply s).symbols = rules.apply s := by
  rw [apply]
  split
  · rfl
  · rfl

theorem apply_of_infertile (h : ¬ rules.fertile) (s : Sentence) : rules.apply s = .empty := by
  rw [apply, if_neg h]

/-! ## All generations -/

/-- The last of the generations is the next one of those before it. -/
theorem generation_succ (rules : RuleSet) (n : Nat) (s : Sentence) :
    rules.generation (n + 1) s = rules.apply (rules.generation n s) := by
  rw [generation_add, generation, generation]

/-- **Two rows are rewritten one behind the other**, in any generation. -/
theorem symbols_generation_append (hfertile : rules.fertile) (n : Nat)
    (h : s.symbols = x.symbols ++ y.symbols) :
    (rules.generation n s).symbols =
      (rules.generation n x).symbols ++ (rules.generation n y).symbols := by
  induction n generalizing s x y with
  | zero => exact h
  | succ n ih => exact ih (symbols_apply_append hfertile h)

theorem symbols_generation_of_blank (n : Nat) (h : s.symbols = []) :
    (rules.generation n s).symbols = [] := by
  induction n generalizing s with
  | zero => exact h
  | succ n ih => exact ih (symbols_apply_of_blank h)

theorem symbols_generation_congr (n : Nat) (h : s.symbols = t.symbols) :
    (rules.generation n s).symbols = (rules.generation n t).symbols := by
  cases n with
  | zero => exact h
  | succ n => rw [generation, generation, apply_congr h]

/-- What a symbol becomes in a generation. -/
def offspring (rules : RuleSet) (n : Nat) (symbol : Char) : List Char :=
  (rules.generation n (.ofSymbols [symbol])).symbols

/-- **What a row becomes is what its symbols become**, in any generation. -/
theorem symbols_generation_eq_flatMap (hfertile : rules.fertile) (n : Nat) (s : Sentence) :
    (rules.generation n s).symbols = s.symbols.flatMap (rules.offspring n) := by
  induction hsymbols : s.symbols generalizing s with
  | nil => exact symbols_generation_of_blank n hsymbols
  | cons symbol rest ih =>
    have hparts : s.symbols = (Sentence.ofSymbols [symbol]).symbols ++
        (Sentence.ofSymbols rest).symbols := hsymbols
    rw [symbols_generation_append hfertile n hparts, ih (.ofSymbols rest) rfl, List.flatMap_cons]
    rfl

/-- **Generations are made symbol by symbol.** In any generation, and whatever becomes of symbols without
a rule, two rows are rewritten one behind the other, and so a row is rewritten one symbol after the other.
Only the symbols of the sentence matter; from the first generation on all of it depends on them alone, and
nothing of it is read or saved. An infertile table has no generation but empty ones. -/
theorem generation_symbolwise (rules : RuleSet) (n : Nat) :
    (rules.fertile →
      (∀ s x y : Sentence, s.symbols = x.symbols ++ y.symbols → (rules.generation n s).symbols =
        (rules.generation n x).symbols ++ (rules.generation n y).symbols) ∧
      ∀ s : Sentence, (rules.generation n s).symbols = s.symbols.flatMap fun symbol =>
        (rules.generation n (Sentence.ofSymbols [symbol])).symbols) ∧
    (∀ s t : Sentence, s.symbols = t.symbols →
      (rules.generation n s).symbols = (rules.generation n t).symbols) ∧
    (0 < n →
      (∀ s t : Sentence, s.symbols = t.symbols → rules.generation n s = rules.generation n t) ∧
      (∀ s : Sentence, (rules.generation n s).cursor = -1 ∧ (rules.generation n s).saved = []) ∧
      (¬ rules.fertile → ∀ s : Sentence, rules.generation n s = Sentence.empty)) := by
  refine ⟨fun hfertile => ⟨fun s x y h => symbols_generation_append hfertile n h,
    symbols_generation_eq_flatMap hfertile n⟩, fun s t h => symbols_generation_congr n h,
    fun hpos => ?_⟩
  obtain ⟨last, rfl⟩ := Nat.exists_eq_add_of_lt hpos
  rw [Nat.zero_add]
  have hfresh (s : Sentence) : rules.generation (last + 1) s =
      Sentence.ofSymbols (rules.generation (last + 1) s).symbols := by
    rw [generation_succ, ofSymbols_symbols_apply]
  refine ⟨fun s t h => ?_, fun s => ?_, fun hinfertile s => ?_⟩
  · rw [hfresh s, hfresh t, symbols_generation_congr (last + 1) h]
  · rw [hfresh s]
    exact ⟨rfl, rfl⟩
  · rw [generation_succ, apply_of_infertile hinfertile]

/-- Rules that leave out what they do not mention, brackets too. -/
def creeper : RuleSet :=
  { table := (SymbolTable.empty.insert 'A' "B[A]").insert 'B' "BB", fallback := .drop }

/-- A sentence that was read to its end, with a position saved. -/
def runner : Sentence := [Sentence.Call.next, .save, .next].foldl Sentence.after (.ofString "xA")

theorem creeper_symbolwise :
    creeper.fertile ∧ (runner.append "BA").symbols = runner.symbols ++ (Sentence.ofString "BA").symbols ∧
      (creeper.generation 2 (runner.append "BA")).symbols =
        (creeper.generation 2 runner).symbols ++ (creeper.generation 2 (.ofString "BA")).symbols ∧
      creeper.generation 2 (runner.append "BA") = .ofString "BBB[A]BBBBBBB[A]" ∧
    0 < 2 ∧ ¬ ({ creeper with fertile := false } : RuleSet).fertile ∧
      ({ creeper with fertile := false } : RuleSet).generation 2 runner = .empty := by
  have hinfertile : ¬ ({ creeper with fertile := false } : RuleSet).fertile := by decide
  exact ⟨rfl, by decide, ((generation_symbolwise creeper 2).1 rfl).1 _ runner (.ofString "BA") (by decide),
    by decide, by decide, hinfertile,
    ((generation_symbolwise { creeper with fertile := false } 2).2.2 (by decide)).2.2 hinfertile runner⟩

/-! ## Where it is used -/

/-- **A branch may be cut out before the rules are applied or after.** What the two parts become, and the
brackets between them, is what the sentence becomes. -/
theorem symbols_generation_of_cutOut (hfertile : rules.fertile) (n : Nat) {first last : Nat}
    {interior residue : Sentence} (h : s.CutOut first last interior residue) :
    ∃ before behind opening closing,
      s.symbols[first]? = some opening ∧ s.symbols[last]? = some closing ∧
      (rules.generation n residue).symbols = before ++ behind ∧
      (rules.generation n s).symbols = before ++ rules.offspring n opening ++
        (rules.generation n interior).symbols ++ rules.offspring n closing ++ behind := by
  obtain ⟨opening, closing, hopening, hclosing, hwhole⟩ := h.whole
  refine ⟨(residue.symbols.take first).flatMap (rules.offspring n),
    (residue.symbols.drop first).flatMap (rules.offspring n), opening, closing, hopening, hclosing, ?_, ?_⟩
  · rw [symbols_generation_eq_flatMap hfertile, ← List.flatMap_append, List.take_append_drop]
  · rw [symbols_generation_eq_flatMap hfertile, symbols_generation_eq_flatMap hfertile, ← hwhole]
    simp only [List.flatMap_append, List.flatMap_cons, List.append_assoc]

end RuleSet

/-- **A plant whose rules are applied in advance reads what the symbols of its start become**, one after
the other. -/
theorem Seed.symbols_grammar_of_inAdvance {H : Type} {seed : Seed H}
    (hmode : seed.traits.mode = .inAdvance) (hfertile : seed.traits.rules.fertile) :
    seed.grammar.1.symbols = seed.traits.start.toList.flatMap
      (seed.traits.rules.offspring seed.traits.iterations.toNat) := by
  rw [grammar, hmode]
  exact RuleSet.symbols_generation_eq_flatMap hfertile _ _

end PlantGrowth
