import PlantGrowth.Sentence.Basic
import PlantGrowth.Symbol.Table

/-!
# Production rules

A rule exchanges one symbol for a text. The rules apply to all symbols of a sentence at once, so the
next generation of a sentence is the concatenation of what its symbols become.
-/

namespace PlantGrowth

/-- What becomes of a symbol without a rule. -/
inductive Fallback where
  /-- It stays. -/
  | keep
  /-- It is left out. -/
  | drop
  deriving DecidableEq, Repr, Inhabited

/-- A table of rules. An infertile one has no next generation. -/
structure RuleSet where
  fertile : Bool := true
  table : SymbolTable String := {}
  fallback : Fallback := .keep
  deriving DecidableEq, Repr, Inhabited

namespace RuleSet

/-- The replacement of a symbol. -/
def find? (rules : RuleSet) (symbol : Char) : Option String := rules.table.find? symbol

/-- Sets the replacement of a symbol, whatever it was before. -/
def insert (rules : RuleSet) (symbol : Char) (replacement : String) : RuleSet :=
  { rules with table := rules.table.insert symbol replacement }

/-- What a symbol becomes in the next generation. -/
def successor (rules : RuleSet) (symbol : Char) : List Char :=
  match rules.find? symbol with
  | some replacement => replacement.toList
  | none =>
    match rules.fallback with
    | .keep => [symbol]
    | .drop => []

/-- The next generation of a sentence: all its symbols are replaced, those already read too. -/
def apply (rules : RuleSet) (s : Sentence) : Sentence :=
  if rules.fertile then .ofSymbols (s.symbols.flatMap rules.successor) else .empty

theorem symbols_apply {rules : RuleSet} (h : rules.fertile) (s : Sentence) :
    (rules.apply s).symbols = s.symbols.flatMap rules.successor := by
  simp [apply, h, Sentence.ofSymbols]

theorem symbols_apply_of_infertile {rules : RuleSet} (h : ¬ rules.fertile) (s : Sentence) :
    (rules.apply s).symbols = [] := by
  simp [apply, h, Sentence.empty, Sentence.ofSymbols]

/-- The `n`-th generation of a sentence. -/
def generation (rules : RuleSet) : Nat → Sentence → Sentence
  | 0, s => s
  | n + 1, s => generation rules n (rules.apply s)

/-- The generations after the `m`-th are those of the `m`-th. -/
theorem generation_add (rules : RuleSet) (m n : Nat) (s : Sentence) :
    rules.generation (m + n) s = rules.generation n (rules.generation m s) := by
  induction m generalizing s with
  | zero => rw [Nat.zero_add, generation]
  | succ m ih => rw [Nat.succ_add, generation, ih, generation]

end RuleSet
end PlantGrowth
