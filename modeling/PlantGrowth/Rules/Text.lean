import PlantGrowth.Rules.Basic
import PlantGrowth.Text.Blank
import PlantGrowth.Text.Quoted

/-!
# Rules as text

Rules are written `F -> F[+F]F`, one to a line or separated by semicolons. Blank entries and entries
that start with `#` count for nothing, not even in the numbering of faulty entries. Blanks around
the symbol and anywhere in the replacement are dropped; the replacement may be empty.
-/

namespace PlantGrowth

/-- Why a text is not a table of rules. Entries are counted from 0. -/
inductive RuleError where
  /-- An entry has no arrow. -/
  | missingArrow (index : Nat) (entry : String)
  /-- What stands before the arrow is not one symbol. -/
  | invalidPredecessor (index : Nat) (found : String)
  /-- A symbol has two rules. -/
  | duplicateRule (symbol : Char)
  deriving DecidableEq, Repr

/-- The text shown to the user. -/
def RuleError.message : RuleError → String
  | .missingArrow index entry =>
    let entryText := quoted entry
    s!"rule {index} is missing '->': {entryText}"
  | .invalidPredecessor index found =>
    let foundText := quoted found
    s!"rule {index} must rewrite exactly one symbol, found {foundText}"
  | .duplicateRule symbol =>
    let symbolText := quotedSymbol symbol
    s!"duplicate rule for symbol {symbolText}"

namespace RuleSet

/-- The pieces of a text between its newlines and semicolons. -/
def pieces : List Char → List (List Char)
  | [] => [[]]
  | c :: rest =>
    if c = '\n' ∨ c = ';' then [] :: pieces rest
    else
      match pieces rest with
      | [] => [[c]]
      | piece :: others => (c :: piece) :: others

/-- Does a trimmed piece hold a rule? -/
def isEntry : List Char → Bool
  | [] => false
  | c :: _ => c ≠ '#'

/-- The trimmed pieces of a text that hold rules. -/
def entriesOf (text : List Char) : List (List Char) :=
  ((pieces text).map trimBlanks).filter isEntry

/-- What stands before and after the first arrow. -/
def splitArrow : List Char → Option (List Char × List Char)
  | [] => none
  | c :: rest =>
    match c, rest with
    | '-', '>' :: after => some ([], after)
    | _, _ => (splitArrow rest).map fun parts => (c :: parts.1, parts.2)

/-- The rule written in one entry. -/
def parseEntry (index : Nat) (entry : List Char) : Except RuleError (Char × String) :=
  match splitArrow entry with
  | none => .error (.missingArrow index (String.ofList entry))
  | some (before, after) =>
    match trimBlanks before with
    | [symbol] => .ok (symbol, String.ofList (after.filter fun c => !isBlank c))
    | found => .error (.invalidPredecessor index (String.ofList found))

/-- Adds the rules of a row of entries, the first of which has the number `index`. -/
def parseEntries (index : Nat) (rules : RuleSet) : List (List Char) → Except RuleError RuleSet
  | [] => .ok rules
  | entry :: rest =>
    match parseEntry index entry with
    | .error e => .error e
    | .ok (symbol, replacement) =>
      if rules.table.contains symbol then .error (.duplicateRule symbol)
      else parseEntries (index + 1) (rules.insert symbol replacement) rest

/-- Reads a table of rules. The first faulty entry decides the error. -/
def parse (text : String) : Except RuleError RuleSet :=
  parseEntries 0 {} (entriesOf text.toList)

end RuleSet
end PlantGrowth
