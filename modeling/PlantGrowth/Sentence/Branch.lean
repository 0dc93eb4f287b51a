import PlantGrowth.Sentence.Basic
import PlantGrowth.Text.Quoted

/-!
# Cutting a branch out of a sentence

A bracketed part of a sentence describes a branch. With the cursor on the opening symbol,
`takeBranch` finds the closing symbol that balances it, removes the bracketed part and returns its
interior, so that both can be read on independently.
-/

namespace PlantGrowth

/-- Why no branch could be cut. -/
inductive CutError where
  /-- The sentence ends before the bracket is closed. -/
  | unbalanced (opening closing : Char) (start : Int)
  /-- The sentence refused the cut. -/
  | sentence (cause : SentenceError)
  deriving DecidableEq, Repr

/-- The text shown to the user. -/
def CutError.message : CutError → String
  | .unbalanced opening closing start =>
    let closingText := quotedSymbol closing
    let openingText := quotedSymbol opening
    s!"no {closingText} closes the {openingText} at position {start}"
  | .sentence cause => cause.message

namespace Sentence

/-- How many symbols of a row are read until `depth` open brackets are closed, the last closing
symbol included. A symbol that is both opening and closing closes. -/
def closingAfter (opening closing : Char) : Nat → List Char → Option Nat
  | _, [] => none
  | depth, symbol :: rest =>
    if symbol = closing then
      if depth ≤ 1 then some 1 else (closingAfter opening closing (depth - 1) rest).map (· + 1)
    else if symbol = opening then (closingAfter opening closing (depth + 1) rest).map (· + 1)
    else (closingAfter opening closing depth rest).map (· + 1)

/-- Cuts out the branch opened at the cursor, which must stand on the opening symbol: the bracketed
part leaves the sentence, whose cursor then stands just before the gap, and its interior is
returned. -/
def takeBranch (s : Sentence) (opening closing : Char) : Except CutError Sentence × Sentence :=
  let marked := s.save
  match closingAfter opening closing 1 s.unread with
  | some count =>
    match cut { marked with cursor := s.cursor + count } with
    | (.ok interior, residue) => (.ok interior, residue)
    | (.error cause, residue) => (.error (.sentence cause), residue)
  | none => (.error (.unbalanced opening closing s.cursor), marked.restore.2)

end Sentence
end PlantGrowth
