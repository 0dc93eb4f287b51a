/-!
# Sentences

A sentence is a row of symbols with a reading cursor. The cursor stands on the symbol that was read
last, and on -1 before the first one; so the unread part of a fresh sentence is all of it. A stack
of saved cursor positions marks where a bracketed part began, for `cut` to take it out.

An operation that can fail says so beside the sentence it leaves behind, because not every failing
operation leaves the sentence as it was.
-/

namespace PlantGrowth

/-- What a read returns when there is nothing to read. -/
def sentinel : Char := '\x00'

/-- Why an edit of a sentence was refused. -/
inductive SentenceError where
  /-- A saved position was asked for, and none is there. -/
  | emptyPositionStack
  /-- The saved position and the cursor enclose nothing to cut. -/
  | invalidSpan (start stop : Int)
  /-- The range to remove ends past the last symbol. -/
  | outOfBounds (start stop length : Nat)
  deriving DecidableEq, Repr

/-- The text shown to the user. -/
def SentenceError.message : SentenceError → String
  | .emptyPositionStack => "pop_and_cut called without a saved position"
  | .invalidSpan start stop =>
    s!"invalid cut span: saved position {start}, current position {stop}"
  | .outOfBounds start stop length =>
    s!"remove range {start}..{stop} out of bounds for length {length}"

/-- Symbols with a cursor, a stack of saved cursors (latest first) and a count of the distinct
symbols. -/
structure Sentence where
  symbols : List Char
  cursor : Int
  saved : List Int
  distinct : Nat
  deriving DecidableEq, Repr

namespace Sentence

/-- The number of different symbols in a row of symbols. -/
def countDistinct (symbols : List Char) : Nat := symbols.eraseDups.length

/-- The zero sentence. Its cursor is 0, where a sentence without symbols has nothing to stand on,
and not -1 as in `empty`. -/
instance : Inhabited Sentence := ⟨⟨[], 0, [], 0⟩⟩

/-- A sentence before its first read. -/
def ofSymbols (symbols : List Char) : Sentence := ⟨symbols, -1, [], countDistinct symbols⟩

/-- A sentence before its first read. -/
def ofString (text : String) : Sentence := ofSymbols text.toList

/-- The sentence without symbols, before its first read. -/
def empty : Sentence := ofSymbols []

/-- The symbols as a text. -/
def text (s : Sentence) : String := String.ofList s.symbols

/-- The number of symbols. -/
def length (s : Sentence) : Nat := s.symbols.length

/-- Are there no symbols? -/
def isEmpty (s : Sentence) : Bool := s.symbols.isEmpty

/-- Does a symbol follow the cursor? -/
def hasUnread (s : Sentence) : Bool := s.cursor + 1 < s.length

/-- The symbol at a position, and the sentinel outside the sentence. -/
def symbolAt (s : Sentence) (position : Int) : Char :=
  if position < 0 then sentinel else s.symbols.getD position.toNat sentinel

/-- The symbol under the cursor. -/
def current (s : Sentence) : Char := s.symbolAt s.cursor

/-- The symbol after the cursor. -/
def peek (s : Sentence) : Char := if s.hasUnread then s.symbolAt (s.cursor + 1) else sentinel

/-- Moves the cursor one symbol on; at the end it stays. -/
def advance (s : Sentence) : Sentence :=
  if s.hasUnread then { s with cursor := s.cursor + 1 } else s

/-- Reads the next symbol. At the end the last symbol is read again. -/
def next (s : Sentence) : Char × Sentence := (s.advance.current, s.advance)

/-- The sentence after a number of reads. -/
def advanceBy : Nat → Sentence → Sentence
  | 0, s => s
  | n + 1, s => advanceBy n s.advance

/-- The symbols that are still to be read. -/
def unread (s : Sentence) : List Char := s.symbols.drop (s.cursor + 1).toNat

@[simp] theorem unread_ofSymbols (symbols : List Char) : (ofSymbols symbols).unread = symbols := rfl

/-- A symbol follows the cursor exactly if something is unread. No cursor stands before -1. -/
theorem hasUnread_iff {s : Sentence} (h : -1 ≤ s.cursor) : s.hasUnread ↔ s.unread ≠ [] := by
  have hlength : s.cursor + 1 < s.length ↔ (s.cursor + 1).toNat < s.symbols.length := by
    simp only [length]
    omega
  simp [hasUnread, unread, List.drop_eq_nil_iff, hlength]

/-- A read takes the first of the unread symbols and leaves the others. -/
theorem next_of_unread_eq_cons {s : Sentence} {symbol : Char} {rest : List Char}
    (h : -1 ≤ s.cursor) (hs : s.unread = symbol :: rest) :
    s.next.1 = symbol ∧ s.next.2.unread = rest := by
  have hnext : s.hasUnread = true := (hasUnread_iff h).mpr (by simp [hs])
  obtain ⟨n, hn⟩ : ∃ n : Nat, s.cursor + 1 = n := ⟨(s.cursor + 1).toNat, by omega⟩
  have hdrop : s.symbols.drop n = symbol :: rest := by
    rw [← hs, unread, hn, Int.toNat_natCast]
  have hsymbol : s.symbols[n]? = some symbol := by
    rw [← List.head?_drop, hdrop, List.head?_cons]
  constructor
  · have hpos : ¬ (n : Int) < 0 := by omega
    simp only [next, advance, hnext, if_true, current, symbolAt, hn, hpos, if_false,
      Int.toNat_natCast, List.getD_eq_getElem?_getD, hsymbol, Option.getD_some]
  · simp only [next, advance, hnext, if_true, unread, hn]
    have htail : ((n : Int) + 1).toNat = n + 1 := by omega
    rw [htail, ← List.drop_drop, hdrop, List.drop_one, List.tail_cons]

/-- Counts the distinct symbols again, after an edit. -/
def recount (s : Sentence) : Sentence := { s with distinct := countDistinct s.symbols }

/-- Moves a cursor that is past the last symbol back onto it. -/
def clamp (s : Sentence) : Sentence := { s with cursor := min s.cursor (s.length - 1) }

/-- Saves the cursor. -/
def save (s : Sentence) : Sentence := { s with saved := s.cursor :: s.saved }

/-- Moves the cursor to the position saved last, which is forgotten. -/
def restore (s : Sentence) : Except SentenceError Unit × Sentence :=
  match s.saved with
  | [] => (.error .emptyPositionStack, s)
  | position :: rest => (.ok (), clamp { s with cursor := position, saved := rest })

/-- Takes out the symbols from the position saved last up to the cursor, both included, and returns
the ones between them as a sentence of their own. The cursor is left just before the gap. Fails
where the saved position is not before the cursor or lies outside the sentence; the sentence then
stays as it was. -/
def cut (s : Sentence) : Except SentenceError Sentence × Sentence :=
  match s.saved with
  | [] => (.error .emptyPositionStack, s)
  | start :: rest =>
    if start < 0 ∨ s.cursor ≤ start ∨ (s.length : Int) ≤ s.cursor then
      (.error (.invalidSpan start s.cursor), s)
    else
      let first := start.toNat
      let last := s.cursor.toNat
      (.ok (ofSymbols ((s.symbols.take last).drop (first + 1))),
        recount { s with
          symbols := s.symbols.take first ++ s.symbols.drop (last + 1)
          cursor := start - 1
          saved := rest })

/-- Exchanges the symbols. -/
def set (s : Sentence) (text : String) : Sentence :=
  recount (clamp { s with symbols := text.toList })

/-- Adds symbols at the end. -/
def append (s : Sentence) (text : String) : Sentence :=
  recount { s with symbols := s.symbols ++ text.toList }

/-- Adds symbols at the front. The cursor keeps its position, not its symbol. -/
def prepend (s : Sentence) (text : String) : Sentence :=
  recount { s with symbols := text.toList ++ s.symbols }

/-- Takes out `count` symbols from `start` on. -/
def remove (s : Sentence) (start count : Nat) : Except SentenceError Unit × Sentence :=
  if s.length < start + count then
    (.error (.outOfBounds start (start + count) s.length), s)
  else
    (.ok (), recount (clamp
      { s with symbols := s.symbols.take start ++ s.symbols.drop (start + count) }))

/-- Puts the symbols of another sentence in, the first of them at `index`, or at the end if the
sentence is shorter than that. -/
def insert (s : Sentence) (index : Nat) (other : Sentence) : Sentence :=
  recount { s with symbols := s.symbols.take index ++ other.symbols ++ s.symbols.drop index }

end Sentence
end PlantGrowth
