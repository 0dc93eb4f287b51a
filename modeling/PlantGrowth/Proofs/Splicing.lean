import PlantGrowth.Proofs.Cutting

/-!
# Splices

However a sentence is edited, a row of symbols comes to stand in the place of those in some range
(`Sentence.splice`). The edits differ only in the range and the row, and in what becomes of the cursor.
Where two splices begin at one place, and the second takes out just what the first put in, the first
might as well not have been made; so what was inserted can be removed without a trace.

* `Sentence.splice_splice`: of two splices at one place the second one counts.
* `Sentence.cut_takes_span`: when a cut succeeds, what it takes out and what it leaves.
* `Sentence.insert_leaves_no_trace`: insertions and removals undo each other, and adding symbols at
  either end is an insertion there.
-/

namespace PlantGrowth
namespace Sentence

variable {s : Sentence} {start count first last : Nat} {symbols row other : List Char}

/-! ## Ranges -/

/-- The sentence with a row in the place of `count` symbols, the first of them at `start`. The cursor
keeps its position. -/
def splice (s : Sentence) (start count : Nat) (row : List Char) : Sentence :=
  recount { s with symbols := s.symbols.take start ++ row ++ s.symbols.drop (start + count) }

/-- **Of two splices at one place the second one counts**, if it takes out what the first put in. -/
theorem splice_splice (h : start ≤ s.length) (count : Nat) (row other : List Char) :
    (s.splice start count row).splice start row.length other = s.splice start count other := by
  have hbefore : (s.symbols.take start).length = start := List.length_take_of_le h
  have hboth : (s.symbols.take start ++ row).length = start + row.length := by
    rw [List.length_append, hbefore]
  have htake : (s.symbols.take start ++ row ++ s.symbols.drop (start + count)).take start =
      s.symbols.take start := by
    rw [List.append_assoc, List.take_left' hbefore]
  have hdrop : (s.symbols.take start ++ row ++ s.symbols.drop (start + count)).drop
      (start + row.length) = s.symbols.drop (start + count) := List.drop_left' hboth
  rw [splice, splice]
  simp only [recount, htake, hdrop]
  rfl

/-- Nothing in the place of nothing. -/
theorem splice_zero_nil (s : Sentence) (start : Nat) : s.splice start 0 [] = s.recount := by
  rw [splice, List.append_nil, Nat.add_zero, List.take_append_drop]

/-- A row that begins behind the end begins at the end. -/
theorem splice_min (s : Sentence) (start : Nat) (row : List Char) :
    s.splice (min start s.length) 0 row = s.splice start 0 row := by
  rcases Nat.le_total start s.length with hle | hle
  · rw [Nat.min_eq_left hle]
  · rw [Nat.min_eq_right hle, splice, splice, Nat.add_zero, Nat.add_zero, length,
      List.take_length, List.drop_length, List.take_of_length_le hle, List.drop_of_length_le hle]

/-! ## The edits -/

theorem insert_eq_splice (s : Sentence) (index : Nat) (other : Sentence) :
    s.insert index other = s.splice index 0 other.symbols := rfl

theorem append_eq_splice (s : Sentence) (text : String) :
    s.append text = s.splice s.length 0 text.toList := by
  rw [splice, Nat.add_zero, length, List.take_length, List.drop_length, List.append_nil]
  rfl

theorem remove_of_le (h : start + count ≤ s.length) :
    s.remove start count = (.ok (), (s.splice start count []).clamp) := by
  rw [remove, if_neg (Nat.not_lt.mpr h), splice, List.append_nil]
  rfl

theorem remove_of_lt (h : s.length < start + count) :
    s.remove start count = (.error (.outOfBounds start (start + count) s.length), s) :=
  if_pos h

theorem length_splice (s : Sentence) (start count : Nat) (row : List Char) :
    (s.splice start count row).length =
      min start s.length + row.length + (s.length - (start + count)) := by
  rw [splice, recount, length, List.length_append, List.length_append, List.length_take,
    List.length_drop, length]

/-- A sentence that no read leaves needs no clamping and no counting. -/
theorem Sound.clamp_recount (h : s.Sound) : s.recount.clamp = s := by
  have hdistinct : countDistinct s.symbols = s.distinct := by
    rw [h.distinct, countDistinct_eq]
  have hrecount : s.recount = s := by rw [recount, hdistinct]
  rw [hrecount, clamp_of_lt h.upper]

/-- **What is inserted can be removed without a trace.** -/
theorem Sound.remove_insert (h : s.Sound) (index : Nat) (other : Sentence) :
    (s.insert index other).remove (min index s.length) other.length = (.ok (), s) := by
  have hstart : min index s.length ≤ s.length := Nat.min_le_right index s.length
  have hlength : min index s.length + other.length ≤
      (s.splice (min index s.length) 0 other.symbols).length := by
    rw [length_splice, Nat.min_eq_left hstart]
    exact Nat.le_add_right _ _
  have hundone : (s.splice (min index s.length) 0 other.symbols).splice (min index s.length)
      other.length [] = s.recount := by
    rw [← splice_zero_nil s (min index s.length)]
    exact splice_splice hstart 0 other.symbols []
  rw [insert_eq_splice, ← splice_min, remove_of_le hlength, hundone, h.clamp_recount]

/-- **Insertions and removals undo each other.** Whatever is inserted into a sentence that calls lead to,
and wherever, can be removed from there so that the sentence is what it was, with its cursor and all saved
positions. Adding symbols at the end or at the front is an insertion there. A removal is refused exactly
if its range ends behind the last symbol, and then nothing changes. -/
theorem insert_leaves_no_trace (h : s.Reachable) :
    (∀ index other,
      (s.insert index other).remove (min index s.length) other.length = (.ok (), s)) ∧
    (∀ text, (∀ index, s.length ≤ index → s.append text = s.insert index (ofString text)) ∧
      s.prepend text = s.insert 0 (ofString text)) ∧
    ∀ start count,
      ((s.remove start count).1 ≠ .ok () ↔ s.length < start + count) ∧
      ∀ cause after, s.remove start count = (.error cause, after) →
        cause = .outOfBounds start (start + count) s.length ∧ after = s := by
  refine ⟨h.sound.remove_insert, fun text => ⟨fun index hindex => ?_, rfl⟩, fun start count => ?_⟩
  · rw [append_eq_splice, insert_eq_splice, ← splice_min s index, Nat.min_eq_right hindex]
    rfl
  · rcases Nat.lt_or_ge s.length (start + count) with hlt | hle
    · rw [remove_of_lt hlt]
      refine ⟨iff_of_true nofun hlt, fun cause after heq => ?_⟩
      cases heq
      exact ⟨rfl, rfl⟩
    · rw [remove_of_le hle]
      exact ⟨iff_of_false (fun hne => hne rfl) (Nat.not_lt.mpr hle), nofun⟩

/-- A sentence with a saved position, read up to its last symbol but one. -/
def dogEared : Sentence := [Call.next, .save, .next, .next].foldl after (ofString "ABCB")

theorem dogEared_no_trace : dogEared.Reachable ∧ dogEared.cursor = 2 ∧ dogEared.saved = [0] ∧
    (dogEared.insert 9 (ofString "XBY")).remove 4 3 = (.ok (), dogEared) ∧
    dogEared.length ≤ 9 ∧ dogEared.append "XY" = dogEared.insert 9 (ofString "XY") ∧
    dogEared.remove 3 2 = (.error (.outOfBounds 3 5 4), dogEared) ∧ dogEared.length < 3 + 2 := by
  have hreachable : dogEared.Reachable := reachable_foldl (.ofString "ABCB") _
  obtain ⟨hundone, hends, hremove⟩ := insert_leaves_no_trace hreachable
  have hrefused : dogEared.remove 3 2 = (.error (.outOfBounds 3 5 4), dogEared) := by decide
  have hends' : dogEared.length ≤ 9 := by decide
  exact ⟨hreachable, rfl, rfl, hundone 9 (ofString "XBY"), hends', (hends "XY").1 9 hends', hrefused,
    (hremove 3 2).1.mp (by rw [hrefused]; nofun)⟩

/-! ## Cuts -/

/-- What is cut out of a sentence, and what is left of it, when the symbols between two positions are
cut out together with those at the positions. -/
structure CutOut (s : Sentence) (first last : Nat) (interior residue : Sentence) : Prop where
  /-- The interior is a sentence of its own, before its first read. -/
  fresh : interior = ofSymbols ((s.symbols.take last).drop (first + 1))
  symbols : residue.symbols = s.symbols.take first ++ s.symbols.drop (last + 1)
  cursor : residue.cursor = first - 1
  saved : s.saved = (first : Int) :: residue.saved
  distinct : residue.distinct = residue.symbols.toFinset.card ∧
    interior.distinct = interior.symbols.toFinset.card
  /-- Put together again, the parts and the two symbols at the positions are the sentence. -/
  whole : ∃ opening closing, s.symbols[first]? = some opening ∧ s.symbols[last]? = some closing ∧
    residue.symbols.take first ++ opening :: interior.symbols ++
      closing :: residue.symbols.drop first = s.symbols

theorem cut_of_span {rest : List Int} (hsaved : s.saved = (first : Int) :: rest)
    (hcursor : s.cursor = last) (hlt : first < last) (hlast : last < s.length) :
    s.cut = (.ok (ofSymbols ((s.symbols.take last).drop (first + 1))),
      recount { s with
        symbols := s.symbols.take first ++ s.symbols.drop (last + 1)
        cursor := first - 1
        saved := rest }) := by
  have hspan : ¬ ((first : Int) < 0 ∨ (last : Int) ≤ first ∨ (s.length : Int) ≤ last) := by omega
  simp only [cut, hsaved, hcursor, if_neg hspan, Int.toNat_natCast]

theorem cut_of_not_span {position : Int} {rest : List Int} (hsaved : s.saved = position :: rest)
    (hspan : ¬ (0 ≤ position ∧ position < s.cursor)) :
    s.cut = (.error (.invalidSpan position s.cursor), s) := by
  have hrefused : position < 0 ∨ s.cursor ≤ position ∨ (s.length : Int) ≤ s.cursor := by omega
  simp only [cut, hsaved, if_pos hrefused]

theorem cut_of_saved_eq_nil (hsaved : s.saved = []) :
    s.cut = (.error .emptyPositionStack, s) := by
  simp only [cut, hsaved]

/-- **A cut takes out the span from the saved position to the cursor, or nothing at all.** It succeeds
exactly if the position saved last stands on a symbol before the cursor, whenever it was saved and
whatever was edited since; and where it does not, the sentence stays as it was. -/
theorem cut_takes_span (h : s.Reachable) :
    (s.saved = [] → s.cut = (.error .emptyPositionStack, s)) ∧
    ∀ position rest, s.saved = position :: rest →
      (0 ≤ position ∧ position < s.cursor → ∃ (first last : Nat) (interior residue : Sentence),
        position = first ∧ s.cursor = last ∧ s.cut = (.ok interior, residue) ∧
          s.CutOut first last interior residue) ∧
      (¬ (0 ≤ position ∧ position < s.cursor) →
        s.cut = (.error (.invalidSpan position s.cursor), s)) := by
  refine ⟨cut_of_saved_eq_nil, fun position rest hsaved => ⟨fun hspan => ?_, cut_of_not_span hsaved⟩⟩
  obtain ⟨first, rfl⟩ := Int.eq_ofNat_of_zero_le hspan.1
  obtain ⟨last, hcursor⟩ := Int.eq_ofNat_of_zero_le (a := s.cursor) (by omega)
  have hlt : first < last := by omega
  have hlast : last < s.symbols.length := by
    have hupper := h.sound.upper
    rw [length] at hupper
    omega
  have hcut := cut_of_span hsaved hcursor hlt hlast
  have hbefore : (s.symbols.take first).length = first := List.length_take_of_le (by omega)
  refine ⟨first, last, _, _, rfl, hcursor, hcut, rfl, rfl, rfl, hsaved,
    ⟨countDistinct_eq _, countDistinct_eq _⟩, s.symbols[first], s.symbols[last],
    List.getElem?_eq_getElem (by omega), List.getElem?_eq_getElem hlast, ?_⟩
  show (s.symbols.take first ++ s.symbols.drop (last + 1)).take first ++ _ ++
    _ :: (s.symbols.take first ++ s.symbols.drop (last + 1)).drop first = _
  rw [List.take_left' hbefore, List.drop_left' hbefore]
  exact take_append_cons_take_drop_append_cons_drop hlt (List.getElem?_eq_getElem (by omega))
    (List.getElem?_eq_getElem hlast)

/-- Symbols were put in front of a position after it was saved. -/
def displaced : Sentence :=
  [Call.next, .next, .save, .next, .next, .prepend "XY"].foldl after (ofString "ABCD")

theorem displaced_takes_span : displaced.Reachable ∧ displaced.saved = [(1 : Int)] ∧
    (0 ≤ (1 : Int) ∧ 1 < displaced.cursor) ∧
    (∃ (first last : Nat) (interior residue : Sentence), (1 : Int) = first ∧
      displaced.cursor = last ∧ displaced.cut = (.ok interior, residue) ∧
      displaced.CutOut first last interior residue) ∧
    displaced.cut = (.ok (ofString "A"), { ofString "XCD" with cursor := 0 }) ∧
    (displaced.save.cut = (.error (.invalidSpan 3 3), displaced.save)) := by
  have hreachable : displaced.Reachable := reachable_foldl (.ofString "ABCD") _
  have hspan : 0 ≤ (1 : Int) ∧ 1 < displaced.cursor := by decide
  exact ⟨hreachable, rfl, hspan, ((cut_takes_span hreachable).2 1 [] rfl).1 hspan, by decide,
    ((cut_takes_span (hreachable.after .save)).2 3 [1] rfl).2 (by decide)⟩

end Sentence
end PlantGrowth
