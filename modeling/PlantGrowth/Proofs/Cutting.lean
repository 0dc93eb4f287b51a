import PlantGrowth.Proofs.Brackets
import PlantGrowth.Proofs.Editing

/-!
# Where a bracket closes

A branch is cut out of a sentence by a search that counts open brackets and ends when none is left.
What the search finds is said here without it: the bracket opened just before a position closes where,
for the first time from there on, one more bracket is closed than is opened (`Sentence.ClosesAt`). The
number of brackets that a row opens beyond those it closes is its `rise`.

* `Sentence.closesAt_iff`: the search finds the place where the bracket closes, and nothing else.
* `Sentence.takeBranch_matches`: with the cursor on a symbol, the part up to that place is cut out, and
  where there is no such place the sentence stays as it was.
* `Sentence.takeBranch_keeps_iff`: before the first read a part may be found that cannot be cut, and
  then, and only then, a refusal does not leave the sentence as it was.
-/

namespace PlantGrowth

/-- How many more brackets a row of symbols opens than it closes. A symbol that is both opening and
closing closes. -/
def rise (opening closing : Char) (symbols : List Char) : Int :=
  ((if opening = closing then 0 else symbols.count opening : Nat) : Int) - symbols.count closing

variable {opening closing : Char} {depth count : Nat} {symbols : List Char}

@[simp] theorem rise_nil : rise opening closing [] = 0 := by
  simp [rise]

theorem rise_cons (symbol : Char) (rest : List Char) :
    rise opening closing (symbol :: rest) =
      rise opening closing [symbol] + rise opening closing rest := by
  unfold rise
  rw [List.count_cons, List.count_cons, List.count_singleton, List.count_singleton]
  split <;> omega

theorem rise_closing : rise opening closing [closing] = -1 := by
  by_cases heq : opening = closing
  · simp [rise, heq]
  · simp [rise, heq, Ne.symm heq]

theorem rise_opening (hne : opening ≠ closing) : rise opening closing [opening] = 1 := by
  simp [rise, hne]

theorem rise_other {symbol : Char} (hopening : symbol ≠ opening) (hclosing : symbol ≠ closing) :
    rise opening closing [symbol] = 0 := by
  simp [rise, hopening, hclosing]

namespace Sentence

/-! ## The search -/

/-- **One symbol raises the depth by its rise**, and at depth 0 the search is over. -/
theorem exists_closingAfter_cons (hdepth : 0 < depth) (symbol : Char) (rest : List Char) :
    ∃ next : Nat, (next : Int) = depth + rise opening closing [symbol] ∧
      closingAfter opening closing depth (symbol :: rest) =
        if next = 0 then some 1 else (closingAfter opening closing next rest).map (· + 1) := by
  obtain ⟨depth, rfl⟩ : ∃ less, depth = less + 1 := ⟨depth - 1, by omega⟩
  by_cases hclosing : symbol = closing
  · subst hclosing
    refine ⟨depth, ?_, closingAfter_closing depth rest⟩
    rw [rise_closing]
    omega
  · by_cases hopening : symbol = opening
    · subst hopening
      refine ⟨depth + 2, ?_, ?_⟩
      · rw [rise_opening hclosing]
        omega
      · rw [closingAfter_opening hclosing, if_neg (by omega)]
    · refine ⟨depth + 1, ?_, ?_⟩
      · rw [rise_other hopening hclosing]
        omega
      · rw [closingAfter_other hopening hclosing, if_neg (by omega)]

/-- **Where the search ends no bracket is open**, and everywhere before some bracket is. -/
theorem rise_of_closingAfter (hdepth : 0 < depth)
    (h : closingAfter opening closing depth symbols = some count) :
    depth + rise opening closing (symbols.take count) = 0 ∧
      ∀ n < count, 0 < depth + rise opening closing (symbols.take n) := by
  induction symbols generalizing depth count with
  | nil => cases h
  | cons symbol rest ih =>
    have hstart : 0 < depth + rise opening closing ((symbol :: rest).take 0) := by
      rw [List.take_zero, rise_nil]
      omega
    obtain ⟨next, hnext, hsearch⟩ := exists_closingAfter_cons hdepth symbol rest
    rw [hsearch] at h
    split at h
    next hlast =>
      cases h
      refine ⟨?_, fun n hn => ?_⟩
      · rw [List.take_succ_cons, List.take_zero]
        omega
      · obtain rfl : n = 0 := by omega
        exact hstart
    next hmore =>
      obtain ⟨before, hbefore, rfl⟩ := Option.map_eq_some_iff.mp h
      obtain ⟨hzero, hopen⟩ := ih (Nat.pos_of_ne_zero hmore) hbefore
      refine ⟨?_, fun n hn => ?_⟩
      · rw [List.take_succ_cons, rise_cons]
        omega
      · cases n with
        | zero => exact hstart
        | succ n =>
          have hrest := hopen n (by omega)
          rw [List.take_succ_cons, rise_cons]
          omega

/-- A search that finds nothing has a bracket open all the way. -/
theorem rise_of_closingAfter_eq_none (hdepth : 0 < depth)
    (h : closingAfter opening closing depth symbols = none) (n : Nat) :
    0 < depth + rise opening closing (symbols.take n) := by
  induction symbols generalizing depth n with
  | nil =>
    rw [List.take_nil, rise_nil]
    omega
  | cons symbol rest ih =>
    obtain ⟨next, hnext, hsearch⟩ := exists_closingAfter_cons hdepth symbol rest
    rw [hsearch] at h
    split at h
    · cases h
    next hmore =>
      cases n with
      | zero =>
        rw [List.take_zero, rise_nil]
        omega
      | succ n =>
        have hrest := ih (Nat.pos_of_ne_zero hmore) (Option.map_eq_none_iff.mp h) n
        rw [List.take_succ_cons, rise_cons]
        omega

/-- **Inside a bracket that closes all brackets are balanced.** -/
theorem balanced_of_closingAfter (hne : opening ≠ closing)
    (h : closingAfter opening closing 1 symbols = some (count + 1)) :
    Balanced opening closing (symbols.take count) := by
  obtain ⟨hzero, hopen⟩ := rise_of_closingAfter Nat.one_pos h
  have hcounts : ∀ row, rise opening closing row = row.count opening - row.count closing := by
    intro row
    rw [rise, if_neg hne]
  refine ⟨fun row rest hsplit => ?_, ?_⟩
  · have hinitial : row <+: symbols.take count := ⟨rest, hsplit.symm⟩
    have hrow := List.prefix_iff_eq_take.mp (hinitial.trans (List.take_prefix count symbols))
    have hle := hinitial.length_le
    rw [List.length_take] at hle
    have hstill := hopen row.length (by omega)
    rw [← hrow, hcounts] at hstill
    omega
  · -- The closing symbol itself lowers the rise from 0 to -1.
    have hlast : symbols[count]? = some closing := getElem?_of_closingAfter h
    rw [List.take_add_one, hlast, Option.toList_some, hcounts, List.count_append,
      List.count_append, List.count_singleton_self, List.count_singleton,
      if_neg (by simpa using Ne.symm hne)] at hzero
    omega

/-! ## The place -/

variable {s : Sentence} {first last p q n : Nat}

/-- The symbols from one position up to another one, that one included. -/
def span (s : Sentence) (first last : Nat) : List Char := (s.symbols.take (last + 1)).drop first

/-- The bracket that is opened just before `first` closes at `last`: there, for the first time, one
more bracket was closed than was opened. -/
structure ClosesAt (s : Sentence) (opening closing : Char) (first last : Nat) : Prop where
  le : first ≤ last
  lt : last < s.length
  closed : 1 + rise opening closing (s.span first last) = 0
  least : ∀ i < last, first ≤ i → 1 + rise opening closing (s.span first i) ≠ 0

theorem span_add (s : Sentence) (first n : Nat) :
    s.span first (first + n) = (s.symbols.drop first).take (n + 1) := by
  rw [span, List.drop_take, Nat.add_assoc, Nat.add_sub_cancel_left]

/-- **The search finds the place where the bracket closes.** -/
theorem closesAt_iff : s.ClosesAt opening closing first (first + n) ↔
    closingAfter opening closing 1 (s.symbols.drop first) = some (n + 1) := by
  constructor
  · intro h
    have hclosed := h.closed
    rw [span_add] at hclosed
    cases hsearch : closingAfter opening closing 1 (s.symbols.drop first) with
    | none =>
      have hopen := rise_of_closingAfter_eq_none Nat.one_pos hsearch (n + 1)
      omega
    | some count =>
      obtain ⟨hzero, hopen⟩ := rise_of_closingAfter Nat.one_pos hsearch
      obtain ⟨m, rfl⟩ := Nat.exists_eq_succ_of_ne_zero (Nat.ne_of_gt (closingAfter_pos hsearch))
      rcases Nat.lt_trichotomy m n with hlt | rfl | hgt
      · -- The search would have ended before the first place where the bracket closes.
        have hsooner := h.least (first + m) (by omega) (Nat.le_add_right first m)
        rw [span_add] at hsooner
        exact absurd hzero hsooner
      · rfl
      · have hstill := hopen (n + 1) (Nat.succ_lt_succ hgt)
        omega
  · intro hsearch
    obtain ⟨hzero, hopen⟩ := rise_of_closingAfter Nat.one_pos hsearch
    have hlength := closingAfter_le_length hsearch
    rw [List.length_drop] at hlength
    refine ⟨Nat.le_add_right first n, ?_, ?_, fun i hi hfirst => ?_⟩
    · rw [length]
      omega
    · rw [span_add]
      exact hzero
    · obtain ⟨m, rfl⟩ := Nat.exists_eq_add_of_le hfirst
      have hstill := hopen (m + 1) (by omega)
      rw [span_add]
      exact Ne.symm (Int.ne_of_lt hstill)

/-- A bracket that closes nowhere is not found. -/
theorem closingAfter_eq_none_iff :
    closingAfter opening closing 1 (s.symbols.drop first) = none ↔
      ∀ last, ¬ s.ClosesAt opening closing first last := by
  constructor
  · intro hsearch last hlast
    obtain ⟨n, rfl⟩ := Nat.exists_eq_add_of_le hlast.le
    rw [closesAt_iff.mp hlast] at hsearch
    cases hsearch
  · intro hopen
    cases hsearch : closingAfter opening closing 1 (s.symbols.drop first) with
    | none => rfl
    | some count =>
      obtain ⟨n, rfl⟩ := Nat.exists_eq_succ_of_ne_zero (Nat.ne_of_gt (closingAfter_pos hsearch))
      exact absurd (closesAt_iff.mpr hsearch) (hopen (first + n))

/-! ## Cutting -/

/-- What comes of a sentence when the part from one position to another one is cut out. -/
structure Parted (s : Sentence) (opening closing : Char) (p q : Nat) (interior residue : Sentence) :
    Prop where
  /-- The interior is a sentence of its own, before its first read. -/
  fresh : interior = ofSymbols ((s.symbols.take q).drop (p + 1))
  symbols : residue.symbols = s.symbols.take p ++ s.symbols.drop (q + 1)
  cursor : residue.cursor = p - 1
  saved : residue.saved = s.saved
  distinct : residue.distinct = residue.symbols.toFinset.card
  /-- Put together again, the parts and the two brackets are the sentence. -/
  whole : ∃ symbol, s.symbols[p]? = some symbol ∧ s.symbols[q]? = some closing ∧
    residue.symbols.take p ++ symbol :: interior.symbols ++ closing :: residue.symbols.drop p =
      s.symbols
  balanced : opening ≠ closing → Balanced opening closing interior.symbols

/-- A row is what stands before a symbol, the symbol, and what stands behind it. -/
theorem take_append_cons_drop {symbol : Char} (h : symbols[n]? = some symbol) :
    symbols.take n ++ symbol :: symbols.drop (n + 1) = symbols := by
  obtain ⟨hlt, rfl⟩ := List.getElem?_eq_some_iff.mp h
  rw [List.getElem_cons_drop, List.take_append_drop]

/-- A row is what stands before, between and behind two of its symbols, and those two. -/
theorem take_append_cons_take_drop_append_cons_drop (h : first < last)
    (hfirst : symbols[first]? = some opening) (hlast : symbols[last]? = some closing) :
    symbols.take first ++ opening :: (symbols.take last).drop (first + 1) ++
      closing :: symbols.drop (last + 1) = symbols := by
  have hfirst' : (symbols.take last)[first]? = some opening := by
    rw [List.getElem?_take_of_lt h, hfirst]
  have hbefore := take_append_cons_drop hfirst'
  rw [List.take_take, Nat.min_eq_left (Nat.le_of_lt h)] at hbefore
  rw [hbefore, take_append_cons_drop hlast]

theorem unread_of_cursor (hcursor : s.cursor = p) : s.unread = s.symbols.drop (p + 1) := by
  rw [unread, hcursor]
  rfl

theorem parted_residue (hcursor : s.cursor = p) (hlt : p < s.symbols.length)
    (hsearch : closingAfter opening closing 1 s.unread = some (n + 1)) :
    s.Parted opening closing p (p + 1 + n) (ofSymbols (s.unread.take n)) (s.residue (n + 1)) := by
  have hunread := unread_of_cursor hcursor
  have hbehind : s.symbols.drop (p + 1 + n + 1) = s.unread.drop (n + 1) := by
    rw [hunread, List.drop_drop, Nat.add_assoc (p + 1)]
  have hinterior : (s.symbols.take (p + 1 + n)).drop (p + 1) = s.unread.take n := by
    rw [List.drop_take, Nat.add_sub_cancel_left, hunread]
  have hsymbols : (s.residue (n + 1)).symbols = s.symbols.take p ++ s.unread.drop (n + 1) := by
    show s.symbols.take s.cursor.toNat ++ s.unread.drop (n + 1) = _
    rw [hcursor, Int.toNat_natCast]
  have hopening : s.symbols[p]? = some s.symbols[p] := List.getElem?_eq_getElem hlt
  have hclosing : s.symbols[p + 1 + n]? = some closing := by
    rw [← List.getElem?_drop, ← hunread]
    exact getElem?_of_closingAfter hsearch
  refine ⟨by rw [hinterior], by rw [hsymbols, hbehind], ?_, rfl, countDistinct_eq _,
    ⟨s.symbols[p], hopening, hclosing, ?_⟩, fun hne => balanced_of_closingAfter hne hsearch⟩
  · show s.cursor - 1 = p - 1
    rw [hcursor]
  · have hbefore : (s.symbols.take p).length = p := List.length_take_of_le (Nat.le_of_lt hlt)
    rw [hsymbols, List.take_left' hbefore, List.drop_left' hbefore, ← hinterior, ← hbehind]
    exact take_append_cons_take_drop_append_cons_drop (by omega) hopening hclosing

/-- A sentence in which the bracket does not close stays as it was. -/
theorem takeBranch_of_open (hupper : s.cursor < s.length)
    (h : closingAfter opening closing 1 s.unread = none) :
    s.takeBranch opening closing = (.error (.unbalanced opening closing s.cursor), s) := by
  simp only [takeBranch, h]
  exact Prod.ext rfl (clamp_of_lt hupper)

/-- **A branch is cut out at the place where its bracket closes**, whatever symbols are the brackets
and wherever positions were saved. Where the bracket does not close, the cut is refused and nothing
changes. -/
theorem takeBranch_matches (hcursor : s.cursor = p) (hlt : p < s.length) (opening closing : Char) :
    (∀ q, s.ClosesAt opening closing (p + 1) q → ∃ interior residue,
      s.takeBranch opening closing = (.ok interior, residue) ∧
        s.Parted opening closing p q interior residue) ∧
    ((∀ q, ¬ s.ClosesAt opening closing (p + 1) q) →
      s.takeBranch opening closing = (.error (.unbalanced opening closing p), s)) := by
  have hunread := unread_of_cursor hcursor
  constructor
  · intro q hq
    obtain ⟨n, rfl⟩ := Nat.exists_eq_add_of_le hq.le
    have hsearch := closesAt_iff.mp hq
    rw [← hunread] at hsearch
    have htake := takeBranch_of_closingAfter (by omega) hsearch
    exact ⟨_, _, htake, parted_residue hcursor hlt hsearch⟩
  · intro hopen
    have hsearch := closingAfter_eq_none_iff.mpr hopen
    rw [← hunread] at hsearch
    rw [← hcursor]
    exact takeBranch_of_open (by omega) hsearch

/-- Brackets within brackets, behind a closing one that nothing opened, with positions saved. -/
def thicket : Sentence := { ofString "A]B[C[]D]E]" with cursor := 3, saved := [7, -1] }

theorem thicket_parted : thicket.cursor = (3 : Nat) ∧ 3 < thicket.length ∧
    thicket.ClosesAt '[' ']' 4 8 ∧ (∀ q, ¬ thicket.ClosesAt 'X' 'Y' 4 q) ∧
    (∃ interior residue, thicket.takeBranch '[' ']' = (.ok interior, residue) ∧
      thicket.Parted '[' ']' 3 8 interior residue) ∧
    thicket.takeBranch 'X' 'Y' = (.error (.unbalanced 'X' 'Y' 3), thicket) := by
  have hcloses : thicket.ClosesAt '[' ']' 4 (4 + 4) := closesAt_iff.mpr (by decide)
  have hopen : ∀ q, ¬ thicket.ClosesAt 'X' 'Y' 4 q := closingAfter_eq_none_iff.mp (by decide)
  exact ⟨rfl, by decide, hcloses, hopen, (takeBranch_matches rfl (by decide) '[' ']').1 8 hcloses,
    (takeBranch_matches rfl (by decide) 'X' 'Y').2 hopen⟩

/-- A symbol that is both brackets closes at its next occurrence. -/
example : ({ ofString "a|b|c|" with cursor := 1 } : Sentence).takeBranch '|' '|' =
    (.ok (ofString "b"), { ofString "ac|" with cursor := 0 }) := by decide

/-! ## Refusals -/

/-- Before the first read a part that is found has no symbol before it, and is not cut. -/
theorem takeBranch_before_first (hcursor : s.cursor = -1)
    (h : s.ClosesAt opening closing 0 last) :
    s.takeBranch opening closing = (.error (.sentence (.invalidSpan (-1) last)),
      { s with cursor := last, saved := -1 :: s.saved }) := by
  rw [← Nat.zero_add last] at h
  have hsearch := closesAt_iff.mp h
  rw [List.drop_zero, ← unread_of_cursor_eq hcursor] at hsearch
  have hplace : (-1 : Int) + ((last + 1 : Nat) : Int) = last := by omega
  simp only [takeBranch, hsearch, save, cut, hcursor, hplace]
  rfl

/-- On a symbol, a part that is found is cut. -/
theorem closingAfter_eq_none_of_refused (hlower : 0 ≤ s.cursor) {cause : CutError} {after : Sentence}
    (hrefused : s.takeBranch opening closing = (.error cause, after)) :
    closingAfter opening closing 1 s.unread = none := by
  cases hfound : closingAfter opening closing 1 s.unread with
  | none => rfl
  | some count =>
    rw [takeBranch_of_closingAfter hlower hfound] at hrefused
    cases hrefused

/-- **Every refusal leaves a sentence as it was, but for one**: before the first read, a part may be
found that has no opening symbol under the cursor. It is not cut; the cursor stays at its end, and the
position before the first symbol stays saved. -/
theorem takeBranch_keeps_iff (h : s.Reachable) {cause : CutError} {after : Sentence}
    (hrefused : s.takeBranch opening closing = (.error cause, after)) :
    (after = s ↔ ¬ (s.cursor = -1 ∧ ∃ last, s.ClosesAt opening closing 0 last)) ∧
      (after = s ∧ cause = .unbalanced opening closing s.cursor ∨
        s.cursor = -1 ∧ ∃ last : Nat, s.ClosesAt opening closing 0 last ∧
          cause = .sentence (.invalidSpan (-1) last) ∧
          after = { s with cursor := last, saved := -1 :: s.saved }) := by
  have hlower := h.sound.lower
  have hupper := h.sound.upper
  have hresult : ∀ {cause' after'}, s.takeBranch opening closing = (.error cause', after') →
      cause = cause' ∧ after = after' := by
    intro cause' after' htake
    rw [hrefused, Prod.mk.injEq, Except.error.injEq] at htake
    exact htake
  by_cases hodd : s.cursor = -1 ∧ ∃ last, s.ClosesAt opening closing 0 last
  · obtain ⟨hfirst, last, hlast⟩ := hodd
    obtain ⟨rfl, rfl⟩ := hresult (takeBranch_before_first hfirst hlast)
    refine ⟨iff_of_false (fun heq => ?_) (not_not_intro ⟨hfirst, last, hlast⟩),
      Or.inr ⟨hfirst, last, hlast, rfl, rfl⟩⟩
    have hcursor : (last : Int) = s.cursor := congrArg Sentence.cursor heq
    omega
  · have hsearch : closingAfter opening closing 1 s.unread = none := by
      by_cases hfirst : s.cursor = -1
      · rw [unread_of_cursor_eq hfirst, ← List.drop_zero (l := s.symbols)]
        exact closingAfter_eq_none_iff.mpr fun last hlast => hodd ⟨hfirst, last, hlast⟩
      · exact closingAfter_eq_none_of_refused (by omega) hrefused
    obtain ⟨rfl, rfl⟩ := hresult (takeBranch_of_open hupper hsearch)
    exact ⟨iff_of_true rfl hodd, Or.inl ⟨rfl, rfl⟩⟩

/-- A sentence with a saved position, on a bracket that does not close. -/
def stray : Sentence := [Call.next, .save, .next].foldl after (ofString "A[B[C]")

theorem stray_kept : stray.Reachable ∧
    stray.takeBranch '[' ']' = (.error (.unbalanced '[' ']' 1), stray) ∧
    ¬ (stray.cursor = -1 ∧ ∃ last, stray.ClosesAt '[' ']' 0 last) := by
  have hreachable : stray.Reachable := reachable_foldl (.ofString "A[B[C]") _
  have hrefused : stray.takeBranch '[' ']' = (.error (.unbalanced '[' ']' 1), stray) := by decide
  exact ⟨hreachable, hrefused, (takeBranch_keeps_iff hreachable hrefused).1.mp rfl⟩

/-- **A refused cut loses the place** in a sentence that begins with a closing symbol and was not read
yet. -/
theorem takeBranch_loses_place : (ofString "]").Reachable ∧
    (ofString "]").takeBranch '[' ']' =
      (.error (.sentence (.invalidSpan (-1) 0)), ⟨[']'], 0, [-1], 1⟩) ∧
    (⟨[']'], 0, [-1], 1⟩ : Sentence) ≠ ofString "]" :=
  ⟨.ofString "]", by decide, by decide⟩

end Sentence
end PlantGrowth
