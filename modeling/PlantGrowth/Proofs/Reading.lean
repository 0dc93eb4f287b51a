import PlantGrowth.Growth.Advance
import PlantGrowth.Sentence.Branch
import Mathlib.Data.List.TakeDrop

/-!
# Reading and cutting

Two operations move a sentence's cursor while a plant grows: the search for the next bound symbol,
and the cut of a bracketed part. Both are described by what becomes of the unread symbols.
-/

namespace PlantGrowth

variable {H : Type}

/-! ## The search for a bound symbol -/

/-- Symbols that the search passes over. -/
def Registry.Skips (registry : Registry H) (symbols : List Char) : Prop :=
  ∀ symbol ∈ symbols, symbol ≠ sentinel ∧ registry.find? symbol = none

theorem Registry.skips_nil {registry : Registry H} : registry.Skips [] :=
  fun _ hmem => absurd hmem List.not_mem_nil

/-- **A row of symbols is passed over, or has a first symbol at which the search stops.** -/
theorem Registry.skips_or_exists (registry : Registry H) (symbols : List Char) :
    registry.Skips symbols ∨ ∃ skipped symbol rest, symbols = skipped ++ symbol :: rest ∧
      registry.Skips skipped ∧
        (symbol = sentinel ∨ symbol ≠ sentinel ∧ ∃ prototype, registry.find? symbol = some prototype) := by
  induction symbols with
  | nil => exact Or.inl fun symbol hmem => (by cases hmem)
  | cons first others ih =>
    have hnil : registry.Skips [] := fun symbol hmem => (by cases hmem)
    by_cases hsentinel : first = sentinel
    · exact Or.inr ⟨[], first, others, rfl, hnil, Or.inl hsentinel⟩
    · cases hfirst : registry.find? first with
      | some prototype =>
        exact Or.inr ⟨[], first, others, rfl, hnil, Or.inr ⟨hsentinel, prototype, hfirst⟩⟩
      | none =>
        rcases ih with hskips | ⟨skipped, symbol, rest, rfl, hskips, hstop⟩
        · exact Or.inl (List.forall_mem_cons.mpr ⟨⟨hsentinel, hfirst⟩, hskips⟩)
        · exact Or.inr ⟨first :: skipped, symbol, rest, rfl,
            List.forall_mem_cons.mpr ⟨⟨hsentinel, hfirst⟩, hskips⟩, hstop⟩

namespace Sentence

variable {registry : Registry H} {s later : Sentence} {symbol : Char} {prototype : Prototype H}
  {symbols skipped rest : List Char}

theorem readTo_cons_of_skip (hsymbol : symbol ≠ sentinel)
    (hnone : registry.find? symbol = none) :
    readTo registry s (symbol :: rest) = readTo registry { s with cursor := s.cursor + 1 } rest := by
  rw [readTo]
  simp only [if_neg hsymbol, hnone]

theorem readTo_append_of_skips (h : registry.Skips skipped) :
    readTo registry s (skipped ++ rest) =
      readTo registry { s with cursor := s.cursor + skipped.length } rest := by
  induction skipped generalizing s with
  | nil => simp
  | cons first others ih =>
    obtain ⟨⟨hsentinel, hnone⟩, hothers⟩ := List.forall_mem_cons.mp h
    have hlength : s.cursor + 1 + (others.length : Int) =
        s.cursor + ((first :: others).length : Nat) := by
      rw [List.length_cons]
      omega
    rw [List.cons_append, readTo_cons_of_skip hsentinel hnone, ih hothers, hlength]

theorem readTo_of_skips (h : registry.Skips symbols) :
    readTo registry s symbols = .exhausted { s with cursor := s.cursor + symbols.length } := by
  have happend : readTo registry s (symbols ++ []) = _ := readTo_append_of_skips h
  rwa [List.append_nil] at happend

theorem readTo_of_ended (h : registry.Skips skipped) :
    readTo registry s (skipped ++ sentinel :: rest) = .ended := by
  rw [readTo_append_of_skips h, readTo]
  exact if_pos rfl

theorem readTo_of_found (h : registry.Skips skipped) (hsymbol : symbol ≠ sentinel)
    (hfind : registry.find? symbol = some prototype) :
    readTo registry s (skipped ++ symbol :: rest) =
      .found symbol prototype { s with cursor := s.cursor + skipped.length + 1 } := by
  rw [readTo_append_of_skips h, readTo]
  simp only [if_neg hsymbol, hfind]

/-- **What the search finds**: the first bound symbol, after symbols that it passes over. -/
theorem exists_of_readTo_eq_found
    (h : readTo registry s symbols = .found symbol prototype later) :
    ∃ skipped rest, symbols = skipped ++ symbol :: rest ∧ registry.Skips skipped ∧
      symbol ≠ sentinel ∧ registry.find? symbol = some prototype ∧
      later = { s with cursor := s.cursor + skipped.length + 1 } := by
  rcases registry.skips_or_exists symbols with
    hskips | ⟨skipped, first, rest, rfl, hskips, rfl | ⟨hfirst, found, hfind⟩⟩
  · rw [readTo_of_skips hskips] at h
    cases h
  · rw [readTo_of_ended hskips] at h
    cases h
  · rw [readTo_of_found hskips hfirst hfind] at h
    cases h
    exact ⟨skipped, rest, rfl, hskips, hfirst, hfind, rfl⟩

/-- What the search passes over when it comes to the end. -/
theorem eq_of_readTo_eq_exhausted (h : readTo registry s symbols = .exhausted later) :
    registry.Skips symbols ∧ later = { s with cursor := s.cursor + symbols.length } := by
  rcases registry.skips_or_exists symbols with
    hskips | ⟨skipped, first, rest, rfl, hskips, rfl | ⟨hfirst, found, hfind⟩⟩
  · rw [readTo_of_skips hskips] at h
    cases h
    exact ⟨hskips, rfl⟩
  · rw [readTo_of_ended hskips] at h
    cases h
  · rw [readTo_of_found hskips hfirst hfind] at h
    cases h

/-- The search ends at a sentinel only. -/
theorem sentinel_mem_of_readTo_eq_ended (h : readTo registry s symbols = .ended) :
    sentinel ∈ symbols := by
  rcases registry.skips_or_exists symbols with
    hskips | ⟨skipped, first, rest, rfl, hskips, rfl | ⟨hfirst, found, hfind⟩⟩
  · rw [readTo_of_skips hskips] at h
    cases h
  · exact List.mem_append_right skipped List.mem_cons_self
  · rw [readTo_of_found hskips hfirst hfind] at h
    cases h

/-! ## The unread symbols -/

theorem length_unread (h : -1 ≤ s.cursor) :
    (s.unread.length : Int) = max (s.length - (s.cursor + 1)) 0 := by
  rw [unread, List.length_drop, length]
  omega

/-- Moving the cursor on drops unread symbols. -/
theorem unread_of_move (h : -1 ≤ s.cursor) (count : Nat) :
    ({ s with cursor := s.cursor + count } : Sentence).unread = s.unread.drop count := by
  have hcursor : (s.cursor + count + 1).toNat = (s.cursor + 1).toNat + count := by omega
  rw [unread, unread, hcursor, List.drop_drop]

theorem cursor_of_readTo_eq_found (hcursor : -1 ≤ s.cursor)
    (h : readTo registry s symbols = .found symbol prototype later) : 0 ≤ later.cursor := by
  obtain ⟨skipped, rest, -, -, -, -, rfl⟩ := exists_of_readTo_eq_found h
  show 0 ≤ s.cursor + skipped.length + 1
  omega

/-- **After the search the symbols behind the one that was found are unread.** -/
theorem unread_of_readTo_eq_found (hcursor : -1 ≤ s.cursor)
    (h : readTo registry s s.unread = .found symbol prototype later) :
    ∃ skipped, s.unread = skipped ++ symbol :: later.unread ∧ registry.Skips skipped := by
  obtain ⟨skipped, rest, hunread, hskips, -, -, rfl⟩ := exists_of_readTo_eq_found h
  refine ⟨skipped, ?_, hskips⟩
  have hmove := unread_of_move hcursor (skipped.length + 1)
  have hcast : s.cursor + ((skipped.length + 1 : Nat) : Int) = s.cursor + skipped.length + 1 := by
    omega
  rw [hcast] at hmove
  rw [hmove, hunread, ← List.drop_drop, List.drop_left, List.drop_one, List.tail_cons]

/-- After a search to the end nothing is unread. -/
theorem unread_of_readTo_eq_exhausted (hcursor : -1 ≤ s.cursor)
    (h : readTo registry s s.unread = .exhausted later) :
    later.unread = [] ∧ -1 ≤ later.cursor ∧ later.symbols = s.symbols := by
  obtain ⟨-, rfl⟩ := eq_of_readTo_eq_exhausted h
  refine ⟨?_, ?_, rfl⟩
  · rw [unread_of_move hcursor, List.drop_length]
  · show -1 ≤ s.cursor + s.unread.length
    omega

/-! ## The symbols that were read -/

/-- The symbols up to the cursor. -/
def read (s : Sentence) : List Char := s.symbols.take (s.cursor + 1).toNat

/-- The symbols before the cursor. -/
def behind (s : Sentence) : List Char := s.symbols.take s.cursor.toNat

theorem read_append_unread (s : Sentence) : s.read ++ s.unread = s.symbols :=
  List.take_append_drop _ _

theorem read_of_cursor_eq (h : s.cursor = -1) : s.read = [] := by
  rw [read, h]
  rfl

theorem unread_of_cursor_eq (h : s.cursor = -1) : s.unread = s.symbols := by
  rw [unread, h]
  rfl

/-- **After the search the symbols that it passed over were read**, and the one that was found. -/
theorem read_of_readTo_eq_found (hcursor : -1 ≤ s.cursor)
    (h : readTo registry s s.unread = .found symbol prototype later) :
    ∃ skipped, s.unread = skipped ++ symbol :: later.unread ∧ registry.Skips skipped ∧
      later.behind = s.read ++ skipped ∧ later.read = s.read ++ skipped ++ [symbol] := by
  obtain ⟨skipped, hunread, hskips⟩ := unread_of_readTo_eq_found hcursor h
  obtain ⟨skipped', rest, hsplit, -, -, -, rfl⟩ := exists_of_readTo_eq_found h
  have hlength := length_unread hcursor
  have hcount := congrArg List.length hunread
  have hcount' := congrArg List.length hsplit
  rw [List.length_append, List.length_cons] at hcount hcount'
  have hread : s.read.length = (s.cursor + 1).toNat := by
    rw [read, List.length_take]
    have hsymbols : s.length = s.symbols.length := rfl
    omega
  have hsymbols : s.symbols = (s.read ++ skipped ++ [symbol]) ++
      ({ s with cursor := s.cursor + skipped'.length + 1 } : Sentence).unread := by
    rw [List.append_assoc, List.append_assoc, List.singleton_append, ← hunread, read_append_unread]
  have hlater : ({ s with cursor := s.cursor + skipped'.length + 1 } : Sentence).read =
      s.read ++ skipped ++ [symbol] := by
    have hsame := (read_append_unread
      ({ s with cursor := s.cursor + skipped'.length + 1 } : Sentence)).trans hsymbols
    exact List.append_cancel_right hsame
  refine ⟨skipped, hunread, hskips, ?_, hlater⟩
  show s.symbols.take (s.cursor + skipped'.length + 1).toNat = _
  have hskipped : skipped'.length = skipped.length := by
    have hbehind := congrArg List.length hlater
    rw [List.length_append, List.length_append, List.length_singleton, hread, read,
      List.length_take] at hbehind
    have hsize : s.length = s.symbols.length := rfl
    simp only at hbehind
    omega
  have htake : (s.cursor + skipped'.length + 1).toNat = (s.read ++ skipped).length := by
    rw [List.length_append, hread]
    omega
  rw [htake, hsymbols, List.append_assoc]
  exact List.take_left

theorem read_of_readTo_eq_exhausted (hcursor : -1 ≤ s.cursor)
    (h : readTo registry s s.unread = .exhausted later) : later.read = s.read ++ s.unread := by
  obtain ⟨hunread, -, hsymbols⟩ := unread_of_readTo_eq_exhausted hcursor h
  have hlater := read_append_unread later
  rw [hunread, List.append_nil, hsymbols] at hlater
  rw [hlater, read_append_unread]

/-! ## Cutting a bracketed part out -/

variable {opening closing : Char} {depth count : Nat}

theorem closingAfter_pos (h : closingAfter opening closing depth symbols = some count) :
    0 < count := by
  cases symbols with
  | nil => cases h
  | cons symbol rest =>
    rw [closingAfter] at h
    split at h
    · split at h
      · cases h
        exact Nat.one_pos
      · obtain ⟨before, -, rfl⟩ := Option.map_eq_some_iff.mp h
        exact Nat.succ_pos before
    · split at h
      · obtain ⟨before, -, rfl⟩ := Option.map_eq_some_iff.mp h
        exact Nat.succ_pos before
      · obtain ⟨before, -, rfl⟩ := Option.map_eq_some_iff.mp h
        exact Nat.succ_pos before

theorem closingAfter_le_length (h : closingAfter opening closing depth symbols = some count) :
    count ≤ symbols.length := by
  induction symbols generalizing depth count with
  | nil => cases h
  | cons symbol rest ih =>
    rw [List.length_cons]
    rw [closingAfter] at h
    split at h
    · split at h
      · cases h
        omega
      · obtain ⟨before, hbefore, rfl⟩ := Option.map_eq_some_iff.mp h
        exact Nat.succ_le_succ (ih hbefore)
    · split at h
      · obtain ⟨before, hbefore, rfl⟩ := Option.map_eq_some_iff.mp h
        exact Nat.succ_le_succ (ih hbefore)
      · obtain ⟨before, hbefore, rfl⟩ := Option.map_eq_some_iff.mp h
        exact Nat.succ_le_succ (ih hbefore)

/-- What is left of a sentence from which the part opened at the cursor was cut. -/
def residue (s : Sentence) (count : Nat) : Sentence :=
  recount { s with
    symbols := s.symbols.take s.cursor.toNat ++ s.unread.drop count
    cursor := s.cursor - 1 }

/-- **A part that closes is cut out**: its interior is read from its start, and what is left from
where the part was. -/
theorem takeBranch_of_closingAfter (hcursor : 0 ≤ s.cursor)
    (h : closingAfter opening closing 1 s.unread = some count) :
    s.takeBranch opening closing = (.ok (ofSymbols (s.unread.take (count - 1))), s.residue count) := by
  have hpos := closingAfter_pos h
  have hle := closingAfter_le_length h
  have hlength := length_unread (s := s) (by omega)
  have hspan : ¬ (s.cursor < 0 ∨ s.cursor + count ≤ s.cursor ∨
      (s.length : Int) ≤ s.cursor + count) := by omega
  have hlast : (s.cursor + count).toNat = s.cursor.toNat + count := by omega
  have hfirst : (s.cursor + 1).toNat = s.cursor.toNat + 1 := by omega
  have hinterior : (s.symbols.take (s.cursor.toNat + count)).drop (s.cursor.toNat + 1) =
      s.unread.take (count - 1) := by
    rw [List.drop_take, unread, hfirst]
    congr 1
    omega
  have hrest : s.symbols.drop (s.cursor.toNat + count + 1) = s.unread.drop count := by
    rw [unread, hfirst, List.drop_drop]
    congr 1
    omega
  simp only [takeBranch, h, save, cut]
  have hlen : ({ s with saved := s.cursor :: s.saved, cursor := s.cursor + count } : Sentence).length =
      s.length := rfl
  simp only [hlen, if_neg hspan, hlast, hinterior, hrest]
  rfl

theorem takeBranch_of_closingAfter_eq_none (h : closingAfter opening closing 1 s.unread = none) :
    (s.takeBranch opening closing).1 = .error (.unbalanced opening closing s.cursor) := by
  simp only [takeBranch, h]

/-- What was behind the part is still to be read. -/
theorem unread_residue (hcursor : 0 ≤ s.cursor) (hpos : 0 < count)
    (hle : count ≤ s.unread.length) : (s.residue count).unread = s.unread.drop count := by
  have hlength := length_unread (s := s) (by omega)
  have hsymbols : s.length = s.symbols.length := rfl
  have htake : (s.symbols.take s.cursor.toNat).length = s.cursor.toNat := by
    rw [List.length_take]
    omega
  have hcancel : (s.cursor - 1 + 1).toNat = s.cursor.toNat := by omega
  show (s.symbols.take s.cursor.toNat ++ s.unread.drop count).drop (s.cursor - 1 + 1).toNat = _
  rw [hcancel]
  exact List.drop_left' htake

theorem read_residue (hcursor : 0 ≤ s.cursor) (hpos : 0 < count)
    (hle : count ≤ s.unread.length) : (s.residue count).read = s.behind := by
  have hsymbols : (s.residue count).symbols = s.behind ++ s.unread.drop count := rfl
  have hwhole := read_append_unread (s.residue count)
  rw [unread_residue hcursor hpos hle, hsymbols] at hwhole
  exact List.append_cancel_right hwhole

/-- What a cut leaves of a sentence, and what it takes out. -/
theorem cursor_of_takeBranch {interior residue : Sentence} (hcursor : 0 ≤ s.cursor) (h : s.takeBranch opening closing = (.ok interior, residue)) :
    -1 ≤ residue.cursor ∧ interior.cursor = -1 ∧
      residue.unread.length ≤ s.unread.length ∧ interior.unread.length ≤ s.unread.length := by
  cases hclosing : closingAfter opening closing 1 s.unread with
  | none =>
    have herror := takeBranch_of_closingAfter_eq_none hclosing
    rw [h] at herror
    cases herror
  | some count =>
    rw [takeBranch_of_closingAfter hcursor hclosing] at h
    cases h
    have hrest := unread_residue hcursor (closingAfter_pos hclosing) (closingAfter_le_length hclosing)
    refine ⟨?_, rfl, ?_, ?_⟩
    · show -1 ≤ s.cursor - 1
      omega
    · rw [hrest, List.length_drop]
      omega
    · rw [unread_ofSymbols, List.length_take]
      omega

end Sentence
end PlantGrowth
