import PlantGrowth.Sentence.Basic
import Mathlib.Data.Finset.Card

/-!
# Reading and editing a sentence in any order

A saved position is a number, and the symbols that it pointed into may be gone when it is asked for
again. So what keeps a read inside the sentence is not the saved positions but the cursor: whatever
the operations leave behind, it stands on a symbol or just before the first one (`Sentence.Sound`).

* `Sentence.Call`: the operations, each with its arguments. A call that fails leaves a sentence too.
* `Sentence.Reachable`: the sentences that calls lead to from a fresh one.
* `Sound.after`: every call keeps a sentence sound; there is one lemma for each operation that
  changes anything.
* `Sentence.stays_sound`: all reachable sentences are sound, and so is what is cut out of them.
-/

namespace PlantGrowth
namespace Sentence

/-! ## Calls -/

/-- An operation on a sentence, with its arguments. -/
inductive Call where
  | next
  | peek
  | current
  | save
  | restore
  | cut
  | set (text : String)
  | append (text : String)
  | prepend (text : String)
  | insert (index : Nat) (other : Sentence)
  | remove (start count : Nat)

/-- The sentence that a call leaves behind, be it refused or not. -/
def after (s : Sentence) : Call → Sentence
  | .next => s.next.2
  | .peek => s
  | .current => s
  | .save => s.save
  | .restore => s.restore.2
  | .cut => s.cut.2
  | .set text => s.set text
  | .append text => s.append text
  | .prepend text => s.prepend text
  | .insert index other => s.insert index other
  | .remove start count => (s.remove start count).2

/-- A sentence that calls lead to from one that was just made. -/
inductive Reachable : Sentence → Prop where
  | ofString (text : String) : Reachable (ofString text)
  | empty : Reachable empty
  | after {s : Sentence} (h : Reachable s) (call : Call) : Reachable (s.after call)

/-! ## The count of distinct symbols -/

theorem nodup_eraseDups : ∀ symbols : List Char, symbols.eraseDups.Nodup
  | [] => by simp
  | symbol :: rest => by
    rw [List.eraseDups_cons, List.nodup_cons]
    refine ⟨fun hmem => ?_, nodup_eraseDups _⟩
    simpa using List.mem_eraseDups.mp hmem
termination_by symbols => symbols.length
decreasing_by
  have hle := List.length_filter_le (fun other => !other == symbol) rest
  simp only [List.length_cons]
  omega

/-- **The count is the number of symbols that differ from each other.** -/
theorem countDistinct_eq (symbols : List Char) :
    countDistinct symbols = symbols.toFinset.card := by
  have hsame : symbols.eraseDups.toFinset = symbols.toFinset := by
    ext symbol
    simp only [List.mem_toFinset, List.mem_eraseDups]
  rw [countDistinct, ← List.toFinset_card_of_nodup (nodup_eraseDups symbols), hsame]

/-! ## Sound sentences -/

/-- What may be relied on after any calls: no read leaves the sentence, and the count is right. -/
structure Sound (s : Sentence) : Prop where
  lower : -1 ≤ s.cursor
  upper : s.cursor < s.length
  saved : ∀ position ∈ s.saved, -1 ≤ position
  distinct : s.distinct = s.symbols.toFinset.card
  hasUnread : s.hasUnread = true ↔ s.cursor + 1 < s.length
  /-- The cursor stands on the symbol that a read returns. -/
  under : ∀ index : Nat, s.cursor = index → s.symbols[index]? = some s.current
  before : s.cursor = -1 → s.current = sentinel

variable {s : Sentence}

/-- The bounds of the cursor decide what reads return. -/
theorem sound_of_bounds (lower : -1 ≤ s.cursor) (upper : s.cursor < s.length)
    (saved : ∀ position ∈ s.saved, -1 ≤ position)
    (distinct : s.distinct = s.symbols.toFinset.card) : s.Sound where
  lower := lower
  upper := upper
  saved := saved
  distinct := distinct
  hasUnread := by simp [Sentence.hasUnread]
  under := by
    intro index hindex
    have hlt : index < s.symbols.length := by
      have hsize : s.length = s.symbols.length := rfl
      omega
    simp [current, symbolAt, hindex, hlt]
  before := by
    intro hcursor
    simp [current, symbolAt, hcursor]

/-- A sentence is sound before its first read. -/
theorem sound_ofSymbols (symbols : List Char) : (ofSymbols symbols).Sound := by
  refine sound_of_bounds (Int.le_refl _) ?_ (by simp [ofSymbols]) (countDistinct_eq symbols)
  simp only [ofSymbols]
  omega

/-- An edit counts the symbols again, so only the cursor has to be looked at. -/
theorem sound_recount (lower : -1 ≤ s.cursor) (upper : s.cursor < s.length)
    (saved : ∀ position ∈ s.saved, -1 ≤ position) : s.recount.Sound :=
  sound_of_bounds lower upper saved (countDistinct_eq s.symbols)

/-- A cursor that is clamped stands before the end, wherever it stood. -/
theorem clamp_bounds (lower : -1 ≤ s.cursor) :
    -1 ≤ s.clamp.cursor ∧ s.clamp.cursor < s.clamp.length := by
  have hlength : s.clamp.length = s.length := rfl
  have hcursor : s.clamp.cursor = min s.cursor (s.length - 1) := rfl
  omega

/-- A read moves the cursor and nothing else. -/
theorem next_of_hasUnread (h : s.hasUnread = true) : s.next.2 = { s with cursor := s.cursor + 1 } := by
  simp only [next, advance, h, if_true]

/-- A cursor before the end stays where it is. -/
theorem clamp_of_lt (h : s.cursor < s.length) : s.clamp = s := by
  rw [clamp, Int.min_eq_left (Int.le_sub_one_of_lt h)]

/-- **All that a cut can do**: it is refused and nothing changes, or it takes out the span from the
position saved last up to the cursor. -/
theorem cut_cases (s : Sentence) : (∃ cause, s.cut = (.error cause, s)) ∨
    ∃ (first last : Nat) (rest : List Int), s.saved = (first : Int) :: rest ∧ s.cursor = last ∧
      first < last ∧ last < s.length ∧
      s.cut = (.ok (ofSymbols ((s.symbols.take last).drop (first + 1))),
        recount { s with
          symbols := s.symbols.take first ++ s.symbols.drop (last + 1)
          cursor := first - 1
          saved := rest }) := by
  rw [cut]
  split
  · exact Or.inl ⟨_, rfl⟩
  next start rest hsaved =>
    split
    · exact Or.inl ⟨_, rfl⟩
    next hspan =>
      simp only [not_or, Int.not_lt, Int.not_le] at hspan
      obtain ⟨hstart, hafter, hend⟩ := hspan
      obtain ⟨first, rfl⟩ := Int.eq_ofNat_of_zero_le hstart
      obtain ⟨last, hcursor⟩ := Int.eq_ofNat_of_zero_le (a := s.cursor) (by omega)
      refine Or.inr ⟨first, last, rest, hsaved, hcursor, by omega, by omega, ?_⟩
      rw [hcursor, Int.toNat_natCast, Int.toNat_natCast]

namespace Sound

/-! ## One call -/

variable (h : s.Sound)
include h

theorem next : s.next.2.Sound := by
  by_cases hmore : s.hasUnread = true
  · have hroom := h.hasUnread.mp hmore
    rw [next_of_hasUnread hmore]
    refine sound_of_bounds ?_ hroom h.saved h.distinct
    have hlower := h.lower
    show -1 ≤ s.cursor + 1
    omega
  · have hnext : s.next.2 = s := by simp only [Sentence.next, advance, if_neg hmore]
    rwa [hnext]

theorem save : s.save.Sound := by
  refine sound_of_bounds h.lower h.upper (fun position hposition => ?_) h.distinct
  rcases List.mem_cons.mp hposition with rfl | hold
  · exact h.lower
  · exact h.saved position hold

/-- A position that was saved may lie beyond the end by now. -/
theorem restore : s.restore.2.Sound := by
  rw [Sentence.restore]
  split
  · exact h
  next position rest hsaved =>
    have hposition : -1 ≤ position := h.saved position (by simp [hsaved])
    have hbounds := clamp_bounds (s := { s with cursor := position, saved := rest }) hposition
    refine sound_of_bounds hbounds.1 hbounds.2 (fun other hother => ?_) h.distinct
    exact h.saved other (by rw [hsaved]; exact List.mem_cons_of_mem position hother)

/-- After a cut the cursor stands before the gap, which begins inside the sentence. -/
theorem cut : s.cut.2.Sound := by
  rcases s.cut_cases with ⟨cause, hcut⟩ | ⟨first, last, rest, hsaved, -, hlt, hlast, hcut⟩
  · rwa [hcut]
  · rw [hcut]
    refine sound_recount ?_ ?_ fun other hother => ?_
    · show -1 ≤ (first : Int) - 1
      omega
    · simp only [length, List.length_append, List.length_take, List.length_drop] at hlast ⊢
      omega
    · exact h.saved other (by rw [hsaved]; exact List.mem_cons_of_mem _ hother)

theorem set (text : String) : (s.set text).Sound := by
  obtain ⟨hlower, hupper⟩ := clamp_bounds (s := { s with symbols := text.toList }) h.lower
  exact sound_recount hlower hupper h.saved

theorem remove (start count : Nat) : (s.remove start count).2.Sound := by
  rw [Sentence.remove]
  split
  · exact h
  · obtain ⟨hlower, hupper⟩ := clamp_bounds (s := { s with
      symbols := s.symbols.take start ++ s.symbols.drop (start + count) }) h.lower
    exact sound_recount hlower hupper h.saved

/-- Symbols that are put in leave the cursor where it is, and the end moves away from it. -/
theorem insert (index : Nat) (other : Sentence) : (s.insert index other).Sound := by
  refine sound_recount h.lower ?_ h.saved
  have hupper := h.upper
  simp only [length, List.length_append, List.length_take, List.length_drop] at hupper ⊢
  omega

theorem append (text : String) : (s.append text).Sound := by
  refine sound_recount h.lower ?_ h.saved
  have hupper := h.upper
  simp only [length, List.length_append] at hupper ⊢
  omega

theorem prepend (text : String) : (s.prepend text).Sound := by
  refine sound_recount h.lower ?_ h.saved
  have hupper := h.upper
  simp only [length, List.length_append] at hupper ⊢
  omega

/-- **Every call leaves a sound sentence behind**, also one that is refused. -/
theorem after (call : Call) : (s.after call).Sound := by
  cases call with
  | next => exact h.next
  | peek => exact h
  | current => exact h
  | save => exact h.save
  | restore => exact h.restore
  | cut => exact h.cut
  | set text => exact h.set text
  | append text => exact h.append text
  | prepend text => exact h.prepend text
  | insert index other => exact h.insert index other
  | remove start count => exact h.remove start count

end Sound

/-! ## All calls -/

theorem Reachable.sound (h : s.Reachable) : s.Sound := by
  induction h with
  | ofString text => exact sound_ofSymbols text.toList
  | empty => exact sound_ofSymbols []
  | after _ call ih => exact ih.after call

/-- What is cut out of a sentence is a sentence before its first read. -/
theorem exists_ofSymbols_of_cut {interior residue : Sentence}
    (h : s.cut = (.ok interior, residue)) : ∃ symbols, interior = ofSymbols symbols := by
  rcases s.cut_cases with ⟨cause, hcut⟩ | ⟨first, last, rest, -, -, -, -, hcut⟩
  · rw [hcut] at h
    cases h
  · rw [hcut] at h
    cases h
    exact ⟨_, rfl⟩

/-- **No sequence of calls leads out of a sentence.** Whatever was read, saved, restored, cut out and
edited before, refused calls included, the sentence is sound; and each sentence that is cut out of it
is sound and stands before its first read. -/
theorem stays_sound (h : s.Reachable) :
    s.Sound ∧ ∀ interior residue, s.cut = (.ok interior, residue) →
      interior.Sound ∧ interior.saved = [] ∧ interior.cursor = -1 := by
  refine ⟨h.sound, fun interior residue hcut => ?_⟩
  obtain ⟨symbols, rfl⟩ := exists_ofSymbols_of_cut hcut
  exact ⟨sound_ofSymbols symbols, rfl, rfl⟩

/-- A position is saved on the last symbol, that symbol is removed, and the position is asked for. -/
def overtaken : Sentence :=
  [Call.next, .next, .save, .next, .save, .remove 1 2, .restore, .prepend "X", .cut].foldl after
    (ofString "ABC")

theorem reachable_foldl (h : s.Reachable) (calls : List Call) : (calls.foldl after s).Reachable := by
  induction calls generalizing s with
  | nil => exact h
  | cons call calls ih => exact ih (h.after call)

theorem overtaken_sound : overtaken.Reachable ∧ overtaken.Sound ∧
    ∀ interior residue, overtaken.cut = (.ok interior, residue) →
      interior.Sound ∧ interior.saved = [] ∧ interior.cursor = -1 := by
  have hreachable : overtaken.Reachable := reachable_foldl (.ofString "ABC") _
  exact ⟨hreachable, stays_sound hreachable⟩

end Sentence
end PlantGrowth
