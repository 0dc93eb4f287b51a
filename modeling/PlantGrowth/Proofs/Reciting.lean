import PlantGrowth.Proofs.Editing

/-!
# Reading a sentence to its end

A sentence is read by asking whether a symbol follows and taking it, until none does
(`Sentence.recite`). Each symbol that is taken moves the cursor on by one, so the reading ends; what it
yields is what was unread at its start, and so it begins with the first symbol only where the cursor
stood before it.

* `Sentence.recite_eq`: what a reading yields, and where it ends.
* `Sentence.recites_in_full_iff`: a sentence that was made from a text, or without one, is read in full,
  whatever was added at its end. Of the zero sentence the first symbol that is added is passed over.
-/

namespace PlantGrowth
namespace Sentence

variable {s : Sentence}

/-! ## The reading -/

/-- What is read until no symbol follows, and the sentence after the last read. -/
def recite (s : Sentence) : List Char × Sentence :=
  if s.hasUnread then
    let rest := s.next.2.recite
    (s.next.1 :: rest.1, rest.2)
  else ([], s)
termination_by (s.length - (s.cursor + 1)).toNat
decreasing_by
  have hmore : s.hasUnread = true := ‹_›
  have hroom : s.cursor + 1 < s.length := by simpa [hasUnread] using hmore
  rw [next_of_hasUnread hmore]
  show ((s.length : Int) - (s.cursor + 1 + 1)).toNat < _
  omega

theorem recite_of_hasUnread (h : s.hasUnread = true) :
    s.recite = (s.next.1 :: s.next.2.recite.1, s.next.2.recite.2) := by
  rw [recite, if_pos h]

theorem recite_of_not_hasUnread (h : ¬ s.hasUnread = true) : s.recite = ([], s) := by
  rw [recite, if_neg h]

/-- **A reading yields what was unread, in order**, and ends on the last symbol. -/
theorem recite_eq (h : -1 ≤ s.cursor) :
    s.recite = (s.unread, { s with cursor := max s.cursor (s.length - 1) }) := by
  induction hunread : s.unread generalizing s with
  | nil =>
    have hend : ¬ s.hasUnread = true := fun hmore => (hasUnread_iff h).mp hmore hunread
    have hcursor : max s.cursor (s.length - 1) = s.cursor := by
      have hroom : ¬ s.cursor + 1 < s.length := by simpa [hasUnread] using hend
      omega
    rw [recite_of_not_hasUnread hend, hcursor]
  | cons symbol rest ih =>
    have hmore : s.hasUnread = true := (hasUnread_iff h).mpr (by simp [hunread])
    obtain ⟨hsymbol, hrest⟩ := next_of_unread_eq_cons h hunread
    have hnext := next_of_hasUnread hmore
    have hlower : -1 ≤ s.next.2.cursor := by
      rw [hnext]
      show -1 ≤ s.cursor + 1
      omega
    have hcursor : max (s.cursor + 1) (s.length - 1) = max s.cursor (s.length - 1) := by
      have hroom : s.cursor + 1 < s.length := by simpa [hasUnread] using hmore
      omega
    rw [recite_of_hasUnread hmore, ih hlower hrest, hsymbol, hnext]
    show (_, ({ s with cursor := max (s.cursor + 1) (s.length - 1) } : Sentence)) = _
    rw [hcursor]

/-! ## Sentences to which nothing was done but adding -/

/-- The ways in which a sentence is made. -/
inductive Origin where
  | ofString (text : String)
  | empty
  | zero
  deriving DecidableEq

/-- The sentence as it is made. -/
def Origin.make : Origin → Sentence
  | .ofString text => Sentence.ofString text
  | .empty => Sentence.empty
  | .zero => default

/-- The sentence with texts added at its end, one after the other. -/
def appendAll (s : Sentence) (texts : List String) : Sentence := texts.foldl append s

theorem symbols_appendAll (texts : List String) (s : Sentence) :
    (s.appendAll texts).symbols = s.symbols ++ texts.flatMap String.toList := by
  induction texts generalizing s with
  | nil => exact (List.append_nil s.symbols).symm
  | cons text rest ih =>
    rw [appendAll, List.foldl_cons, ← appendAll, ih, List.flatMap_cons, ← List.append_assoc]
    rfl

theorem cursor_appendAll (texts : List String) (s : Sentence) :
    (s.appendAll texts).cursor = s.cursor := by
  induction texts generalizing s with
  | nil => rfl
  | cons text rest ih => exact ih (s.append text)

theorem Origin.cursor_make {origin : Origin} (h : origin ≠ .zero) : origin.make.cursor = -1 := by
  cases origin with
  | zero => exact absurd rfl h
  | _ => rfl

/-- **A sentence is read in full unless it was the zero sentence.** Whatever is added at the end of a
sentence that was made from a text, or without one, a reading takes as many steps as there are symbols
and yields all of them in order. The cursor of the zero sentence stands where its first symbol will be,
so that this one, and no other, is passed over. -/
theorem recites_in_full_iff (origin : Origin) (texts : List String) :
    let s := origin.make.appendAll texts
    s.symbols = origin.make.symbols ++ texts.flatMap String.toList ∧
    (origin ≠ .zero → s.recite = (s.symbols, { s with cursor := s.length - 1 })) ∧
    (origin = .zero → s.recite = (s.symbols.tail, { s with cursor := max 0 (s.length - 1) })) ∧
    (s.recite.1 = s.symbols ↔ origin ≠ .zero ∨ s.symbols = []) := by
  intro s
  have hcursor : s.cursor = origin.make.cursor := cursor_appendAll texts origin.make
  have hfull (h : origin ≠ .zero) : s.recite = (s.symbols, { s with cursor := s.length - 1 }) := by
    have hfirst : s.cursor = -1 := hcursor.trans (Origin.cursor_make h)
    have hunread : s.unread = s.symbols := by
      rw [unread, hfirst]
      rfl
    have hlast : max (-1) ((s.length : Int) - 1) = s.length - 1 := by omega
    rw [recite_eq (Int.le_of_eq hfirst.symm), hunread, hfirst, hlast]
  have hshort (h : origin = .zero) :
      s.recite = (s.symbols.tail, { s with cursor := max 0 (s.length - 1) }) := by
    have hzero : s.cursor = 0 := by
      rw [hcursor, h]
      rfl
    have hunread : s.unread = s.symbols.tail := by
      rw [unread, hzero, ← List.drop_one]
      rfl
    rw [recite_eq (by omega), hunread, hzero]
  refine ⟨symbols_appendAll texts origin.make, hfull, hshort, ?_⟩
  by_cases horigin : origin = .zero
  · rw [hshort horigin, or_iff_right (not_not_intro horigin)]
    cases s.symbols with
    | nil => exact iff_of_true rfl rfl
    | cons symbol rest =>
      exact iff_of_false (fun heq => List.cons_ne_self symbol rest heq.symm) (List.cons_ne_nil symbol rest)
  · rw [hfull horigin]
    exact iff_of_true rfl (Or.inl horigin)

theorem spray_recited :
    let made := (Origin.ofString "FX").make.appendAll ["", "+F"]
    let zero := Origin.zero.make.appendAll ["", "+F"]
    Origin.ofString "FX" ≠ .zero ∧
      made.recite = (['F', 'X', '+', 'F'], { made with cursor := 3 }) ∧
      zero.recite = (['F'], { zero with cursor := 1 }) :=
  ⟨nofun, (recites_in_full_iff (.ofString "FX") ["", "+F"]).2.1 nofun,
    (recites_in_full_iff .zero ["", "+F"]).2.2.1 rfl⟩

/-- **Of the zero sentence the first symbol is passed over.** -/
theorem recite_passes_first : (Origin.zero.make.appendAll ["AB"]).symbols = ['A', 'B'] ∧
    (Origin.zero.make.appendAll ["AB"]).recite.1 = ['B'] := by
  refine ⟨rfl, ?_⟩
  rw [recite_eq (by decide)]
  rfl

end Sentence
end PlantGrowth
