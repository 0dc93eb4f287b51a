import PlantGrowth.Proofs.Editing
import Mathlib.Data.Nat.PSub

/-!
# Saved positions are taken in the reverse order

A position is saved so that the reading can come back to it. Until it does, anything may be done to the
sentence, and further positions may be saved on top, as long as each of them is taken again: by a return
to it, or by a cut that begins there. Then the return finds the position that was saved, however much of
the sentence is gone by that time, and below it the positions that were saved before.

Which calls take a position cannot be read off the calls alone, for a cut may be refused, and a refused cut
takes none. So the positions on top are counted along the sentences that the calls lead through.

* `Sentence.pendingAfter`: how many positions are left on top of those of some moment, and none as soon
  as a call reaches below them.
* `Sentence.saved_foldl_after`: that many positions lie on top of the others, which are as they were.
* `Sentence.saved_comes_back`: if none is left, the next return is to the position saved at the moment.
-/

namespace PlantGrowth
namespace Sentence

variable {s : Sentence} {base above : List Int} {pending : Nat}

/-! ## Counting what is saved on top -/

/-- How many positions are on top of those of some moment after a call, if `pending` of them are there
before it. None if the call takes a position of that moment. A cut that is refused takes none. -/
def pendingAfterCall (s : Sentence) (pending : Nat) : Call → Option Nat
  | .save => some (pending + 1)
  | .restore => pending.ppred
  | .cut =>
    match s.cut.1 with
    | .ok _ => pending.ppred
    | .error _ => some pending
  | _ => some pending

/-- How many positions are on top of those of some moment after calls, one after the other. -/
def pendingAfter (s : Sentence) (pending : Nat) : List Call → Option Nat
  | [] => some pending
  | call :: calls =>
    (s.pendingAfterCall pending call).bind fun pending => (s.after call).pendingAfter pending calls

/-! ## One call -/

theorem restore_of_saved {position : Int} {rest : List Int} (h : s.saved = position :: rest) :
    s.restore = (.ok (), { s with cursor := min position (s.length - 1), saved := rest }) := by
  rw [restore, h]
  rfl

theorem saved_next (s : Sentence) : s.next.2.saved = s.saved := by
  by_cases hmore : s.hasUnread = true
  · rw [next_of_hasUnread hmore]
  · simp only [next, advance, if_neg hmore]

theorem saved_remove (s : Sentence) (start count : Nat) : (s.remove start count).2.saved = s.saved := by
  rw [remove]
  split
  · rfl
  · rfl

/-- Taking a position off those on top. -/
theorem exists_of_ppred_eq_some {position : Int} {rest : List Int} (h : above ++ base = position :: rest)
    (hpending : above.length.ppred = some pending) :
    ∃ later, rest = later ++ base ∧ later.length = pending := by
  cases above with
  | nil => cases hpending
  | cons top above =>
    rw [List.cons_append, List.cons.injEq] at h
    exact ⟨above, h.2.symm, Option.some.inj hpending⟩

/-- **A call changes only what is on top**, and the count says how much of it is left. -/
theorem saved_after (h : s.saved = above ++ base) {call : Call}
    (hpending : s.pendingAfterCall above.length call = some pending) :
    ∃ later, (s.after call).saved = later ++ base ∧ later.length = pending := by
  have hkept : (s.after call).saved = s.saved → some above.length = some pending →
      ∃ later, (s.after call).saved = later ++ base ∧ later.length = pending :=
    fun hsame hcount => ⟨above, hsame.trans h, Option.some.inj hcount⟩
  cases call with
  | save =>
    refine ⟨s.cursor :: above, ?_, Option.some.inj hpending⟩
    rw [List.cons_append, ← h]
    rfl
  | restore =>
    have hpred : above.length.ppred = some pending := hpending
    cases hsaved : s.saved with
    | nil =>
      rw [h, List.append_eq_nil_iff] at hsaved
      rw [hsaved.1] at hpred
      cases hpred
    | cons position rest =>
      obtain ⟨later, hrest, hlength⟩ := exists_of_ppred_eq_some (h.symm.trans hsaved) hpred
      refine ⟨later, ?_, hlength⟩
      rw [after, restore_of_saved hsaved, hrest]
  | cut =>
    rcases s.cut_cases with ⟨cause, hcut⟩ | ⟨first, last, rest, hsaved, -, -, -, hcut⟩
    · rw [pendingAfterCall, hcut] at hpending
      exact hkept (by rw [after, hcut]) hpending
    · rw [pendingAfterCall, hcut] at hpending
      obtain ⟨later, hrest, hlength⟩ := exists_of_ppred_eq_some (h.symm.trans hsaved) hpending
      refine ⟨later, ?_, hlength⟩
      rw [after, hcut]
      exact hrest
  | next => exact hkept s.saved_next hpending
  | remove start count => exact hkept (s.saved_remove start count) hpending
  | _ => exact hkept rfl hpending

/-! ## All calls -/

/-- **What was saved before stays below what is saved on top.** -/
theorem saved_foldl_after {calls : List Call} (h : s.saved = above ++ base)
    (hpending : s.pendingAfter above.length calls = some pending) :
    ∃ later, (calls.foldl after s).saved = later ++ base ∧ later.length = pending := by
  induction calls generalizing s above with
  | nil => exact ⟨above, h, Option.some.inj hpending⟩
  | cons call calls ih =>
    obtain ⟨count, hcall, hcalls⟩ := Option.bind_eq_some_iff.mp hpending
    obtain ⟨later, hsaved, rfl⟩ := saved_after h hcall
    exact ih hsaved hcalls

/-- **A saved position comes back when all that was saved after it is taken**, whatever else was done in
between. The next return succeeds and is to that position, or to the last symbol if the sentence has
become shorter; the text stays as it is, and the positions that are left are those that were there before
it was saved. -/
theorem saved_comes_back (s : Sentence) (calls : List Call)
    (hpending : s.save.pendingAfter 0 calls = some 0) :
    let later := calls.foldl after s.save
    later.restore =
      (.ok (), { later with cursor := min s.cursor (later.length - 1), saved := s.saved }) := by
  have hbefore : s.save.saved = [] ++ s.cursor :: s.saved := rfl
  obtain ⟨above, hsaved, hnone⟩ := saved_foldl_after hbefore hpending
  rw [List.length_eq_zero_iff.mp hnone, List.nil_append] at hsaved
  exact restore_of_saved hsaved

/-- A sentence with a saved position, read up to the symbol before a bracket. -/
def paused : Sentence := [Call.next, .save, .next].foldl after (ofString "AB[CD]E")

/-- The bracket is cut out, at the second attempt. Then all symbols but the first are taken away, the one
to come back to among them, and a cut that would begin there is refused. -/
def detour : List Call :=
  [.next, .save, .cut, .next, .next, .next, .cut, .next, .save, .remove 1 2, .restore, .cut]

theorem paused_comes_back : paused.save.pendingAfter 0 detour = some 0 ∧
    (detour.foldl after paused.save).restore =
      (.ok (), { detour.foldl after paused.save with
        cursor := min paused.cursor ((detour.foldl after paused.save).length - 1)
        saved := paused.saved }) ∧
    (detour.foldl after paused.save).restore.2 = ⟨['A'], 0, [0], 1⟩ := by
  have hpending : paused.save.pendingAfter 0 detour = some 0 := by decide
  exact ⟨hpending, saved_comes_back paused detour hpending, by decide⟩

end Sentence
end PlantGrowth
