import PlantGrowth.Proofs.Searching

/-!
# Searches without end

What ends a search is the counter of generations, which rises with every generation up to the last
one that is allowed. It is kept in the chain's bundle, and a bundle refuses to write over a value of
another kind. Where such a value stands in its place the counter stays at zero, and nobody looks
whether the write was refused: then the search ends only if some generation has a symbol that it
stops at, or has no symbols at all.

* `Chain.StopsAt`: a search that gets to a row does not get past it.
* `Chain.exists_stopsAt_or_endless`: there is such a row, unless the counter cannot be written.
* `World.seek_returns_iff`: a search has an end exactly if its chain is not `Chain.Endless`.
-/

namespace PlantGrowth

variable {H : Type}

namespace Chain

variable {chain : Chain H} {usual k : Nat}

/-! ## Rows that are not passed -/

/-- A search that gets to the `k`-th row does not go on to a later one. -/
def StopsAt (usual : Nat) (chain : Chain H) (k : Nat) : Prop :=
  ¬ chain.core.registry.Skips (chain.row k) ∨
    chain.ceiling usual < (chain.turned k).bundle.generation + 1 ∨ chain.row (k + 1) = []

theorem not_stopsAt_iff : ¬ chain.StopsAt usual k ↔
    chain.core.registry.Skips (chain.row k) ∧
      (chain.turned k).bundle.generation + 1 ≤ chain.ceiling usual ∧ chain.row (k + 1) ≠ [] := by
  simp [StopsAt]

theorem stopsAt_next : chain.next.StopsAt usual k ↔ chain.StopsAt usual (k + 1) := by
  unfold StopsAt
  rw [row_next, row_next, ceiling_next]
  rfl

theorem exists_seeks_of_stopsAt_zero {w : World H} (node : NodeId) (baked : Bool)
    (h : chain.StopsAt w.settings.maxGenerations 0) (hcursor : -1 ≤ chain.core.sentence.cursor)
    (hcount : chain.bundle.generation < Int64.maxValue.toInt) :
    ∃ result, w.Seeks node chain baked result := by
  cases chain.turn w.settings.maxGenerations with
  | ended hrow hskips => exact ⟨_, (World.seeks_of_ended hcursor hrow hskips).mpr rfl⟩
  | found hrow hskips hsymbol hfind =>
    exact ⟨_, (World.seeks_of_found hcursor hrow hskips hsymbol hfind).mpr rfl⟩
  | last hskips hlast => exact ⟨_, (World.seeks_of_last hcursor hcount hskips hlast).mpr rfl⟩
  | blank hskips hceiling hblank =>
    exact ⟨_, (World.seeks_of_blank hcursor hcount hskips hceiling hblank).mpr rfl⟩
  | on hskips hceiling hsome => exact absurd h (not_stopsAt_iff.mpr ⟨hskips, hceiling, hsome⟩)

/-- **A search that has a row to stop at has an end.** -/
theorem StopsAt.exists_seeks {w : World H} (node : NodeId) (baked : Bool)
    (h : chain.StopsAt w.settings.maxGenerations k) (hcursor : -1 ≤ chain.core.sentence.cursor)
    (hranged : chain.Ranged w.settings.maxGenerations) :
    ∃ result, w.Seeks node chain baked result := by
  have hcount := hranged.generation_lt
  induction k generalizing chain with
  | zero => exact exists_seeks_of_stopsAt_zero node baked h hcursor hcount
  | succ k ih =>
    by_cases hfirst : chain.StopsAt w.settings.maxGenerations 0
    · exact exists_seeks_of_stopsAt_zero node baked hfirst hcursor hcount
    · obtain ⟨hskips, hceiling, hsome⟩ := not_stopsAt_iff.mp hfirst
      have hnext := hranged.next hceiling
      obtain ⟨result, hresult⟩ := ih (stopsAt_next.mpr h) chain.cursor_next hnext hnext.generation_lt
      exact ⟨result, (World.seeks_of_on hcursor hcount hskips hceiling hsome).mpr hresult⟩

theorem Ranged.turned (h : chain.Ranged usual) (hpassed : ∀ j < k, ¬ chain.StopsAt usual j) :
    (chain.turned k).Ranged usual := by
  induction k generalizing chain with
  | zero => exact h
  | succ k ih =>
    have hceiling := (not_stopsAt_iff.mp (hpassed 0 (Nat.succ_pos k))).2.1
    exact ih (h.next hceiling) fun j hj =>
      mt stopsAt_next.mp (hpassed (j + 1) (Nat.succ_lt_succ hj))

/-! ## Counters that cannot be written -/

/-- The counter of generations cannot be written, although the first generation is allowed, and there
is always a next one, with nothing in it to stop at. -/
structure Endless (usual : Nat) (chain : Chain H) : Prop where
  stuck : ¬ chain.bundle.Takes Key.generation .int
  allowed : 1 ≤ chain.ceiling usual
  skips : ∀ k, chain.core.registry.Skips (chain.row k)
  nonempty : ∀ k, chain.row (k + 1) ≠ []

theorem generation_turned (h : chain.bundle.Takes Key.generation .int) (k : Nat) :
    (chain.turned k).bundle.generation = chain.bundle.generation + k := by
  induction k generalizing chain with
  | zero => simp [turned]
  | succ k ih =>
    rw [turned, ih (takes_generation_next.mpr h), generation_next h]
    omega

theorem generation_turned_of_not_takes (h : ¬ chain.bundle.Takes Key.generation .int) (k : Nat) :
    (chain.turned k).bundle.generation = 0 := by
  induction k generalizing chain with
  | zero => exact Bundle.generation_of_not_takes h
  | succ k ih => exact ih (mt takes_generation_next.mp h)

/-- **Only a chain whose counter cannot be written has no row to stop at.** -/
theorem endless_iff : chain.Endless usual ↔ ∀ k, ¬ chain.StopsAt usual k := by
  constructor
  · intro h k
    refine not_stopsAt_iff.mpr ⟨h.skips k, ?_, h.nonempty k⟩
    rw [generation_turned_of_not_takes h.stuck]
    exact h.allowed
  · intro h
    have hrows := fun k => not_stopsAt_iff.mp (h k)
    have hstuck : ¬ chain.bundle.Takes Key.generation .int := by
      -- A counter that rises passes the last generation at some time.
      intro htakes
      have hpast := (hrows (chain.ceiling usual - chain.bundle.generation).toNat).2.1
      rw [generation_turned htakes] at hpast
      omega
    have hfirst := (hrows 0).2.1
    rw [generation_turned_of_not_takes hstuck] at hfirst
    exact ⟨hstuck, hfirst, fun k => (hrows k).1, fun k => (hrows k).2.2⟩

/-- The counter of an endless chain stays at zero, so it always has a next number. -/
theorem Endless.overflows_eq_false (h : chain.Endless usual) : chain.overflows = false := by
  refine overflows_of_lt ?_
  rw [Bundle.generation_of_not_takes h.stuck]
  decide

theorem Endless.next (h : chain.Endless usual) : chain.next.Endless usual :=
  endless_iff.mpr fun k => mt stopsAt_next.mp (endless_iff.mp h (k + 1))

/-- What was passed over does not matter. -/
theorem Endless.spent (h : chain.Endless usual) (hcursor : -1 ≤ chain.core.sentence.cursor) :
    chain.spent.Endless usual where
  stuck := h.stuck
  allowed := h.allowed
  skips := by
    intro k
    cases k with
    | zero =>
      rw [row_spent hcursor]
      exact fun symbol hmem => (by cases hmem)
    | succ k => exact h.skips (k + 1)
  nonempty := h.nonempty

end Chain

namespace World

variable {w : World H} {node : NodeId} {chain : Chain H} {baked : Bool}

/-- One round of an endless search leads to the next one. -/
theorem exists_search_of_endless (h : chain.Endless w.settings.maxGenerations)
    (hcursor : -1 ≤ chain.core.sentence.cursor) :
    ∃ later : Chain H, later.Endless w.settings.maxGenerations ∧ -1 ≤ later.core.sentence.cursor ∧
      w.search node chain baked = (w, [.search node later baked]) := by
  by_cases hrow : chain.row 0 = []
  · have hnext : chain.next.row 0 ≠ [] := by
      rw [Chain.row_next]
      exact h.nonempty 0
    have hrenew : chain.renew? w.settings.maxGenerations = some chain.next :=
      Chain.renew?_of_le (Chain.not_stopsAt_iff.mp (Chain.endless_iff.mp h 0)).2.1
    refine ⟨chain.next.spent, h.next.spent chain.cursor_next,
      Chain.cursor_spent chain.cursor_next, ?_⟩
    rw [search_of_read (Chain.hasUnread_of_blank hcursor hrow) hrenew
      ((Sentence.hasUnread_iff chain.cursor_next).mpr hnext)]
    exact search_of_skips chain.cursor_next hnext (h.next.skips 0)
  · exact ⟨chain.spent, h.spent hcursor, Chain.cursor_spent hcursor,
      search_of_skips hcursor hrow (h.skips 0)⟩

/-- **An endless search is not over within any number of rounds.** -/
theorem seek_of_endless (h : chain.Endless w.settings.maxGenerations)
    (hcursor : -1 ≤ chain.core.sentence.cursor) (limit : Nat) :
    seek limit (w, [.search node chain baked]) = none := by
  induction limit generalizing chain with
  | zero => rfl
  | succ limit ih =>
    obtain ⟨later, hlater, hcursor, hsearch⟩ := exists_search_of_endless h hcursor
    rw [seek_search h.overflows_eq_false, hsearch]
    exact ih hlater hcursor

/-- **A search has an end exactly if its chain is not endless**, for counters of 64 bits, and these
never leave their range. -/
theorem seek_returns_iff (node : NodeId) (baked : Bool) (hcursor : -1 ≤ chain.core.sentence.cursor)
    (hranged : chain.Ranged w.settings.maxGenerations) :
    ((∃ limit result, seek limit (w.advance node chain baked) = some result) ↔
        ¬ (w.nodes.isDead node = false ∧ chain.Endless w.settings.maxGenerations)) ∧
      ∀ k, (∀ j < k, ¬ chain.StopsAt w.settings.maxGenerations j) →
        (chain.turned k).Ranged w.settings.maxGenerations := by
  refine ⟨?_, fun k hpassed => hranged.turned hpassed⟩
  rcases w.advance_cases node chain baked with ⟨hdead, hadvance⟩ | ⟨hlive, hadvance⟩
  · rw [hadvance]
    exact iff_of_true ⟨0, (w, []), rfl⟩ fun h => by simp [hdead] at h
  · rw [hadvance]
    by_cases hendless : chain.Endless w.settings.maxGenerations
    · refine iff_of_false ?_ fun h => h ⟨hlive, hendless⟩
      rintro ⟨limit, result, hseek⟩
      rw [seek_of_endless hendless hcursor] at hseek
      cases hseek
    · refine iff_of_true ?_ fun h => hendless h.2
      obtain ⟨k, hstops⟩ : ∃ k, chain.StopsAt w.settings.maxGenerations k := by
        simpa [Chain.endless_iff] using hendless
      obtain ⟨result, limit, hseek⟩ := hstops.exists_seeks node baked hcursor hranged
      exact ⟨limit, result, hseek⟩

/-- A chain whose counter is not an integer, over rules that keep its sentence. -/
def stalled : Chain Empty where
  core := { sentence := .ofString "A", registry := .empty, rules := {} }
  bundle := Bundle.empty.insert Key.generation (.bool true)

/-- The same with rules that drop all symbols. -/
def fading : Chain Empty :=
  { stalled with core := { stalled.core with rules := { fallback := .drop } } }

theorem fading_returns : ∃ limit result, seek limit (stump.advance 0 fading false) = some result := by
  refine (seek_returns_iff 0 false (by decide) ⟨by decide, by decide⟩).1.mpr ?_
  rintro ⟨-, hendless⟩
  exact hendless.nonempty 0 (by decide)

theorem stalled_endless : stalled.Endless stump.settings.maxGenerations := by
  have hgeneration : ∀ k, stalled.core.rules.generation k (.ofString "A") = .ofString "A" := by
    intro k
    induction k with
    | zero => rfl
    | succ k ih => exact ih
  have hrow : ∀ k, stalled.row k = ['A'] := by
    intro k
    cases k with
    | zero => rfl
    | succ k => exact congrArg Sentence.symbols (hgeneration (k + 1))
  refine ⟨fun htakes => ?_, by decide, fun k => ?_, fun k => by simp [hrow]⟩
  · have hkind := htakes (.bool true) rfl
    cases hkind
  · rw [hrow]
    intro symbol hmem
    obtain rfl := List.mem_singleton.mp hmem
    exact ⟨by decide, rfl⟩

/-- **No number of rounds is enough** for a search that passes over one symbol again and again. -/
theorem stalled_never_returns :
    ¬ ∃ limit result, seek limit (stump.advance 0 stalled false) = some result := by
  rintro ⟨limit, result, hseek⟩
  have hnone : seek limit (stump.advance 0 stalled false) = none :=
    seek_of_endless stalled_endless (by decide) limit
  rw [hnone] at hseek
  cases hseek

end World
end PlantGrowth
