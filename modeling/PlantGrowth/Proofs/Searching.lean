import PlantGrowth.Proofs.Draws
import PlantGrowth.Proofs.Reading

/-!
# The search for the next handler

Between two handlers of a chain lies a search. It has rows of symbols before it: what is unread of
the sentence, and after that each later generation of the sentence. It passes over the symbols of a
row, and stops at the first one that is bound or the sentinel; if there is none it goes on to the
next row, as long as this is a generation that the chain may reach.

The counter of generations lies in the chain's bundle, where the host may have put anything. So the
lemmas about single rows hold of all bundles. That the counter rises is a hypothesis of its own
(`Chain.Counted`).

* `Chain.row`, `Chain.turned`: the rows, and the chain in a later generation.
* `Chain.Turn`: what a search can do in its first row, and `World.seeks_of_on` and its neighbours:
  what it comes to in each of these cases.
* `World.continueAfter_law`: what a search comes to, in terms of all rows.
* `World.ends_advance_iff`: the search is that of the nested work.
-/

namespace PlantGrowth

variable {H : Type}

/-! ## Rows and generations -/

namespace Chain

variable {chain : Chain H} {usual k : Nat}

/-- The rows of symbols before a search. -/
def row (chain : Chain H) : Nat → List Char
  | 0 => chain.core.sentence.unread
  | k + 1 => (chain.core.rules.generation (k + 1) chain.core.sentence).symbols

theorem row_next (chain : Chain H) (k : Nat) : chain.next.row k = chain.row (k + 1) := by
  cases k with
  | zero => exact Sentence.unread_of_cursor_eq (RuleSet.cursor_apply _ _)
  | succ k => rfl

/-- Nothing follows an empty generation. -/
theorem row_of_blank (h : chain.row 1 = []) (k : Nat) : chain.row (k + 1) = [] := by
  induction k with
  | zero => exact h
  | succ k ih =>
    have hnext : chain.core.rules.generation (k + 2) chain.core.sentence =
        chain.core.rules.apply (chain.core.rules.generation (k + 1) chain.core.sentence) := by
      rw [chain.core.rules.generation_add (k + 1) 1]
      rfl
    rw [row, hnext]
    exact RuleSet.symbols_apply_of_blank ih

theorem cursor_next (chain : Chain H) : -1 ≤ chain.next.core.sentence.cursor :=
  Int.le_of_eq (RuleSet.cursor_apply _ _).symm

/-- The chain after a number of generations, be they past the last one or not. -/
def turned : Nat → Chain H → Chain H
  | 0, chain => chain
  | k + 1, chain => turned k chain.next

theorem renew?_of_le (h : chain.bundle.generation + 1 ≤ chain.ceiling usual) :
    chain.renew? usual = some chain.next := by
  rw [renew?_eq, if_neg (Int.not_lt.mpr h)]

theorem renew?_of_lt (h : chain.ceiling usual < chain.bundle.generation + 1) :
    chain.renew? usual = none := by
  rw [renew?_eq, if_pos h]

/-- The chain with its sentence read to the end. -/
def spent (chain : Chain H) : Chain H :=
  { chain with core := { chain.core with sentence := { chain.core.sentence with
      cursor := chain.core.sentence.cursor + chain.core.sentence.unread.length } } }

theorem renew?_spent (usual : Nat) (chain : Chain H) : chain.spent.renew? usual = chain.renew? usual :=
  rfl

theorem row_spent (hcursor : -1 ≤ chain.core.sentence.cursor) : chain.spent.row 0 = [] := by
  rw [row, spent, Sentence.unread_of_move hcursor, List.drop_length]

theorem cursor_spent (hcursor : -1 ≤ chain.core.sentence.cursor) :
    -1 ≤ chain.spent.core.sentence.cursor := by
  show -1 ≤ chain.core.sentence.cursor + chain.core.sentence.unread.length
  omega

theorem hasUnread_of_blank (hcursor : -1 ≤ chain.core.sentence.cursor) (hrow : chain.row 0 = []) :
    chain.core.sentence.hasUnread = false := by
  rw [Bool.eq_false_iff]
  exact fun hread => (Sentence.hasUnread_iff hcursor).mp hread hrow

theorem hasUnread_spent (hcursor : -1 ≤ chain.core.sentence.cursor) :
    chain.spent.core.sentence.hasUnread = false :=
  hasUnread_of_blank (cursor_spent hcursor) (row_spent hcursor)

/-! ## Counters -/

/-- The counters of generations are below the largest 64-bit integer, so each of them can be counted on
once more. -/
structure Ranged (usual : Nat) (chain : Chain H) : Prop where
  generation_lt : chain.bundle.generation < Int64.maxValue.toInt
  ceiling_lt : chain.ceiling usual < Int64.maxValue.toInt

/-- The entries that a search writes are of the right kinds, if they are there. -/
structure Counted (usual : Nat) (chain : Chain H) : Prop extends Ranged usual chain where
  sentence : chain.bundle.Takes Key.sentence .sentence
  generation : chain.bundle.Takes Key.generation .int

theorem takes_generation_next : chain.next.bundle.Takes Key.generation .int ↔
    chain.bundle.Takes Key.generation .int :=
  (Bundle.takes_write_self _ Key.generation (.int (chain.bundle.generation + 1))).trans
    (Bundle.takes_write_of_ne (by decide) _ _)

theorem takes_sentence_next : chain.next.bundle.Takes Key.sentence .sentence ↔
    chain.bundle.Takes Key.sentence .sentence :=
  (Bundle.takes_write_of_ne (by decide) _ _).trans
    (Bundle.takes_write_self chain.bundle Key.sentence
      (.sentence (chain.core.rules.apply chain.core.sentence)))

theorem find?_next_generation (h : chain.bundle.Takes Key.generation .int) :
    chain.next.bundle.find? Key.generation = some (.int (chain.bundle.generation + 1)) :=
  Bundle.find?_write_self ((Bundle.takes_write_of_ne (by decide) _ _).mpr h)

theorem generation_next (h : chain.bundle.Takes Key.generation .int) :
    chain.next.bundle.generation = chain.bundle.generation + 1 :=
  Bundle.generation_of_find? (find?_next_generation h)

/-- A counter that cannot be written stays as it is. -/
theorem generation_next_of_not_takes (h : ¬ chain.bundle.Takes Key.generation .int) :
    chain.next.bundle.generation = 0 :=
  Bundle.generation_of_not_takes (mt takes_generation_next.mp h)

/-- **No counter that is written on the way leaves the range.** -/
theorem Ranged.next (h : chain.Ranged usual)
    (hceiling : chain.bundle.generation + 1 ≤ chain.ceiling usual) : chain.next.Ranged usual := by
  refine ⟨?_, ?_⟩
  · by_cases htakes : chain.bundle.Takes Key.generation .int
    · rw [generation_next htakes]
      exact Int.lt_of_le_of_lt hceiling h.ceiling_lt
    · rw [generation_next_of_not_takes htakes]
      decide
  · rw [ceiling_next]
    exact h.ceiling_lt

theorem Counted.next (h : chain.Counted usual)
    (hceiling : chain.bundle.generation + 1 ≤ chain.ceiling usual) : chain.next.Counted usual :=
  ⟨h.toRanged.next hceiling, takes_sentence_next.mpr h.sentence,
    takes_generation_next.mpr h.generation⟩

/-- **Later generations change the sentence and the counter only.** -/
theorem find?_turned (h : chain.bundle.Takes Key.generation .int) {key : String}
    (hkey : key ≠ Key.sentence) (k : Nat) :
    (chain.turned k).bundle.find? key =
      if key = Key.generation ∧ 0 < k then some (.int (chain.bundle.generation + k))
      else chain.bundle.find? key := by
  induction k generalizing chain with
  | zero => simp [turned]
  | succ k ih =>
    rw [turned, ih (takes_generation_next.mpr h), generation_next h]
    by_cases hgeneration : key = Key.generation
    · subst hgeneration
      rw [find?_next_generation h]
      rcases Nat.eq_zero_or_pos k with rfl | hpos
      · simp
      · simp only [hpos, Nat.succ_pos, and_self, if_true]
        congr 2
        omega
    · rw [if_neg (fun hboth => hgeneration hboth.1), if_neg (fun hboth => hgeneration hboth.1),
        find?_next chain hkey hgeneration]

/-- A chain in its last generation is never renewed. -/
theorem Follows.eq_of_current {seed : Seed H} {current : Chain H} {usual : Nat}
    (h : chain.Follows seed) (hlast : seed.ceiling ≤ chain.bundle.generation)
    (hcurrent : chain.Current usual current) : chain = current := by
  cases hcurrent with
  | same _ => rfl
  | renewed _ hrenew =>
    obtain ⟨-, -, hnext, hle⟩ := h.renew hrenew
    omega

/-! ## One row -/

/-- What a search does in the first row before it. -/
inductive Turn (usual : Nat) (chain : Chain H) : Prop where
  | ended {skipped rest : List Char} (hrow : chain.row 0 = skipped ++ sentinel :: rest)
      (hskips : chain.core.registry.Skips skipped) : Turn usual chain
  | found {skipped rest : List Char} {symbol : Char} {prototype : Prototype H}
      (hrow : chain.row 0 = skipped ++ symbol :: rest) (hskips : chain.core.registry.Skips skipped)
      (hsymbol : symbol ≠ sentinel) (hfind : chain.core.registry.find? symbol = some prototype) :
      Turn usual chain
  /-- It passes over the row, and there is no other one. -/
  | last (hskips : chain.core.registry.Skips (chain.row 0))
      (hlast : chain.ceiling usual < chain.bundle.generation + 1) : Turn usual chain
  /-- It passes over the row, and there is nothing in the next one. -/
  | blank (hskips : chain.core.registry.Skips (chain.row 0))
      (hceiling : chain.bundle.generation + 1 ≤ chain.ceiling usual) (hblank : chain.row 1 = []) :
      Turn usual chain
  /-- It passes over the row and goes on to the next one. -/
  | on (hskips : chain.core.registry.Skips (chain.row 0))
      (hceiling : chain.bundle.generation + 1 ≤ chain.ceiling usual) (hsome : chain.row 1 ≠ []) :
      Turn usual chain

/-- **There is no other case.** -/
theorem turn (usual : Nat) (chain : Chain H) : chain.Turn usual := by
  rcases chain.core.registry.skips_or_exists (chain.row 0) with
    hskips | ⟨skipped, symbol, rest, hrow, hskips, rfl | ⟨hsymbol, prototype, hfind⟩⟩
  · by_cases hlast : chain.ceiling usual < chain.bundle.generation + 1
    · exact Turn.last hskips hlast
    · have hceiling := Int.not_lt.mp hlast
      by_cases hblank : chain.row 1 = []
      · exact Turn.blank hskips hceiling hblank
      · exact Turn.on hskips hceiling hblank
  · exact Turn.ended hrow hskips
  · exact Turn.found hrow hskips hsymbol hfind

end Chain

namespace World

variable {w later : World H} {node : NodeId} {chain : Chain H} {baked : Bool}
  {tasks : List (Task H)} {result : World H × List (Task H)} {skipped rest : List Char}
  {symbol : Char} {prototype : Prototype H} {limit more : Nat}

/-- What one round of a search comes to in the last generation of a seed's plant, if the sentinel is not
ahead. -/
inductive Reads (seed : Seed H) (w : World H) (node : NodeId) (chain : Chain H) (baked : Bool) :
    World H × List (Task H) → Prop where
  | done (hunread : chain.core.sentence.unread = []) : Reads seed w node chain baked (w, [])
  | passed {s : Sentence} (hskips : Registry.Skips seed.registry chain.core.sentence.unread)
      (hcursor : -1 ≤ s.cursor) (hunread : s.unread = []) : Reads seed w node chain baked
        (w, [.search node { chain with core := { chain.core with sentence := s } } baked])
  | found {skipped : List Char} {symbol : Char} {prototype : Prototype H} {s : Sentence}
      (hunread : chain.core.sentence.unread = skipped ++ symbol :: s.unread)
      (hskips : Registry.Skips seed.registry skipped) (hfind : seed.registry.find? symbol = some prototype)
      (hcursor : 0 ≤ s.cursor) :
      Reads seed w node chain baked (w.dispatch node symbol prototype s chain.bundle baked)

/-- **In its last generation a chain reads on to the next bound symbol**, or to the end. -/
theorem reads_search {seed : Seed H} (h : chain.Follows seed)
    (hlast : seed.ceiling ≤ chain.bundle.generation) (hcursor : -1 ≤ chain.core.sentence.cursor)
    (hproper : sentinel ∉ chain.core.sentence.unread) (w : World H) (node : NodeId) (baked : Bool) :
    Reads seed w node chain baked (w.search node chain baked) := by
  have hfinds := w.finds_search node chain baked
  generalize w.search node chain baked = next at hfinds ⊢
  cases hfinds with
  | last hread _ =>
    refine .done ?_
    by_contra hsome
    rw [(Sentence.hasUnread_iff hcursor).mpr hsome] at hread
    cases hread
  | blank hcurrent hblank =>
    obtain rfl := h.eq_of_current hlast hcurrent
    exact .done hblank
  | ended hcurrent hended =>
    obtain rfl := h.eq_of_current hlast hcurrent
    exact absurd (Sentence.sentinel_mem_of_readTo_eq_ended hended) hproper
  | exhausted hcurrent _ hreading =>
    obtain rfl := h.eq_of_current hlast hcurrent
    rw [h.registry] at hreading
    obtain ⟨hskips, -⟩ := Sentence.eq_of_readTo_eq_exhausted hreading
    obtain ⟨hnil, hlater, -⟩ := Sentence.unread_of_readTo_eq_exhausted hcursor hreading
    exact .passed hskips hlater hnil
  | found hcurrent hreading =>
    obtain rfl := h.eq_of_current hlast hcurrent
    rw [h.registry] at hreading
    obtain ⟨skipped, hunread, hskips⟩ := Sentence.unread_of_readTo_eq_found hcursor hreading
    obtain ⟨-, -, -, -, -, hfind, -⟩ := Sentence.exists_of_readTo_eq_found hreading
    exact .found hunread hskips hfind (Sentence.cursor_of_readTo_eq_found hcursor hreading)

/-- The search for the next handler of a chain comes to this. -/
def Seeks (w : World H) (node : NodeId) (chain : Chain H) (baked : Bool)
    (result : World H × List (Task H)) : Prop :=
  ∃ limit, seek limit (w, [.search node chain baked]) = some result

/-- None of the tasks is to search on. -/
def Sought (tasks : List (Task H)) : Prop := ∀ node chain baked, tasks ≠ [.search node chain baked]

theorem sought_nil : Sought ([] : List (Task H)) := fun _ _ _ h => (by cases h)

theorem sought_call (handler : Handler H) (node : NodeId) (bundle : Bundle H) (baked : Bool) :
    Sought [.call handler node bundle baked] := fun _ _ _ h => (by cases h)

theorem seek_of_sought (h : Sought tasks) (limit : Nat) : seek limit (w, tasks) = some (w, tasks) := by
  unfold seek
  split
  next heq =>
    cases heq
    exact absurd rfl (h _ _ _)
  next heq =>
    cases heq
    exact absurd rfl (h _ _ _)
  next => rfl

theorem seek_search (h : chain.overflows = false) (limit : Nat) (w : World H) (node : NodeId)
    (baked : Bool) :
    seek (limit + 1) (w, [.search node chain baked]) = seek limit (w.search node chain baked) :=
  if_neg (Bool.eq_false_iff.mp h)

/-- A search that comes to something has a next number for its counter. -/
theorem overflows_eq_false_of_seek (h : seek limit (w, [.search node chain baked]) = some result) :
    chain.overflows = false := by
  cases limit with
  | zero => cases h
  | succ limit =>
    rw [Bool.eq_false_iff]
    intro hover
    rw [seek, if_pos hover] at h
    cases h

theorem sought_or_exists (tasks : List (Task H)) :
    Sought tasks ∨ ∃ node chain baked, tasks = [.search node chain baked] := by
  by_cases h : ∃ node chain baked, tasks = [.search node chain baked]
  · exact Or.inr h
  · exact Or.inl fun node chain baked heq => h ⟨node, chain, baked, heq⟩

/-- A search that is over within some number of rounds is over within any larger number. -/
theorem seek_mono {start : World H × List (Task H)} (h : seek limit start = some result)
    (hle : limit ≤ more) : seek more start = some result := by
  induction limit generalizing more start with
  | zero =>
    obtain ⟨w, tasks⟩ := start
    rcases sought_or_exists tasks with hsought | ⟨node, chain, baked, rfl⟩
    · rwa [seek_of_sought hsought] at h ⊢
    · cases h
  | succ limit ih =>
    obtain ⟨w, tasks⟩ := start
    rcases sought_or_exists tasks with hsought | ⟨node, chain, baked, rfl⟩
    · rwa [seek_of_sought hsought] at h ⊢
    · obtain ⟨k, rfl⟩ : ∃ k, more = k + 1 := ⟨more - 1, by omega⟩
      have hover := overflows_eq_false_of_seek h
      rw [seek_search hover] at h ⊢
      exact ih h (Nat.le_of_succ_le_succ hle)

theorem seeks_iff (hover : chain.overflows = false) : w.Seeks node chain baked result ↔
    ∃ limit, seek limit (w.search node chain baked) = some result := by
  constructor
  · rintro ⟨limit, h⟩
    cases limit with
    | zero => cases h
    | succ limit => exact ⟨limit, (seek_search hover limit w node baked).symm.trans h⟩
  · rintro ⟨limit, h⟩
    exact ⟨limit + 1, (seek_search hover limit w node baked).trans h⟩

theorem seeks_of_sought (hover : chain.overflows = false)
    (hsearch : w.search node chain baked = (later, tasks)) (h : Sought tasks) :
    w.Seeks node chain baked result ↔ result = (later, tasks) := by
  rw [seeks_iff hover, hsearch]
  simp only [seek_of_sought h, exists_const, Option.some.injEq]
  exact eq_comm

theorem overflows_of_row (hcursor : -1 ≤ chain.core.sentence.cursor) (hrow : chain.row 0 ≠ []) :
    chain.overflows = false := Chain.overflows_of_unread ((Sentence.hasUnread_iff hcursor).mpr hrow)

/-- A search with a row that is not empty reads in it. -/
theorem search_of_row (hcursor : -1 ≤ chain.core.sentence.cursor) (hrow : chain.row 0 ≠ []) :
    w.search node chain baked =
      match chain.core.sentence.readTo chain.core.registry (chain.row 0) with
      | .ended => (w, [])
      | .found symbol prototype s => w.dispatch node symbol prototype s chain.bundle baked
      | .exhausted s =>
        (w, [.search node { chain with core := { chain.core with sentence := s } } baked]) :=
  search_of_unread ((Sentence.hasUnread_iff hcursor).mpr hrow) hrow

theorem seeks_of_ended (hcursor : -1 ≤ chain.core.sentence.cursor)
    (hrow : chain.row 0 = skipped ++ sentinel :: rest)
    (hskips : chain.core.registry.Skips skipped) :
    w.Seeks node chain baked result ↔ result = (w, []) := by
  have hsome : chain.row 0 ≠ [] := by simp [hrow]
  refine seeks_of_sought (overflows_of_row hcursor hsome) ?_ sought_nil
  rw [search_of_row hcursor hsome, hrow, Sentence.readTo_of_ended hskips]

theorem sought_dispatch (s : Sentence) (bundle : Bundle H) :
    Sought (w.dispatch node symbol prototype s bundle baked).2 := by
  by_cases htakes : bundle.Takes Key.sentence .sentence
  · rw [dispatch_of_takes htakes]
    exact sought_call _ _ _ _
  · rw [dispatch_of_not_takes htakes]
    exact sought_nil

theorem seeks_of_found (hcursor : -1 ≤ chain.core.sentence.cursor)
    (hrow : chain.row 0 = skipped ++ symbol :: rest) (hskips : chain.core.registry.Skips skipped)
    (hsymbol : symbol ≠ sentinel) (hfind : chain.core.registry.find? symbol = some prototype) :
    w.Seeks node chain baked result ↔
      result = w.dispatch node symbol prototype
        { chain.core.sentence with cursor := chain.core.sentence.cursor + skipped.length + 1 }
        chain.bundle baked := by
  have hsome : chain.row 0 ≠ [] := by simp [hrow]
  have hsearch : w.search node chain baked = w.dispatch node symbol prototype
      { chain.core.sentence with cursor := chain.core.sentence.cursor + skipped.length + 1 }
      chain.bundle baked := by
    rw [search_of_row hcursor hsome, hrow, Sentence.readTo_of_found hskips hsymbol hfind]
  exact seeks_of_sought (overflows_of_row hcursor hsome) hsearch (sought_dispatch _ _)

/-- A row that is passed over is read to its end. -/
theorem search_of_skips (hcursor : -1 ≤ chain.core.sentence.cursor) (hrow : chain.row 0 ≠ [])
    (hskips : chain.core.registry.Skips (chain.row 0)) :
    w.search node chain baked = (w, [.search node chain.spent baked]) := by
  rw [search_of_row hcursor hrow, Sentence.readTo_of_skips hskips]
  rfl

theorem seeks_spent (hcursor : -1 ≤ chain.core.sentence.cursor)
    (hskips : chain.core.registry.Skips (chain.row 0)) :
    w.Seeks node chain baked result ↔ w.Seeks node chain.spent baked result := by
  by_cases hrow : chain.row 0 = []
  · have hsame : chain.spent = chain := by
      have hlength : chain.core.sentence.unread.length = 0 := by
        rw [List.length_eq_zero_iff]
        exact hrow
      simp [Chain.spent, hlength]
    rw [hsame]
  · rw [seeks_iff (overflows_of_row hcursor hrow), search_of_skips hcursor hrow hskips]
    rfl

/-- A chain that has been read to the end of its sentence has the same counter. -/
theorem overflows_spent (hcount : chain.bundle.generation < Int64.maxValue.toInt) :
    chain.spent.overflows = false := Chain.overflows_of_lt hcount

theorem seeks_of_last (hcursor : -1 ≤ chain.core.sentence.cursor)
    (hcount : chain.bundle.generation < Int64.maxValue.toInt)
    (hskips : chain.core.registry.Skips (chain.row 0))
    (hlast : chain.ceiling w.settings.maxGenerations < chain.bundle.generation + 1) :
    w.Seeks node chain baked result ↔ result = (w, []) := by
  rw [seeks_spent hcursor hskips]
  refine seeks_of_sought (overflows_spent hcount)
    (search_of_last (Chain.hasUnread_spent hcursor) ?_) sought_nil
  rw [Chain.renew?_spent, Chain.renew?_of_lt hlast]

theorem seeks_of_blank (hcursor : -1 ≤ chain.core.sentence.cursor)
    (hcount : chain.bundle.generation < Int64.maxValue.toInt)
    (hskips : chain.core.registry.Skips (chain.row 0))
    (hceiling : chain.bundle.generation + 1 ≤ chain.ceiling w.settings.maxGenerations)
    (hblank : chain.row 1 = []) :
    w.Seeks node chain baked result ↔ result = (w, []) := by
  rw [seeks_spent hcursor hskips]
  have hrenew : chain.spent.renew? w.settings.maxGenerations = some chain.next := by
    rw [Chain.renew?_spent, Chain.renew?_of_le hceiling]
  exact seeks_of_sought (overflows_spent hcount) (search_of_blank (Chain.hasUnread_spent hcursor) hrenew
    ((chain.row_next 0).trans hblank)) sought_nil

/-- **A search goes on in the next generation as it would begin there.** -/
theorem seeks_of_on (hcursor : -1 ≤ chain.core.sentence.cursor)
    (hcount : chain.bundle.generation < Int64.maxValue.toInt)
    (hskips : chain.core.registry.Skips (chain.row 0))
    (hceiling : chain.bundle.generation + 1 ≤ chain.ceiling w.settings.maxGenerations)
    (hsome : chain.row 1 ≠ []) :
    w.Seeks node chain baked result ↔ w.Seeks node chain.next baked result := by
  have hrenew : chain.spent.renew? w.settings.maxGenerations = some chain.next := by
    rw [Chain.renew?_spent, Chain.renew?_of_le hceiling]
  have hunread : chain.next.core.sentence.unread ≠ [] := by
    rw [show chain.next.core.sentence.unread = _ from chain.row_next 0]
    exact hsome
  have hread : chain.next.core.sentence.hasUnread = true :=
    (Sentence.hasUnread_iff chain.cursor_next).mpr hunread
  rw [seeks_spent hcursor hskips, seeks_iff (overflows_spent hcount),
    seeks_iff (Chain.overflows_of_unread hread),
    search_of_read (Chain.hasUnread_spent hcursor) hrenew hread]

end World

/-! ## All rows -/

namespace Chain

variable {chain : Chain H} {usual k : Nat} {skipped : List Char} {symbol : Char}
  {prototype : Prototype H}

/-- Of all symbols before a search the first one at which it stops is this one, in the `k`-th row
behind the symbols `skipped`, and it is bound. -/
structure Reaches (usual : Nat) (chain : Chain H) (k : Nat) (skipped : List Char) (symbol : Char)
    (prototype : Prototype H) : Prop where
  allowed : 0 < k → chain.bundle.generation + k ≤ chain.ceiling usual
  passed : ∀ j < k, chain.core.registry.Skips (chain.row j)
  row : ∃ rest, chain.row k = skipped ++ symbol :: rest
  skips : chain.core.registry.Skips skipped
  proper : symbol ≠ sentinel
  bound : chain.core.registry.find? symbol = some prototype

/-- The sentence of the `k`-th row, with the cursor on the symbol behind a number of others. -/
def upTo (chain : Chain H) (k count : Nat) : Sentence :=
  let s := chain.core.rules.generation k chain.core.sentence
  { s with cursor := s.cursor + count + 1 }

/-- The bundle for a handler whose symbol is there. -/
def handed (chain : Chain H) (k count : Nat) : Bundle H :=
  (chain.turned k).bundle.write Key.sentence (.sentence (chain.upTo k count))

theorem Counted.find?_handed (h : chain.Counted usual) (k count : Nat) (key : String) :
    (chain.handed k count).find? key =
      if key = Key.sentence then some (.sentence (chain.upTo k count))
      else if key = Key.generation ∧ 0 < k then some (.int (chain.bundle.generation + k))
      else chain.bundle.find? key := by
  by_cases hkey : key = Key.sentence
  · subst hkey
    have htakes : ∀ {chain : Chain H}, chain.bundle.Takes Key.sentence .sentence →
        (chain.turned k).bundle.Takes Key.sentence .sentence := by
      induction k with
      | zero => exact fun htakes => htakes
      | succ k ih => exact fun htakes => ih (takes_sentence_next.mpr htakes)
    rw [if_pos rfl]
    exact Bundle.find?_write_self (htakes h.sentence)
  · rw [if_neg hkey, handed, Bundle.find?_write_of_ne hkey, find?_turned h.generation hkey]

theorem Reaches.next (h : chain.Reaches usual (k + 1) skipped symbol prototype)
    (htakes : chain.bundle.Takes Key.generation .int) :
    chain.next.Reaches usual k skipped symbol prototype where
  allowed := by
    intro _
    rw [generation_next htakes, ceiling_next]
    have hallowed := h.allowed (Nat.succ_pos k)
    omega
  passed := by
    intro j hj
    rw [row_next]
    exact h.passed (j + 1) (Nat.succ_lt_succ hj)
  row := by
    rw [row_next]
    exact h.row
  skips := h.skips
  proper := h.proper
  bound := h.bound

theorem Reaches.of_next (h : chain.next.Reaches usual k skipped symbol prototype)
    (htakes : chain.bundle.Takes Key.generation .int)
    (hskips : chain.core.registry.Skips (chain.row 0))
    (hceiling : chain.bundle.generation + 1 ≤ chain.ceiling usual) :
    chain.Reaches usual (k + 1) skipped symbol prototype where
  allowed := by
    intro _
    rcases Nat.eq_zero_or_pos k with rfl | hpos
    · exact hceiling
    · have hallowed := h.allowed hpos
      rw [generation_next htakes, ceiling_next] at hallowed
      omega
  passed := by
    intro j hj
    cases j with
    | zero => exact hskips
    | succ j =>
      rw [← row_next]
      exact h.passed j (Nat.lt_of_succ_lt_succ hj)
  row := by
    rw [← row_next]
    exact h.row
  skips := h.skips
  proper := h.proper
  bound := h.bound

/-- A search that goes on to a later row does not stop at the next one for want of symbols. -/
theorem Reaches.row_ne_nil (h : chain.Reaches usual (k + 1) skipped symbol prototype) :
    chain.row 1 ≠ [] := by
  intro hblank
  obtain ⟨rest, hrow⟩ := h.row
  rw [row_of_blank hblank] at hrow
  simp at hrow

/-- **A search that meets a bound symbol first comes to the call of its handler.** -/
theorem Reaches.seeks_iff {w : World H} (node : NodeId) (baked : Bool)
    (h : chain.Reaches w.settings.maxGenerations k skipped symbol prototype)
    (hcursor : -1 ≤ chain.core.sentence.cursor)
    (hcounted : chain.Counted w.settings.maxGenerations) (result : World H × List (Task H)) :
    w.Seeks node chain baked result ↔
      result = (w.make (prototype.draft symbol (w.nodes.nearestAnchor node) baked),
        [.call prototype.handler w.nodes.size (chain.handed k skipped.length)
          (baked || prototype.baked)]) := by
  induction k generalizing chain with
  | zero =>
    obtain ⟨rest, hrow⟩ := h.row
    rw [World.seeks_of_found hcursor hrow h.skips h.proper h.bound,
      World.dispatch_of_takes hcounted.sentence]
    rfl
  | succ k ih =>
    have hceiling : chain.bundle.generation + 1 ≤ chain.ceiling w.settings.maxGenerations := by
      have hallowed := h.allowed (Nat.succ_pos k)
      omega
    rw [World.seeks_of_on hcursor hcounted.generation_lt (h.passed 0 (Nat.succ_pos k)) hceiling
        h.row_ne_nil,
      ih (h.next hcounted.generation) chain.cursor_next (hcounted.next hceiling)]
    rfl

/-- **A search that meets no bound symbol first comes to nothing.** -/
theorem exists_reaches_or_seeks {w : World H} (node : NodeId) (baked : Bool)
    (hcursor : -1 ≤ chain.core.sentence.cursor)
    (hcounted : chain.Counted w.settings.maxGenerations) :
    (∃ k skipped symbol prototype,
        chain.Reaches w.settings.maxGenerations k skipped symbol prototype) ∨
      ∀ result, w.Seeks node chain baked result ↔ result = (w, []) := by
  -- The generations that are left.
  induction hleft : (chain.ceiling w.settings.maxGenerations - chain.bundle.generation).toNat
    using Nat.strongRecOn generalizing chain with
  | ind left ih =>
    subst hleft
    cases chain.turn w.settings.maxGenerations with
    | ended hrow hskips => exact Or.inr fun result => World.seeks_of_ended hcursor hrow hskips
    | @found skipped rest symbol prototype hrow hskips hsymbol hfind =>
      exact Or.inl ⟨0, skipped, symbol, prototype,
        ⟨fun hpos => absurd hpos (Nat.lt_irrefl 0), fun j hj => absurd hj (Nat.not_lt_zero j),
          ⟨rest, hrow⟩, hskips, hsymbol, hfind⟩⟩
    | last hskips hlast =>
      exact Or.inr fun result => World.seeks_of_last hcursor hcounted.generation_lt hskips hlast
    | blank hskips hceiling hblank =>
      exact Or.inr fun result =>
        World.seeks_of_blank hcursor hcounted.generation_lt hskips hceiling hblank
    | on hskips hceiling hsome =>
      have hfewer : (chain.next.ceiling w.settings.maxGenerations -
          chain.next.bundle.generation).toNat <
            (chain.ceiling w.settings.maxGenerations - chain.bundle.generation).toNat := by
        rw [ceiling_next, generation_next hcounted.generation]
        omega
      rcases ih _ hfewer chain.cursor_next (hcounted.next hceiling) rfl with
        ⟨k, skipped, symbol, prototype, hreaches⟩ | hnone
      · exact Or.inl ⟨k + 1, skipped, symbol, prototype,
          hreaches.of_next hcounted.generation hskips hceiling⟩
      · refine Or.inr fun result => ?_
        rw [World.seeks_of_on hcursor hcounted.generation_lt hskips hceiling hsome]
        exact hnone result

end Chain

/-! ## The search within nested work -/

namespace World

variable [Host H] {w later after : World H} {node : NodeId} {chain : Chain H} {baked ok : Bool}
  {left : List (Task H)} {start : World H × List (Task H)} {limit : Nat}

/-- A search that is the next task is the next step of the run. -/
theorem comes_search (h : chain.overflows = false) (w : World H) (node : NodeId) (baked : Bool) :
    Comes w [.search node chain baked] (w.search node chain baked).1
      (w.search node chain baked).2 := by
  refine Comes.head ((w.halts_search node chain baked).trans h) ?_
  rw [List.append_nil]
  exact Comes.refl _ _

/-- The rounds of a search are steps of the run. -/
theorem comes_of_seek (h : seek limit start = some (later, left)) :
    Comes start.1 start.2 later left := by
  induction limit generalizing start with
  | zero =>
    obtain ⟨w, tasks⟩ := start
    rcases sought_or_exists tasks with hsought | ⟨node, chain, baked, rfl⟩
    · rw [seek_of_sought hsought] at h
      cases h
      exact Comes.refl _ _
    · cases h
  | succ limit ih =>
    obtain ⟨w, tasks⟩ := start
    rcases sought_or_exists tasks with hsought | ⟨node, chain, baked, rfl⟩
    · rw [seek_of_sought hsought] at h
      cases h
      exact Comes.refl _ _
    · have hover := overflows_eq_false_of_seek h
      rw [seek_search hover] at h
      exact (comes_search hover w node baked).trans (ih h)

/-- A search is over where the run that it belongs to ends. -/
theorem exists_seek_of_run (h : run limit start.2 start.1 = some after) :
    ∃ result, seek limit start = some result := by
  induction limit generalizing start with
  | zero =>
    obtain ⟨w, tasks⟩ := start
    rcases sought_or_exists tasks with hsought | ⟨node, chain, baked, rfl⟩
    · exact ⟨_, seek_of_sought hsought 0⟩
    · cases h
  | succ limit ih =>
    obtain ⟨w, tasks⟩ := start
    rcases sought_or_exists tasks with hsought | ⟨node, chain, baked, rfl⟩
    · exact ⟨_, seek_of_sought hsought (limit + 1)⟩
    · have goes := halts_eq_false_of_run h
      rw [run_cons goes, List.append_nil] at h
      rw [seek_search ((w.halts_search node chain baked).symm.trans goes)]
      exact ih h

/-- What continuing a chain comes to: a search, and the work that this leads to. -/
theorem continueAfter_iff :
    (∃ limit, w.continueAfter limit node chain baked = some (ok, after)) ↔
      ∃ later left, (∃ limit, seek limit (w.advance node chain baked) = some (later, left)) ∧
        ok = !left.isEmpty ∧ Ends later left after := by
  constructor
  · rintro ⟨limit, h⟩
    obtain ⟨⟨later, left⟩, hseek, h⟩ := Option.bind_eq_some_iff.mp h
    obtain ⟨last, hrun, h⟩ := Option.bind_eq_some_iff.mp h
    cases h
    exact ⟨later, left, ⟨limit, hseek⟩, rfl, limit, hrun⟩
  · rintro ⟨later, left, ⟨rounds, hseek⟩, rfl, steps, hrun⟩
    have hseek := seek_mono hseek (Nat.le_max_left rounds steps)
    have hrun := run_mono hrun (Nat.le_max_right rounds steps)
    refine ⟨max rounds steps, ?_⟩
    simp only [continueAfter, hseek, hrun, Option.pure_def, Option.bind_eq_bind, Option.bind_some]

/-- **A chain that is continued in the course of nested work** is continued in the same way. -/
theorem ends_advance_iff :
    Ends w [.advance node chain baked] after ↔
      ∃ limit ok, w.continueAfter limit node chain baked = some (ok, after) := by
  have hstep : Comes w [.advance node chain baked] (w.advance node chain baked).1
      (w.advance node chain baked).2 := by
    refine Comes.head (w.halts_advance node chain baked) ?_
    rw [List.append_nil]
    exact Comes.refl _ _
  constructor
  · intro h
    obtain ⟨steps, hrun⟩ := h.of_comes hstep
    obtain ⟨⟨later, left⟩, hseek⟩ := exists_seek_of_run hrun
    have hends : Ends later left after := Ends.of_comes ⟨steps, hrun⟩ (comes_of_seek hseek)
    obtain ⟨limit, hlimit⟩ := continueAfter_iff.mpr ⟨later, left, ⟨steps, hseek⟩, rfl, hends⟩
    exact ⟨limit, _, hlimit⟩
  · rintro ⟨limit, ok, h⟩
    obtain ⟨later, left, ⟨rounds, hseek⟩, -, hends⟩ := continueAfter_iff.mp ⟨limit, h⟩
    exact (hstep.trans (comes_of_seek hseek)).ends_of_ends hends

/-- Continuing a chain after a live node, if it is known what the search comes to. -/
theorem continueAfter_iff_of_seeks (hlive : w.nodes.isDead node = false)
    (hseeks : ∀ result, w.Seeks node chain baked result ↔ result = (later, left)) :
    (∃ limit, w.continueAfter limit node chain baked = some (ok, after)) ↔
      ok = !left.isEmpty ∧ Ends later left after := by
  have hadvance : w.advance node chain baked = (w, [.search node chain baked]) := by
    simp only [advance, hlive, Bool.false_eq_true, if_false]
  rw [continueAfter_iff, hadvance]
  constructor
  · rintro ⟨other, tasks, hother, hends⟩
    cases (hseeks _).mp hother
    exact hends
  · intro hends
    exact ⟨later, left, (hseeks _).mpr rfl, hends⟩

/-! ## The law of the search -/

/-- **Continuing a chain after a live node.** Let the first symbol of all rows before the search that
is bound or the sentinel be a bound one, in the `k`-th row. Then the search comes to the call of its
handler at a new node, with a bundle that differs from the chain's in the sentence, which is that of
the row with the cursor on the symbol, and in the counter, which is raised by `k`; and `true` is
returned when the call is done, with all that follows from it. If there is no such symbol, `false` is
returned and the world is as it was. -/
theorem continueAfter_law (node : NodeId) (baked : Bool) (hlive : w.nodes.isDead node = false)
    (hcursor : -1 ≤ chain.core.sentence.cursor)
    (hcounted : chain.Counted w.settings.maxGenerations) :
    (∀ k skipped symbol prototype,
      chain.Reaches w.settings.maxGenerations k skipped symbol prototype →
        ∃ bundle : Bundle H,
          (∀ key, bundle.find? key =
            if key = Key.sentence then some (.sentence (chain.upTo k skipped.length))
            else if key = Key.generation ∧ 0 < k then some (.int (chain.bundle.generation + k))
            else chain.bundle.find? key) ∧
          let made := w.make (prototype.draft symbol (w.nodes.nearestAnchor node) baked)
          let call := Task.call prototype.handler w.nodes.size bundle (baked || prototype.baked)
          w.Seeks node chain baked (made, [call]) ∧
            ∀ ok after, (∃ limit, w.continueAfter limit node chain baked = some (ok, after)) ↔
              ok = true ∧ Ends made [call] after) ∧
      ((∀ k skipped symbol prototype,
        ¬ chain.Reaches w.settings.maxGenerations k skipped symbol prototype) →
        ∀ ok after, (∃ limit, w.continueAfter limit node chain baked = some (ok, after)) ↔
          ok = false ∧ after = w) := by
  refine ⟨fun k skipped symbol prototype hreaches => ?_, fun hnone ok after => ?_⟩
  · have hseeks := hreaches.seeks_iff node baked hcursor hcounted
    exact ⟨chain.handed k skipped.length, hcounted.find?_handed k skipped.length,
      (hseeks _).mpr rfl, fun ok after => continueAfter_iff_of_seeks hlive hseeks⟩
  · have hseeks : ∀ result, w.Seeks node chain baked result ↔ result = (w, []) := by
      refine (Chain.exists_reaches_or_seeks node baked hcursor hcounted).resolve_left ?_
      rintro ⟨k, skipped, symbol, prototype, hreaches⟩
      exact hnone k skipped symbol prototype hreaches
    rw [continueAfter_iff_of_seeks hlive hseeks]
    refine and_congr_right fun _ => ⟨fun hends => hends.unique (ends_nil w), ?_⟩
    rintro rfl
    exact ends_nil after

/-- A world with one node. -/
def stump : World Empty :=
  { World.ofSettings {} with nodes := (({} : Arena).addNode {}).2 }

/-- What waits for a second or two. -/
def lull : Prototype Empty := .named "pause" (.pause 1 2)

/-- A registry with one pause. -/
def restful : Registry Empty := SymbolTable.empty.insert 'F' lull

/-- Rules under which a symbol becomes two. -/
def doubling : RuleSet := { table := SymbolTable.empty.insert 'A' "BF" }

/-- A chain without bound symbols in its own generation, which is the last but one. -/
def dormant : Chain Empty where
  core := { sentence := .ofString "A", registry := restful, rules := doubling }
  bundle := (((Bundle.empty.insert Key.generation (.int 2)).insert Key.iterations (.int 3)).insert
    Key.registry (.registry restful)).insert Key.rules (.rules doubling)

theorem dormant_counted : dormant.Counted stump.settings.maxGenerations := by
  refine ⟨⟨by decide, by decide⟩, fun value hvalue => ?_, fun value hvalue => ?_⟩
  · cases hvalue
  · cases hvalue
    rfl

theorem dormant_reaches :
    dormant.Reaches stump.settings.maxGenerations 1 ['B'] 'F' lull := by
  have hskips : ∀ symbol, symbol ≠ sentinel → symbol ≠ 'F' →
      dormant.core.registry.Skips [symbol] := by
    intro symbol hsymbol hne other hother
    obtain rfl := List.mem_singleton.mp hother
    exact ⟨hsymbol, by simp [dormant, restful, hne]⟩
  refine ⟨fun _ => by decide, fun j hj => ?_, ⟨[], by decide⟩, hskips 'B' (by decide) (by decide),
    by decide, rfl⟩
  obtain rfl : j = 0 := Nat.lt_one_iff.mp hj
  exact hskips 'A' (by decide) (by decide)

/-- The symbol is one of the last generation. Its handler waits, and the call is done. -/
theorem dormant_continues : ∃ bundle : Bundle Empty,
    bundle.find? Key.generation = some (.int 3) ∧
      stump.Seeks 0 dormant false
        (stump.make (lull.draft 'F' (some 0) false), [.call lull.handler 1 bundle false]) ∧
      ∃ limit after, stump.continueAfter limit 0 dormant false = some (true, after) := by
  obtain ⟨bundle, hbundle, hseeks, hreturns⟩ := (continueAfter_law 0 false (by decide) (by decide)
    dormant_counted).1 1 _ _ _ dormant_reaches
  refine ⟨bundle, hbundle Key.generation, hseeks, ?_⟩
  have hcore : bundle.core = .ok
      { sentence := dormant.upTo 1 1, registry := restful, rules := doubling } :=
    Bundle.core_of_find? (hbundle Key.sentence) (hbundle Key.registry) (hbundle Key.rules)
  obtain ⟨after, hrun⟩ : ∃ after, run 2 [.call lull.handler 1 bundle false]
      (stump.make (lull.draft 'F' (some 0) false)) = some after := by
    simp only [run, perform, lull, Prototype.named, Handler.call, pause, coreOrWarn, hcore]
    exact ⟨_, rfl⟩
  obtain ⟨limit, hlimit⟩ := (hreturns true after).mpr ⟨rfl, 2, hrun⟩
  exact ⟨limit, after, hlimit⟩

end World
end PlantGrowth
