import PlantGrowth.Proofs.Reading

/-!
# Balanced brackets

A row of symbols is balanced in an opening and a closing symbol if in none of its prefixes more
brackets are closed than opened, and in all of it just as many. This is how one checks a text; what
growth does to a sentence is followed by `depthAfter?` instead, the number of open brackets after a
row that was begun within some.
-/

namespace PlantGrowth

/-- In no prefix are more brackets closed than opened, and in the whole row just as many. -/
def Balanced (opening closing : Char) (symbols : List Char) : Prop :=
  (∀ first rest, symbols = first ++ rest → first.count closing ≤ first.count opening) ∧
    symbols.count closing = symbols.count opening

/-- How many brackets are open after a row of symbols that is begun within `depth` open ones; none
if a bracket is closed that was not opened. -/
def depthAfter? (opening closing : Char) : Nat → List Char → Option Nat
  | depth, [] => some depth
  | depth, symbol :: rest =>
    if symbol = closing then
      if depth = 0 then none else depthAfter? opening closing (depth - 1) rest
    else if symbol = opening then depthAfter? opening closing (depth + 1) rest
    else depthAfter? opening closing depth rest

/-- No symbol is a bracket. -/
def Plain (opening closing : Char) (symbols : List Char) : Prop :=
  ∀ symbol ∈ symbols, symbol ≠ opening ∧ symbol ≠ closing

variable {opening closing symbol : Char} {depth after : Nat} {symbols first rest : List Char}

theorem Plain.append (h : Plain opening closing first) (h' : Plain opening closing rest) :
    Plain opening closing (first ++ rest) := by
  intro symbol hmem
  rcases List.mem_append.mp hmem with hfirst | hrest
  · exact h symbol hfirst
  · exact h' symbol hrest

theorem plain_nil : Plain opening closing [] := fun symbol hmem => (by cases hmem)

/-! ## Depths -/

theorem depthAfter?_closing (depth : Nat) (rest : List Char) :
    depthAfter? opening closing (depth + 1) (closing :: rest) =
      depthAfter? opening closing depth rest := by
  rw [depthAfter?, if_pos rfl, if_neg (Nat.succ_ne_zero depth), Nat.add_sub_cancel]

theorem depthAfter?_opening (hne : opening ≠ closing) (depth : Nat) (rest : List Char) :
    depthAfter? opening closing depth (opening :: rest) =
      depthAfter? opening closing (depth + 1) rest := by
  rw [depthAfter?, if_neg hne, if_pos rfl]

theorem depthAfter?_other (hopening : symbol ≠ opening) (hclosing : symbol ≠ closing) (depth : Nat)
    (rest : List Char) :
    depthAfter? opening closing depth (symbol :: rest) =
      depthAfter? opening closing depth rest := by
  rw [depthAfter?, if_neg hclosing, if_neg hopening]

theorem depthAfter?_append (depth : Nat) (first rest : List Char) :
    depthAfter? opening closing depth (first ++ rest) =
      (depthAfter? opening closing depth first).bind fun depth =>
        depthAfter? opening closing depth rest := by
  induction first generalizing depth with
  | nil => rfl
  | cons symbol first ih =>
    rw [List.cons_append, depthAfter?, depthAfter?]
    split
    · split
      · rfl
      · exact ih (depth - 1)
    · split
      · exact ih (depth + 1)
      · exact ih depth

theorem depthAfter?_of_plain (h : Plain opening closing symbols) (depth : Nat) :
    depthAfter? opening closing depth symbols = some depth := by
  induction symbols with
  | nil => rfl
  | cons symbol rest ih =>
    obtain ⟨hopening, hclosing⟩ := h symbol List.mem_cons_self
    rw [depthAfter?_other hopening hclosing]
    exact ih fun other hmem => h other (List.mem_cons_of_mem symbol hmem)

/-- More brackets that are open from the start stay open. -/
theorem depthAfter?_add (h : depthAfter? opening closing depth symbols = some after) (more : Nat) :
    depthAfter? opening closing (depth + more) symbols = some (after + more) := by
  induction symbols generalizing depth with
  | nil =>
    rw [depthAfter?, Option.some.injEq] at h
    rw [depthAfter?, h]
  | cons symbol rest ih =>
    rw [depthAfter?] at h
    by_cases hclosing : symbol = closing
    · rw [if_pos hclosing] at h
      cases depth with
      | zero => cases h
      | succ depth =>
        rw [if_neg (Nat.succ_ne_zero depth), Nat.add_sub_cancel] at h
        rw [hclosing, Nat.succ_add, depthAfter?_closing]
        exact ih h
    · rw [if_neg hclosing] at h
      by_cases hopening : symbol = opening
      · rw [if_pos hopening] at h
        rw [depthAfter?, if_neg hclosing, if_pos hopening, Nat.add_right_comm]
        exact ih h
      · rw [if_neg hopening] at h
        rw [depthAfter?_other hopening hclosing]
        exact ih h

/-- Where no prefix closes more brackets than are open, the depth is the number of those that were
opened and not closed. -/
theorem exists_depthAfter? (depth : Nat) (hne : opening ≠ closing)
    (h : ∀ first rest, symbols = first ++ rest →
      first.count closing ≤ depth + first.count opening) :
    ∃ after, depthAfter? opening closing depth symbols = some after ∧
      after + symbols.count closing = depth + symbols.count opening := by
  induction symbols generalizing depth with
  | nil => exact ⟨depth, rfl, rfl⟩
  | cons symbol rest ih =>
    by_cases hclosing : symbol = closing
    · subst hclosing
      have hone := h [symbol] rest rfl
      rw [List.count_singleton_self, List.count_cons_of_ne hne.symm, List.count_nil] at hone
      obtain ⟨before, rfl⟩ : ∃ before, depth = before + 1 := ⟨depth - 1, by omega⟩
      obtain ⟨after, hafter, hcount⟩ := ih before fun first others hsplit => by
        have hlonger := h (symbol :: first) others (by rw [hsplit, List.cons_append])
        rw [List.count_cons_self, List.count_cons_of_ne hne.symm] at hlonger
        omega
      refine ⟨after, by rw [depthAfter?_closing, hafter], ?_⟩
      rw [List.count_cons_self, List.count_cons_of_ne hne.symm]
      omega
    · by_cases hopening : symbol = opening
      · subst hopening
        obtain ⟨after, hafter, hcount⟩ := ih (depth + 1) fun first others hsplit => by
          have hlonger := h (symbol :: first) others (by rw [hsplit, List.cons_append])
          rw [List.count_cons_self, List.count_cons_of_ne hne] at hlonger
          omega
        refine ⟨after, by rw [depthAfter?_opening hne, hafter], ?_⟩
        rw [List.count_cons_self, List.count_cons_of_ne hne]
        omega
      · obtain ⟨after, hafter, hcount⟩ := ih depth fun first others hsplit => by
          have hlonger := h (symbol :: first) others (by rw [hsplit, List.cons_append])
          rw [List.count_cons_of_ne hclosing, List.count_cons_of_ne hopening] at hlonger
          omega
        refine ⟨after, by rw [depthAfter?_other hopening hclosing, hafter], ?_⟩
        rw [List.count_cons_of_ne hclosing, List.count_cons_of_ne hopening]
        omega

/-- **A balanced row leaves the depth as it was.** -/
theorem Balanced.depthAfter?_eq (h : Balanced opening closing symbols) (hne : opening ≠ closing)
    (depth : Nat) : depthAfter? opening closing depth symbols = some depth := by
  obtain ⟨after, hafter, hcount⟩ := exists_depthAfter? 0 hne fun first rest hsplit => by
    have hprefix := h.1 first rest hsplit
    omega
  have htotal := h.2
  obtain rfl : after = 0 := by omega
  have hmore := depthAfter?_add hafter depth
  rwa [Nat.zero_add] at hmore

/-- The depth is the number of brackets that were opened and not closed. -/
theorem count_of_depthAfter? (hne : opening ≠ closing)
    (h : depthAfter? opening closing depth symbols = some after) :
    after + symbols.count closing = depth + symbols.count opening := by
  induction symbols generalizing depth with
  | nil =>
    rw [depthAfter?, Option.some.injEq] at h
    rw [h, List.count_nil, List.count_nil]
  | cons symbol rest ih =>
    rw [depthAfter?] at h
    by_cases hclosing : symbol = closing
    · subst hclosing
      rw [if_pos rfl] at h
      cases depth with
      | zero => cases h
      | succ depth =>
        rw [if_neg (Nat.succ_ne_zero depth), Nat.add_sub_cancel] at h
        have hrest := ih h
        rw [List.count_cons_self, List.count_cons_of_ne hne.symm]
        omega
    · rw [if_neg hclosing] at h
      by_cases hopening : symbol = opening
      · subst hopening
        rw [if_pos rfl] at h
        have hrest := ih h
        rw [List.count_cons_self, List.count_cons_of_ne hne]
        omega
      · rw [if_neg hopening] at h
        have hrest := ih h
        rw [List.count_cons_of_ne hclosing, List.count_cons_of_ne hopening]
        exact hrest

/-- **Whether a row is balanced can be computed.** -/
theorem balanced_iff (hne : opening ≠ closing) :
    Balanced opening closing symbols ↔ depthAfter? opening closing 0 symbols = some 0 := by
  constructor
  · intro h
    exact h.depthAfter?_eq hne 0
  · intro h
    refine ⟨fun first rest hsplit => ?_, ?_⟩
    · rw [hsplit, depthAfter?_append, Option.bind_eq_some_iff] at h
      obtain ⟨between, hfirst, -⟩ := h
      have hcount := count_of_depthAfter? hne hfirst
      omega
    · have hcount := count_of_depthAfter? hne h
      omega

/-- Before the first bracket is opened none can be closed. -/
theorem plain_of_depthAfter? (h : depthAfter? opening closing 0 (first ++ rest) = some after)
    (hopening : opening ∉ first) : Plain opening closing first := by
  induction first with
  | nil => exact plain_nil
  | cons symbol first ih =>
    have hne : symbol ≠ opening := fun heq => hopening (heq ▸ List.mem_cons_self)
    rw [List.cons_append, depthAfter?] at h
    by_cases hclosing : symbol = closing
    · rw [if_pos hclosing] at h
      cases h
    · rw [if_neg hclosing, if_neg hne] at h
      intro other hmem
      rcases List.mem_cons.mp hmem with rfl | hmem
      · exact ⟨hne, hclosing⟩
      · exact ih h (fun hmem => hopening (List.mem_cons_of_mem symbol hmem)) other hmem

/-! ## Rewriting -/

/-- Rewriting that keeps brackets and exchanges other symbols for balanced rows keeps depths. -/
theorem depthAfter?_flatMap {successor : Char → List Char} (hne : opening ≠ closing)
    (hopening : successor opening = [opening]) (hclosing : successor closing = [closing])
    (hother : ∀ symbol, symbol ≠ opening → symbol ≠ closing →
      Balanced opening closing (successor symbol)) (depth : Nat) (symbols : List Char) :
    depthAfter? opening closing depth (symbols.flatMap successor) =
      depthAfter? opening closing depth symbols := by
  induction symbols generalizing depth with
  | nil => rfl
  | cons symbol rest ih =>
    rw [List.flatMap_cons]
    by_cases heq : symbol = closing
    · subst heq
      rw [hclosing, List.singleton_append]
      cases depth with
      | zero => rw [depthAfter?, depthAfter?, if_pos rfl, if_pos rfl, if_pos rfl, if_pos rfl]
      | succ depth => rw [depthAfter?_closing, depthAfter?_closing, ih]
    · by_cases heq' : symbol = opening
      · subst heq'
        rw [hopening, List.singleton_append, depthAfter?_opening hne, depthAfter?_opening hne, ih]
      · rw [depthAfter?_append, (hother symbol heq' heq).depthAfter?_eq hne, Option.bind_some,
          depthAfter?_other heq' heq, ih]

/-- Rewriting to balanced rows only leaves the depth as it was. -/
theorem depthAfter?_flatMap_of_balanced {successor : Char → List Char} (hne : opening ≠ closing)
    (h : ∀ symbol, Balanced opening closing (successor symbol)) (depth : Nat)
    (symbols : List Char) :
    depthAfter? opening closing depth (symbols.flatMap successor) = some depth := by
  induction symbols with
  | nil => rfl
  | cons symbol rest ih =>
    rw [List.flatMap_cons, depthAfter?_append, (h symbol).depthAfter?_eq hne, Option.bind_some, ih]

/-! ## The bracket that closes -/

/-- **In a row that closes all brackets, the one that was opened first closes**, and what stands
before and behind its closing symbol closes all brackets as well. -/
theorem exists_closingAfter (hne : opening ≠ closing)
    (h : depthAfter? opening closing (depth + 1) symbols = some 0) :
    ∃ count, Sentence.closingAfter opening closing (depth + 1) symbols = some count ∧
      depthAfter? opening closing depth (symbols.take (count - 1)) = some 0 ∧
      depthAfter? opening closing 0 (symbols.drop count) = some 0 := by
  induction symbols generalizing depth with
  | nil => cases h
  | cons symbol rest ih =>
    rw [Sentence.closingAfter]
    by_cases hclosing : symbol = closing
    · subst hclosing
      rw [depthAfter?_closing] at h
      rw [if_pos rfl]
      cases depth with
      | zero => exact ⟨1, rfl, rfl, h⟩
      | succ depth =>
        obtain ⟨count, hcount, hbefore, hbehind⟩ := ih h
        have hpos := Sentence.closingAfter_pos hcount
        obtain ⟨before, rfl⟩ : ∃ before, count = before + 1 := ⟨count - 1, by omega⟩
        refine ⟨before + 1 + 1, ?_, ?_, hbehind⟩
        · rw [if_neg (by omega), Nat.add_sub_cancel, hcount, Option.map_some]
        · rw [Nat.add_sub_cancel, List.take_succ_cons, depthAfter?_closing]
          exact hbefore
    · rw [if_neg hclosing]
      by_cases hopening : symbol = opening
      · subst hopening
        rw [depthAfter?_opening hne] at h
        rw [if_pos rfl]
        obtain ⟨count, hcount, hbefore, hbehind⟩ := ih h
        have hpos := Sentence.closingAfter_pos hcount
        obtain ⟨before, rfl⟩ : ∃ before, count = before + 1 := ⟨count - 1, by omega⟩
        refine ⟨before + 1 + 1, by rw [hcount, Option.map_some], ?_, hbehind⟩
        rw [Nat.add_sub_cancel, List.take_succ_cons, depthAfter?_opening hne]
        exact hbefore
      · rw [depthAfter?_other hopening hclosing] at h
        rw [if_neg hopening]
        obtain ⟨count, hcount, hbefore, hbehind⟩ := ih h
        have hpos := Sentence.closingAfter_pos hcount
        obtain ⟨before, rfl⟩ : ∃ before, count = before + 1 := ⟨count - 1, by omega⟩
        refine ⟨before + 1 + 1, by rw [hcount, Option.map_some], ?_, hbehind⟩
        rw [Nat.add_sub_cancel, List.take_succ_cons, depthAfter?_other hopening hclosing]
        exact hbefore

/-! ## Rows in which every bracket is closed -/

/-- Every opening symbol has a closing one that matches it. Closing symbols without an opening one do
not matter. -/
def Matched (opening closing : Char) : List Char → Prop
  | [] => True
  | symbol :: rest =>
    (symbol = opening → ∃ count, Sentence.closingAfter opening closing 1 rest = some count) ∧
      Matched opening closing rest

instance decidableMatched (opening closing : Char) :
    (symbols : List Char) → Decidable (Matched opening closing symbols)
  | [] => .isTrue trivial
  | symbol :: rest =>
    have : Decidable (Matched opening closing rest) := decidableMatched opening closing rest
    decidable_of_iff ((symbol = opening →
        (Sentence.closingAfter opening closing 1 rest).isSome = true) ∧
      Matched opening closing rest) (by rw [Option.isSome_iff_exists]; rfl)

theorem Matched.drop (h : Matched opening closing symbols) (count : Nat) :
    Matched opening closing (symbols.drop count) := by
  induction count generalizing symbols with
  | zero => exact h
  | succ count ih =>
    cases symbols with
    | nil => trivial
    | cons symbol rest => exact ih h.2

/-- The matching symbol of one opening symbol. -/
theorem Matched.exists_closingAfter (h : Matched opening closing symbols) {position : Nat}
    (hopening : symbols[position]? = some opening) :
    ∃ count, Sentence.closingAfter opening closing 1 (symbols.drop (position + 1)) = some count := by
  induction symbols generalizing position with
  | nil => cases hopening
  | cons symbol rest ih =>
    cases position with
    | zero => exact h.1 (Option.some.inj hopening)
    | succ position => exact ih h.2 hopening

namespace Sentence

variable {count limit : Nat}

theorem closingAfter_closing (depth : Nat) (rest : List Char) :
    closingAfter opening closing (depth + 1) (closing :: rest) =
      if depth = 0 then some 1 else (closingAfter opening closing depth rest).map (· + 1) := by
  rw [closingAfter, if_pos rfl, Nat.add_sub_cancel]
  by_cases hdepth : depth = 0
  · rw [if_pos hdepth, if_pos (by omega)]
  · rw [if_neg hdepth, if_neg (by omega)]

theorem closingAfter_opening (hne : opening ≠ closing) (depth : Nat) (rest : List Char) :
    closingAfter opening closing depth (opening :: rest) =
      (closingAfter opening closing (depth + 1) rest).map (· + 1) := by
  rw [closingAfter, if_neg hne, if_pos rfl]

theorem closingAfter_other (hopening : symbol ≠ opening) (hclosing : symbol ≠ closing)
    (depth : Nat) (rest : List Char) :
    closingAfter opening closing depth (symbol :: rest) =
      (closingAfter opening closing depth rest).map (· + 1) := by
  rw [closingAfter, if_neg hclosing, if_neg hopening]

/-- Of brackets within each other the inner one is closed first. -/
theorem closingAfter_lt_of_lt (hne : opening ≠ closing) {inner : Nat} (hinner : inner < depth)
    (h : closingAfter opening closing (depth + 1) symbols = some count) :
    ∃ sooner, sooner < count ∧
      closingAfter opening closing (inner + 1) symbols = some sooner := by
  induction symbols generalizing depth inner count with
  | nil => cases h
  | cons symbol rest ih =>
    by_cases hclosing : symbol = closing
    · subst hclosing
      rw [closingAfter_closing, if_neg (by omega)] at h
      obtain ⟨before, hbefore, rfl⟩ := Option.map_eq_some_iff.mp h
      obtain ⟨depth, rfl⟩ : ∃ less, depth = less + 1 := ⟨depth - 1, by omega⟩
      rw [closingAfter_closing]
      by_cases hlast : inner = 0
      · have hpos := closingAfter_pos hbefore
        rw [if_pos hlast]
        exact ⟨1, by omega, rfl⟩
      · obtain ⟨inner, rfl⟩ : ∃ less, inner = less + 1 := ⟨inner - 1, by omega⟩
        obtain ⟨sooner, hlt, hsooner⟩ := ih (by omega : inner < depth) hbefore
        rw [if_neg hlast, hsooner]
        exact ⟨sooner + 1, by omega, rfl⟩
    · by_cases hopening : symbol = opening
      · subst hopening
        rw [closingAfter_opening hne] at h ⊢
        obtain ⟨before, hbefore, rfl⟩ := Option.map_eq_some_iff.mp h
        obtain ⟨sooner, hlt, hsooner⟩ := ih (by omega : inner + 1 < depth + 1) hbefore
        rw [hsooner]
        exact ⟨sooner + 1, by omega, rfl⟩
      · rw [closingAfter_other hopening hclosing] at h ⊢
        obtain ⟨before, hbefore, rfl⟩ := Option.map_eq_some_iff.mp h
        obtain ⟨sooner, hlt, hsooner⟩ := ih hinner hbefore
        rw [hsooner]
        exact ⟨sooner + 1, by omega, rfl⟩

/-- Only the symbols up to the closing one matter. -/
theorem closingAfter_of_take_eq {others : List Char}
    (h : closingAfter opening closing depth symbols = some count)
    (htake : others.take count = symbols.take count) :
    closingAfter opening closing depth others = some count := by
  induction symbols generalizing depth count others with
  | nil => cases h
  | cons symbol rest ih =>
    have hpos := closingAfter_pos h
    obtain ⟨before, rfl⟩ : ∃ less, count = less + 1 := ⟨count - 1, by omega⟩
    cases others with
    | nil => cases htake
    | cons other others =>
      rw [List.take_succ_cons, List.take_succ_cons, List.cons.injEq] at htake
      obtain ⟨rfl, hrest⟩ := htake
      have hnext : ∀ depth, (closingAfter opening closing depth rest).map (· + 1) = some (before + 1) →
          (closingAfter opening closing depth others).map (· + 1) = some (before + 1) := by
        intro depth hmap
        obtain ⟨less, hless, heq⟩ := Option.map_eq_some_iff.mp hmap
        obtain rfl : less = before := by omega
        rw [ih hless hrest, Option.map_some]
      unfold closingAfter at h ⊢
      by_cases hclosing : other = closing
      · rw [if_pos hclosing] at h ⊢
        by_cases hlast : depth ≤ 1
        · rw [if_pos hlast] at h ⊢
          exact h
        · rw [if_neg hlast] at h ⊢
          exact hnext _ h
      · rw [if_neg hclosing] at h ⊢
        by_cases hopening : other = opening
        · rw [if_pos hopening] at h ⊢
          exact hnext _ h
        · rw [if_neg hopening] at h ⊢
          exact hnext _ h

theorem closingAfter_append (h : closingAfter opening closing depth symbols = some count)
    (rest : List Char) : closingAfter opening closing depth (symbols ++ rest) = some count :=
  closingAfter_of_take_eq h (List.take_append_of_le_length (closingAfter_le_length h))

theorem closingAfter_take (h : closingAfter opening closing depth symbols = some count)
    (hle : count ≤ limit) :
    closingAfter opening closing depth (symbols.take limit) = some count := by
  refine closingAfter_of_take_eq h ?_
  rw [List.take_take, Nat.min_eq_left hle]

/-- The last of the symbols counted is the closing one. -/
theorem getElem?_of_closingAfter
    (h : closingAfter opening closing depth symbols = some count) :
    symbols[count - 1]? = some closing := by
  induction symbols generalizing depth count with
  | nil => cases h
  | cons symbol rest ih =>
    have hnext : ∀ depth, (closingAfter opening closing depth rest).map (· + 1) = some count →
        (symbol :: rest)[count - 1]? = some closing := by
      intro depth hmap
      obtain ⟨before, hbefore, rfl⟩ := Option.map_eq_some_iff.mp hmap
      have hpos := closingAfter_pos hbefore
      obtain ⟨before, rfl⟩ : ∃ less, before = less + 1 := ⟨before - 1, by omega⟩
      rw [Nat.add_sub_cancel, List.getElem?_cons_succ]
      exact ih hbefore
    rw [closingAfter] at h
    split at h
    next hclosing =>
      split at h
      · cases h
        rw [Nat.sub_self, List.getElem?_cons_zero, hclosing]
      · exact hnext _ h
    · split at h
      · exact hnext _ h
      · exact hnext _ h

/-- **Within a bracket that is closed every bracket is closed**, before the bracket itself is. -/
theorem matched_interior (hne : opening ≠ closing)
    (h : closingAfter opening closing (depth + 1) symbols = some count) :
    Matched opening closing (symbols.take (count - 1)) := by
  induction symbols generalizing depth count with
  | nil => cases h
  | cons symbol rest ih =>
    by_cases hclosing : symbol = closing
    · subst hclosing
      rw [closingAfter_closing] at h
      split at h
      · cases h
        trivial
      next hmore =>
        obtain ⟨before, hbefore, rfl⟩ := Option.map_eq_some_iff.mp h
        obtain ⟨depth, rfl⟩ : ∃ less, depth = less + 1 := ⟨depth - 1, by omega⟩
        have hpos := closingAfter_pos hbefore
        obtain ⟨before, rfl⟩ : ∃ less, before = less + 1 := ⟨before - 1, by omega⟩
        rw [Nat.add_sub_cancel, List.take_succ_cons]
        exact ⟨fun heq => absurd heq.symm hne, ih hbefore⟩
    · have hstep : ∀ depth, closingAfter opening closing (depth + 1) rest = some (count - 1) →
          (symbol = opening → 0 < depth) →
          Matched opening closing ((symbol :: rest).take (count - 1)) := by
        intro depth hrest hdepth
        have hpos := closingAfter_pos hrest
        obtain ⟨before, rfl⟩ : ∃ less, count = less + 1 + 1 := ⟨count - 2, by omega⟩
        rw [Nat.add_sub_cancel] at hrest ⊢
        rw [List.take_succ_cons]
        refine ⟨fun heq => ?_, ih hrest⟩
        -- from less deep the closing symbol is reached sooner
        obtain ⟨sooner, hlt, hsooner⟩ := closingAfter_lt_of_lt hne (hdepth heq) hrest
        exact ⟨sooner, closingAfter_take hsooner (by omega)⟩
      by_cases hopening : symbol = opening
      · rw [hopening, closingAfter_opening hne] at h
        obtain ⟨before, hbefore, rfl⟩ := Option.map_eq_some_iff.mp h
        exact hstep (depth + 1) hbefore fun _ => Nat.succ_pos depth
      · rw [closingAfter_other hopening hclosing] at h
        obtain ⟨before, hbefore, rfl⟩ := Option.map_eq_some_iff.mp h
        exact hstep depth hbefore fun heq => absurd heq hopening

end Sentence
end PlantGrowth
