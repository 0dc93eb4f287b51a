import PlantGrowth.Proofs.Writing
import Mathlib.Data.List.Forall2

/-!
# The grammar of rules

Which texts are tables of rules, and what is wrong with the others. An entry states a rule if it has an
arrow and one symbol before the first one; a text is a table if all its entries state rules, of
different symbols. Otherwise the first entry that is at fault is reported, by the first of its faults:
no arrow, no single symbol before it, a symbol that has a rule already.

The grammar is said without the reader. `FirstArrow` speaks of all the arrows of an entry, `States` of
the parts on both sides, and `Faulty` has a constructor for each fault.

* `RuleSet.splitArrow_eq_some_iff`, `RuleSet.splitArrow_eq_none_iff`: the reader finds the first arrow.
* `RuleSet.parseEntry_eq_ok_iff`: it takes from an entry the rule that the entry states.
* `RuleSet.stateAll_or_firstFault`: a row of entries is a table or has a first fault.
* `RuleSet.parse_decides`: both answers of the reader, for every text.
-/

namespace PlantGrowth
namespace RuleSet

/-! ## What is written -/

/-- The parts of a text that are to be rules: what stands between newlines and semicolons, trimmed, if
anything is left of it and it is no remark. -/
def written (text : String) : List (List Char) :=
  ((text.toList.splitOnP separates).map fun piece => (piece.dropWhile isBlank).rdropWhile isBlank).filter
    fun piece => piece ≠ [] ∧ piece.head? ≠ some '#'

/-- The sign between a symbol and its replacement. -/
def arrow : List Char := ['-', '>']

/-- The parts of an entry before and after the first of its arrows. -/
structure FirstArrow (entry before after : List Char) : Prop where
  parts : entry = before ++ arrow ++ after
  first : ∀ front tail, entry = front ++ arrow ++ tail → before.length ≤ front.length

/-- The entry states a rule: one symbol before its first arrow, and behind it the replacement. -/
def States (entry : List Char) (binding : Char × String) : Prop :=
  ∃ before after, FirstArrow entry before after ∧ trimBlanks before = [binding.1] ∧
    binding.2 = String.ofList (after.filter fun c => !isBlank c)

/-- What is wrong with an entry that has the number `index` and comes after rules for the symbols
`taken`. -/
inductive Faulty (index : Nat) (taken : List Char) (entry : List Char) : RuleError → Prop
  | missingArrow (absent : ∀ before after, entry ≠ before ++ arrow ++ after) :
    Faulty index taken entry (.missingArrow index (String.ofList entry))
  | invalidPredecessor {before after : List Char} (found : FirstArrow entry before after)
      (many : ∀ symbol, trimBlanks before ≠ [symbol]) :
    Faulty index taken entry (.invalidPredecessor index (String.ofList (trimBlanks before)))
  | duplicateRule {symbol : Char} {replacement : String} (stated : States entry (symbol, replacement))
      (again : symbol ∈ taken) :
    Faulty index taken entry (.duplicateRule symbol)

variable {entry before after tail : List Char} {entries : List (List Char)} {c symbol : Char}
  {replacement : String} {binding : Char × String} {bindings : List (Char × String)} {index : Nat}
  {rules : RuleSet} {error : RuleError}

theorem entriesOf_eq_written (text : String) : entriesOf text.toList = written text := by
  rw [entriesOf, written, pieces_eq_splitOnP]
  refine List.filter_congr fun piece _ => ?_
  cases piece with
  | nil => rfl
  | cons c rest => simp [isEntry]

/-! ## The first arrow -/

theorem FirstArrow.nil_of_cons (h : FirstArrow ('-' :: '>' :: tail) before after) :
    before = [] ∧ after = tail := by
  have hlength : before.length ≤ ([] : List Char).length := h.first [] tail rfl
  obtain rfl : before = [] := List.length_eq_zero_iff.mp (Nat.le_zero.mp hlength)
  have hparts : '-' :: '>' :: tail = '-' :: '>' :: after := h.parts
  exact ⟨rfl, by simpa using hparts.symm⟩

theorem firstArrow_cons (tail : List Char) : FirstArrow ('-' :: '>' :: tail) [] tail :=
  ⟨rfl, fun _ _ _ => Nat.zero_le _⟩

/-- An arrow in an entry that does not begin with one is an arrow in the rest. -/
theorem exists_of_cons_eq (hc : c = '-' → tail.head? ≠ some '>')
    (h : c :: tail = before ++ arrow ++ after) :
    ∃ front, before = c :: front ∧ tail = front ++ arrow ++ after := by
  cases before with
  | nil =>
    obtain ⟨rfl, rfl⟩ := List.cons_eq_cons.mp h
    exact absurd rfl (hc rfl)
  | cons d front =>
    obtain ⟨rfl, rfl⟩ := List.cons_eq_cons.mp h
    exact ⟨front, rfl, rfl⟩

theorem firstArrow_cons_iff (hc : c = '-' → tail.head? ≠ some '>') :
    FirstArrow (c :: tail) before after ↔ ∃ front, before = c :: front ∧ FirstArrow tail front after := by
  constructor
  · intro h
    obtain ⟨front, rfl, hparts⟩ := exists_of_cons_eq hc h.parts
    refine ⟨front, rfl, hparts, fun other back hother => ?_⟩
    have hle := h.first (c :: other) back (by rw [hother]; rfl)
    simpa using hle
  · rintro ⟨front, rfl, h⟩
    refine ⟨by rw [h.parts]; rfl, fun other back hother => ?_⟩
    obtain ⟨other, rfl, hrest⟩ := exists_of_cons_eq hc hother
    exact Nat.succ_le_succ (h.first other back hrest)

/-- **The arrow that is found is the first one.** -/
theorem splitArrow_eq_some_iff : splitArrow entry = some (before, after) ↔ FirstArrow entry before after := by
  induction entry generalizing before with
  | nil =>
    refine iff_of_false (by simp [splitArrow]) fun h => ?_
    simpa [arrow] using congrArg List.length h.parts
  | cons c tail ih =>
    by_cases hc : c = '-' → tail.head? ≠ some '>'
    · rw [splitArrow_cons hc, Option.map_eq_some_iff, firstArrow_cons_iff hc]
      constructor
      · rintro ⟨⟨front, back⟩, hsplit, hparts⟩
        obtain ⟨rfl, rfl⟩ := Prod.mk.inj hparts
        exact ⟨front, rfl, ih.mp hsplit⟩
      · rintro ⟨front, rfl, h⟩
        exact ⟨(front, after), ih.mpr h, rfl⟩
    · obtain ⟨rfl, hhead⟩ := Classical.not_imp.mp hc
      obtain ⟨rest, rfl⟩ := List.head?_eq_some_iff.mp (not_not.mp hhead)
      have hsplit : splitArrow ('-' :: '>' :: rest) = some ([], rest) := rfl
      rw [hsplit, Option.some_inj, Prod.mk.injEq]
      constructor
      · rintro ⟨rfl, rfl⟩
        exact firstArrow_cons rest
      · intro h
        exact ⟨h.nil_of_cons.1.symm, h.nil_of_cons.2.symm⟩

/-- **An arrow is found if there is one.** -/
theorem splitArrow_eq_none_iff :
    splitArrow entry = none ↔ ∀ before after, entry ≠ before ++ arrow ++ after := by
  induction entry with
  | nil => simp [splitArrow, arrow]
  | cons c tail ih =>
    by_cases hc : c = '-' → tail.head? ≠ some '>'
    · rw [splitArrow_cons hc, Option.map_eq_none_iff, ih]
      constructor
      · intro h before after heq
        obtain ⟨front, -, hrest⟩ := exists_of_cons_eq hc heq
        exact h front after hrest
      · intro h before after heq
        exact h (c :: before) after (by rw [heq]; rfl)
    · obtain ⟨rfl, hhead⟩ := Classical.not_imp.mp hc
      obtain ⟨rest, rfl⟩ := List.head?_eq_some_iff.mp (not_not.mp hhead)
      exact iff_of_false (by simp [splitArrow]) fun h => h [] rest rfl

/-! ## One entry -/

/-- **An entry is read as the rule that it states.** -/
theorem parseEntry_eq_ok_iff : parseEntry index entry = .ok binding ↔ States entry binding := by
  rw [States]
  simp only [← splitArrow_eq_some_iff]
  rw [parseEntry]
  cases hsplit : splitArrow entry with
  | none => simp
  | some parts =>
    obtain ⟨before, after⟩ := parts
    cases htrim : trimBlanks before with
    | nil => simp [htrim]
    | cons c rest =>
      cases rest with
      | nil => simp [htrim, Prod.ext_iff, eq_comm]
      | cons d rest => simp [htrim]

/-- An entry states a rule for a new symbol or is at fault. -/
theorem exists_states_or_faulty (index : Nat) (taken : List Char) (entry : List Char) :
    (∃ binding, States entry binding ∧ binding.1 ∉ taken) ∨ ∃ error, Faulty index taken entry error := by
  cases hsplit : splitArrow entry with
  | none => exact .inr ⟨_, .missingArrow (splitArrow_eq_none_iff.mp hsplit)⟩
  | some parts =>
    have hfirst := splitArrow_eq_some_iff.mp hsplit
    by_cases hone : ∃ symbol, trimBlanks parts.1 = [symbol]
    · obtain ⟨symbol, htrim⟩ := hone
      have hstates : States entry (symbol, _) := ⟨parts.1, parts.2, hfirst, htrim, rfl⟩
      by_cases hmem : symbol ∈ taken
      · exact .inr ⟨_, .duplicateRule hstates hmem⟩
      · exact .inl ⟨_, hstates, hmem⟩
    · exact .inr ⟨_, .invalidPredecessor hfirst (not_exists.mp hone)⟩

/-! ## All entries -/

/-- The entries state rules, of different symbols. -/
structure StateAll (entries : List (List Char)) (bindings : List (Char × String)) : Prop where
  each : List.Forall₂ States entries bindings
  distinct : (bindings.map (·.1)).Nodup

/-- The error is about the first entry that is at fault. It is counted from those that are to be
rules, and what comes after it does not matter. -/
inductive FirstFault : List (List Char) → RuleError → Prop
  | intro {read : List (List Char)} {bindings : List (Char × String)} {entry : List Char}
      {error : RuleError} (sound : StateAll read bindings)
      (fault : Faulty read.length (bindings.map (·.1)) entry error) (rest : List (List Char)) :
    FirstFault (read ++ entry :: rest) error

theorem StateAll.nil : StateAll [] [] := ⟨.nil, .nil⟩

theorem StateAll.concat (h : StateAll entries bindings) (hentry : States entry binding)
    (hnew : binding.1 ∉ bindings.map (·.1)) : StateAll (entries ++ [entry]) (bindings ++ [binding]) where
  each := List.rel_append h.each (.cons hentry .nil)
  distinct := SymbolTable.nodup_symbols_concat.mpr ⟨hnew, h.distinct⟩

theorem StateAll.parseEntry (h : StateAll entries bindings) :
    List.Forall₂ (fun entry binding => ∀ index, parseEntry index entry = .ok binding) entries bindings :=
  h.each.imp fun _ _ hstates _ => parseEntry_eq_ok_iff.mpr hstates

/-- **A row of entries is a table or has a first fault.** -/
theorem stateAll_or_firstFault (entries : List (List Char)) :
    (∃ bindings, StateAll entries bindings) ∨ ∃ error, FirstFault entries error := by
  induction entries using List.reverseRecOn with
  | nil => exact .inl ⟨[], .nil⟩
  | append_singleton entries entry ih =>
    obtain ⟨bindings, hall⟩ | ⟨error, hfault⟩ := ih
    · obtain ⟨binding, hstates, hnew⟩ | ⟨error, hfaulty⟩ :=
        exists_states_or_faulty entries.length (bindings.map (·.1)) entry
      · exact .inl ⟨_, hall.concat hstates hnew⟩
      · exact .inr ⟨error, .intro hall hfaulty []⟩
    · obtain ⟨hall, hfaulty, rest⟩ := hfault
      rw [List.append_assoc, List.cons_append]
      exact .inr ⟨error, .intro hall hfaulty _⟩

/-- The reader stops at an entry that is at fault. -/
theorem parseEntries_of_faulty (hdistinct : (bindings.map (·.1)).Nodup)
    (h : Faulty index (bindings.map (·.1)) entry error) (rest : List (List Char)) :
    parseEntries index { table := .ofList bindings } (entry :: rest) = .error error := by
  cases h with
  | missingArrow habsent =>
    rw [parseEntries, parseEntry, splitArrow_eq_none_iff.mpr habsent]
  | @invalidPredecessor before after hfound hmany =>
    have hentry : parseEntry index entry =
        .error (.invalidPredecessor index (String.ofList (trimBlanks before))) := by
      rw [parseEntry, splitArrow_eq_some_iff.mpr hfound]
      cases htrim : trimBlanks before with
      | nil => simp [htrim]
      | cons c others =>
        cases others with
        | nil => exact absurd htrim (hmany c)
        | cons d others => simp [htrim]
    rw [parseEntries, hentry]
  | duplicateRule hstated hagain =>
    have hcontains := (SymbolTable.contains_ofList hdistinct).mpr hagain
    rw [parseEntries, parseEntry_eq_ok_iff.mpr hstated]
    simp only [hcontains, if_true]

/-- A text all of whose entries state rules is read as their table. -/
theorem parse_of_stateAll {text : String} (h : StateAll (written text) bindings) :
    parse text = .ok { table := .ofList bindings } := by
  have hread := parseEntries_append [] h.parseEntry h.distinct [] 0
  rw [List.append_nil] at hread
  rw [parse, entriesOf_eq_written]
  exact hread

/-- A text with a fault is given up at the first. -/
theorem parse_of_firstFault {text : String} (h : FirstFault (written text) error) :
    parse text = .error error := by
  rw [parse, entriesOf_eq_written]
  generalize written text = entries at h
  obtain ⟨hall, hfaulty, rest⟩ := h
  refine (parseEntries_append [] hall.parseEntry hall.distinct _ 0).trans ?_
  rw [Nat.zero_add]
  exact parseEntries_of_faulty hall.distinct hfaulty rest

/-- **Both answers of the reader**, for every text: the rules if all that is to be a rule is one, and
otherwise the fault of the first that is not. -/
theorem parse_decides (text : String) :
    (∀ rules, parse text = .ok rules ↔ ∃ bindings, StateAll (written text) bindings ∧
      rules = { fertile := true, table := .ofList bindings, fallback := .keep } ∧
      ∀ symbol replacement, rules.find? symbol = some replacement ↔ (symbol, replacement) ∈ bindings) ∧
    ∀ error, parse text = .error error ↔ FirstFault (written text) error := by
  refine ⟨fun rules => ⟨fun h => ?_, ?_⟩, fun error => ⟨fun h => ?_, parse_of_firstFault⟩⟩
  · obtain ⟨bindings, hall⟩ | ⟨error, hfault⟩ := stateAll_or_firstFault (written text)
    · obtain rfl := Except.ok.inj ((parse_of_stateAll hall).symm.trans h)
      exact ⟨bindings, hall, rfl, fun _ _ => SymbolTable.find?_ofList_eq_some_iff hall.distinct⟩
    · exact absurd ((parse_of_firstFault hfault).symm.trans h) (by simp)
  · rintro ⟨bindings, hall, rfl, -⟩
    exact parse_of_stateAll hall
  · obtain ⟨bindings, hall⟩ | ⟨other, hfault⟩ := stateAll_or_firstFault (written text)
    · exact absurd ((parse_of_stateAll hall).symm.trans h) (by simp)
    · obtain rfl := Except.error.inj ((parse_of_firstFault hfault).symm.trans h)
      exact hfault

/-- Remarks and empty entries are not counted, and an entry without an arrow is not asked for its
symbol. -/
example : parse "# F -> F; \n; F -> ->; # G\nFF" = .error (.missingArrow 1 "FF") := by decide

end RuleSet
end PlantGrowth
