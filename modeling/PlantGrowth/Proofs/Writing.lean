import PlantGrowth.Plan.Basic
import Mathlib.Data.List.DropRight
import Mathlib.Data.List.Nodup

/-!
# Rules written down

A table of rules may be written in many ways: its entries in any order, each on a line of its own or
behind a semicolon, blanks around their parts, remarks and empty lines between them. A `Page` is one of
these ways, taken apart; `Page.text` is what is to be read. Whatever the way, reading it gives the
table back.

* `RuleSet.Entry`, `RuleSet.Page`: what stands between two separators, and a text made of such entries.
* `RuleSet.pieces_text`: the separators are found again.
* `RuleSet.parseEntry_rule`: a written rule is read as it was meant, though its symbol and its
  replacement may be made of the characters of the arrow.
* `RuleSet.parse_text`: all of them together are read as the table.
-/

namespace PlantGrowth

/-! ## Tables from bindings in any order -/

namespace SymbolTable

variable {β : Type} {symbol : Char} {value : β} {binding : Char × β} {bindings : List (Char × β)}
  {table : SymbolTable β}

/-- A binding of a new symbol is added. -/
theorem place_perm (h : symbol ∉ bindings.map (·.1)) :
    (place symbol value bindings).Perm ((symbol, value) :: bindings) := by
  induction bindings with
  | nil => exact List.Perm.refl _
  | cons binding rest ih =>
    obtain ⟨other, old⟩ := binding
    rw [List.map_cons, List.mem_cons, not_or] at h
    rw [place]
    split
    · exact List.Perm.refl _
    · rw [if_neg h.1]
      exact ((ih h.2).cons (other, old)).trans (List.Perm.swap _ _ rest)

theorem foldl_insert_perm (hnodup : (bindings.map (·.1)).Nodup)
    (hfresh : ∀ binding ∈ bindings, binding.1 ∉ table.symbols) :
    (bindings.foldl (fun table binding => table.insert binding.1 binding.2) table).entries.Perm
      (bindings ++ table.entries) := by
  induction bindings generalizing table with
  | nil => exact List.Perm.refl _
  | cons binding rest ih =>
    rw [List.map_cons, List.nodup_cons] at hnodup
    rw [List.forall_mem_cons] at hfresh
    have hplace : (table.insert binding.1 binding.2).entries.Perm (binding :: table.entries) :=
      place_perm hfresh.1
    refine (ih hnodup.2 fun other hother => ?_).trans ?_
    · have hne : other.1 ≠ binding.1 := fun heq => hnodup.1 (heq ▸ List.mem_map_of_mem hother)
      exact fun hmem => (mem_symbols_place.mp hmem).elim hne (hfresh.2 other hother)
    · exact (hplace.append_left rest).trans List.perm_middle

theorem Sorted.nodup_symbols (h : table.Sorted) : table.symbols.Nodup := by
  have hpairwise : table.entries.Pairwise fun a b => a.1 < b.1 := h
  refine List.pairwise_map.mpr (hpairwise.imp fun hlt heq => ?_)
  rw [heq] at hlt
  exact Char.lt_irrefl _ hlt

/-- **A table comes of its bindings in any order.** -/
theorem ofList_of_perm (hsorted : table.Sorted) (hperm : bindings.Perm table.entries) :
    ofList bindings = table := by
  have hnodup : (bindings.map (·.1)).Nodup := (hperm.map _).nodup_iff.mpr hsorted.nodup_symbols
  have hentries : (ofList bindings).entries.Perm table.entries := by
    have hfresh : ∀ binding ∈ bindings, binding.1 ∉ (empty : SymbolTable β).symbols :=
      fun _ _ hmem => List.not_mem_nil hmem
    have hfold := foldl_insert_perm hnodup hfresh
    exact (hfold.trans (List.Perm.of_eq (List.append_nil bindings))).trans hperm
  have hsame : (ofList bindings).entries = table.entries :=
    hentries.eq_of_pairwise (fun a b _ _ hab hba => absurd (Char.lt_trans hab hba) (Char.lt_irrefl _))
      (sorted_ofList bindings) hsorted
  rw [← SymbolTable.mk.injEq] at hsame
  exact hsame

theorem nodup_symbols_concat : ((bindings ++ [binding]).map (·.1)).Nodup ↔
    binding.1 ∉ bindings.map (·.1) ∧ (bindings.map (·.1)).Nodup := by
  rw [List.map_append, List.map_singleton, ← List.concat_eq_append, List.nodup_concat]

theorem ofList_concat (bindings : List (Char × β)) (binding : Char × β) :
    ofList (bindings ++ [binding]) = (ofList bindings).insert binding.1 binding.2 :=
  List.foldl_concat _ _ _ _

/-- A table of bindings of different symbols has these bindings and no others. -/
theorem find?_ofList_eq_some_iff (h : (bindings.map (·.1)).Nodup) :
    (ofList bindings).find? symbol = some value ↔ (symbol, value) ∈ bindings := by
  induction bindings using List.reverseRecOn with
  | nil => simp [ofList]
  | append_singleton bindings binding ih =>
    obtain ⟨other, last⟩ := binding
    rw [nodup_symbols_concat] at h
    have hnew : ∀ old, (other, old) ∉ bindings := fun old hmem =>
      h.1 (List.mem_map.mpr ⟨_, hmem, rfl⟩)
    rw [ofList_concat, find?_insert]
    by_cases heq : symbol = other
    · subst heq
      simp [hnew, eq_comm]
    · simp [heq, ih h.2]

theorem contains_ofList (h : (bindings.map (·.1)).Nodup) :
    (ofList bindings).contains symbol = true ↔ symbol ∈ bindings.map (·.1) := by
  rw [contains, Option.isSome_iff_exists]
  simp [find?_ofList_eq_some_iff h]

end SymbolTable

namespace RuleSet

/-! ## Pages -/

/-- Blanks that do not end a line. -/
abbrev Margin := { blanks : List Char // ∀ c ∈ blanks, isBlank c = true ∧ c ≠ '\n' }

/-- What may stand between two separators. -/
inductive Entry where
  | blank (margin : Margin)
  | remark (before : Margin) (words : { words : List Char // ∀ c ∈ words, c ≠ '\n' ∧ c ≠ ';' })
  | rule (symbol : Char) (replacement : String) (before between after behind : Margin)

/-- An entry as it is written. -/
def Entry.text : Entry → List Char
  | .blank margin => margin
  | .remark before words => before ++ '#' :: words
  | .rule symbol replacement before between after behind =>
    before ++ symbol :: (between ++ '-' :: '>' :: (after ++ replacement.toList ++ behind))

/-- The rule that an entry states. -/
def Entry.rule? : Entry → Option (Char × String)
  | .blank _ => none
  | .remark _ _ => none
  | .rule symbol replacement _ _ _ _ => some (symbol, replacement)

/-- What stands between two entries. -/
inductive Separator where
  | newline
  | semicolon

/-- A separator as it is written. -/
def Separator.symbol : Separator → Char
  | .newline => '\n'
  | .semicolon => ';'

/-- A written table of rules: an entry, and others behind a separator each. -/
structure Page where
  first : Entry
  others : List (Separator × Entry)

namespace Page

/-- The symbols of a page. -/
def symbols (page : Page) : List Char :=
  page.first.text ++ page.others.flatMap fun other => other.1.symbol :: other.2.text

/-- The text of a page. -/
def text (page : Page) : String := String.ofList page.symbols

/-- The entries of a page. -/
def entries (page : Page) : List Entry := page.first :: page.others.map (·.2)

/-- The rules that a page states, in the order of their writing. -/
def rules (page : Page) : List (Char × String) := page.entries.filterMap Entry.rule?

end Page

/-- A rule that can be written: the symbol does not vanish, separate entries or begin a remark, and the
replacement loses nothing. -/
structure Writable (binding : Char × String) : Prop where
  symbol : isBlank binding.1 = false ∧ binding.1 ≠ '#' ∧ binding.1 ≠ ';'
  replacement : ∀ c ∈ binding.2.toList, isBlank c = false ∧ c ≠ ';'

variable {symbol c : Char} {replacement : String} {front tail : List Char} {index : Nat}

theorem ne_newline (h : isBlank c = false) : c ≠ '\n' := fun heq => by
  subst heq
  exact absurd h (by decide)

theorem ne_semicolon (h : isBlank c = true) : c ≠ ';' := fun heq => by
  subst heq
  exact absurd h (by decide)

theorem ne_hyphen (h : isBlank c = true) : c ≠ '-' := fun heq => by
  subst heq
  exact absurd h (by decide)

/-! ## Separators -/

/-- Does the character separate entries? -/
def separates (c : Char) : Bool := c = '\n' ∨ c = ';'

theorem pieces_eq_splitOnP (text : List Char) : pieces text = text.splitOnP separates := by
  induction text with
  | nil => rfl
  | cons c rest ih =>
    rw [pieces, List.splitOnP_cons_eq_if_modifyHead, ih]
    by_cases hc : c = '\n' ∨ c = ';'
    · rw [if_pos hc, if_pos (by simpa [separates] using hc)]
    · rw [if_neg hc, if_neg (by simpa [separates] using hc)]
      cases hrest : rest.splitOnP separates with
      | nil => exact absurd hrest (List.splitOnP_ne_nil _ _)
      | cons piece others => rfl

theorem separates_eq_false (hnewline : c ≠ '\n') (hsemicolon : c ≠ ';') : separates c = false := by
  simp [separates, hnewline, hsemicolon]

/-- No separator is written within an entry. -/
theorem separates_of_mem_text {entry : Entry}
    (h : ∀ binding, entry.rule? = some binding → Writable binding) :
    ∀ c ∈ entry.text, separates c = false := by
  have hmargin : ∀ (margin : Margin), ∀ c ∈ margin.1, separates c = false := fun margin c hc =>
    separates_eq_false (margin.2 c hc).2 (ne_semicolon (margin.2 c hc).1)
  intro c hc
  cases entry with
  | blank margin => exact hmargin margin c hc
  | remark before words =>
    simp only [Entry.text, List.mem_append, List.mem_cons] at hc
    rcases hc with hc | rfl | hc
    · exact hmargin before c hc
    · decide
    · exact separates_eq_false (words.2 c hc).1 (words.2 c hc).2
  | rule symbol replacement before between after behind =>
    obtain ⟨⟨hblank, -, hsemicolon⟩, hreplacement⟩ := h (symbol, replacement) rfl
    simp only [Entry.text, List.mem_append, List.mem_cons] at hc
    rcases hc with hc | rfl | hc | rfl | rfl | (hc | hc) | hc
    · exact hmargin before c hc
    · exact separates_eq_false (ne_newline hblank) hsemicolon
    · exact hmargin between c hc
    · decide
    · decide
    · exact hmargin after c hc
    · exact separates_eq_false (ne_newline (hreplacement c hc).1) (hreplacement c hc).2
    · exact hmargin behind c hc

/-- **The pieces of a page are its entries.** -/
theorem pieces_text (page : Page) (h : ∀ binding ∈ page.rules, Writable binding) :
    pieces page.symbols = page.entries.map Entry.text := by
  obtain ⟨first, others⟩ := page
  rw [pieces_eq_splitOnP]
  have hwritable : ∀ entry ∈ (⟨first, others⟩ : Page).entries, ∀ c ∈ entry.text,
      separates c = false := fun entry hentry =>
    separates_of_mem_text fun binding hrule => h binding (List.mem_filterMap.mpr ⟨entry, hentry, hrule⟩)
  clear h
  simp only [Page.symbols, Page.entries] at hwritable ⊢
  induction others generalizing first with
  | nil =>
    rw [List.flatMap_nil, List.append_nil]
    exact List.splitOnP_eq_singleton (hwritable first List.mem_cons_self)
  | cons other others ih =>
    rw [List.map_cons, List.forall_mem_cons] at hwritable
    have hseparator : separates other.1.symbol = true := by
      cases other.1 <;> decide
    rw [List.flatMap_cons, List.cons_append,
      List.splitOnP_append_cons_of_forall_mem hwritable.1 _ hseparator, ih other.2 hwritable.2]
    rfl

/-! ## Blanks -/

theorem trimBlanks_eq (text : List Char) :
    trimBlanks text = (text.dropWhile isBlank).rdropWhile isBlank := rfl

theorem trimBlanks_margin (margin : Margin) : trimBlanks margin = [] := by
  have hnil : margin.1.dropWhile isBlank = [] :=
    List.dropWhile_eq_nil_iff.mpr fun c hc => (margin.2 c hc).1
  rw [trimBlanks_eq, hnil, List.rdropWhile_nil]

/-- Nothing is trimmed before a character that is seen. -/
theorem rdropWhile_append_cons (h : isBlank c = false) (front tail : List Char) :
    (front ++ c :: tail).rdropWhile isBlank = front ++ c :: tail.rdropWhile isBlank := by
  induction tail using List.reverseRecOn with
  | nil =>
    rw [List.rdropWhile_concat_neg _ _ _ (by simp [h]), List.rdropWhile_nil]
  | append_singleton tail last ih =>
    rw [← List.cons_append, ← List.append_assoc]
    by_cases hlast : isBlank last = true
    · rw [List.rdropWhile_concat_pos _ _ _ hlast, List.rdropWhile_concat_pos _ _ _ hlast, ih]
    · rw [List.rdropWhile_concat_neg _ _ _ hlast, List.rdropWhile_concat_neg _ _ _ hlast,
        List.append_assoc, List.cons_append]

theorem trimBlanks_append_cons (h : isBlank c = false) (before : Margin) (tail : List Char) :
    trimBlanks (before ++ c :: tail) = c :: tail.rdropWhile isBlank := by
  rw [trimBlanks_eq, List.dropWhile_append_of_pos fun c hc => (before.2 c hc).1,
    List.dropWhile_cons_of_neg (by simp [h])]
  exact rdropWhile_append_cons h [] tail

/-- What is trimmed would have been dropped as blank anyway. -/
theorem filter_rdropWhile (text : List Char) :
    (text.rdropWhile isBlank).filter (fun c => !isBlank c) = text.filter fun c => !isBlank c := by
  induction text using List.reverseRecOn with
  | nil => rfl
  | append_singleton text last ih =>
    by_cases hlast : isBlank last = true
    · rw [List.rdropWhile_concat_pos _ _ _ hlast, ih, List.filter_append]
      simp [hlast]
    · rw [List.rdropWhile_concat_neg _ _ _ hlast]

theorem filter_margin (margin : Margin) : margin.1.filter (fun c => !isBlank c) = [] :=
  List.filter_eq_nil_iff.mpr fun c hc => by simp [(margin.2 c hc).1]

/-! ## Arrows -/

/-- A character that does not begin an arrow stands before it. -/
theorem splitArrow_cons (h : c = '-' → tail.head? ≠ some '>') :
    splitArrow (c :: tail) = (splitArrow tail).map fun parts => (c :: parts.1, parts.2) := by
  rw [splitArrow]
  intro after hc htail
  exact h hc (by rw [htail, List.head?_cons])

/-- **The arrow of a rule is the first one**, also behind a symbol of which an arrow is made: what
follows the symbol is a blank or begins the arrow, and does not end one. -/
theorem splitArrow_rule (symbol : Char) (between : Margin) (tail : List Char) :
    splitArrow (symbol :: (between ++ '-' :: '>' :: tail)) = some (symbol :: between, tail) := by
  have hrest : splitArrow (between ++ '-' :: '>' :: tail) = some (between.1, tail) := by
    obtain ⟨blanks, hblanks⟩ := between
    induction blanks with
    | nil => rfl
    | cons c blanks ih =>
      rw [List.forall_mem_cons] at hblanks
      rw [List.cons_append, splitArrow_cons fun heq => absurd heq (ne_hyphen hblanks.1.1),
        ih hblanks.2]
      rfl
  rw [splitArrow_cons fun _ => ?_, hrest, Option.map_some]
  obtain ⟨blanks, hblanks⟩ := between
  cases blanks with
  | nil => exact fun hhead => absurd (Option.some.inj hhead) (by decide)
  | cons c blanks =>
    have hblank := (hblanks c List.mem_cons_self).1
    intro hhead
    obtain rfl : c = '>' := Option.some.inj hhead
    exact absurd hblank (by decide)

/-! ## Entries -/

/-- **A written rule is read as it was meant.** -/
theorem parseEntry_rule (h : Writable (symbol, replacement)) (before between after behind : Margin)
    (index : Nat) :
    parseEntry index (trimBlanks (Entry.rule symbol replacement before between after behind).text) =
      .ok (symbol, replacement) := by
  have hsymbol : trimBlanks (symbol :: between.1) = [symbol] := by
    have htrim := trimBlanks_append_cons h.symbol.1 ⟨[], by simp⟩ between.1
    rwa [List.rdropWhile_eq_nil_iff.mpr fun c hc => (between.2 c hc).1] at htrim
  have hreplacement : replacement.toList.filter (fun c => !isBlank c) = replacement.toList :=
    List.filter_eq_self.mpr fun c hc => by simp [(h.replacement c hc).1]
  have htrim : trimBlanks (Entry.rule symbol replacement before between after behind).text =
      symbol :: (between ++ '-' :: '>' :: (after ++ replacement.toList ++ behind).rdropWhile isBlank) := by
    have hhead := rdropWhile_append_cons (c := '>') (by decide) []
      (after ++ replacement.toList ++ behind)
    rw [List.nil_append] at hhead
    rw [Entry.text, trimBlanks_append_cons h.symbol.1, rdropWhile_append_cons (by decide), hhead,
      List.nil_append]
  rw [htrim, parseEntry, splitArrow_rule]
  simp only [hsymbol, filter_rdropWhile, List.filter_append, filter_margin, hreplacement,
    List.nil_append, List.append_nil, String.ofList_toList]

/-- The entries that are read are the rules of the page. -/
theorem forall₂_entries {entries : List Entry}
    (h : ∀ binding ∈ entries.filterMap Entry.rule?, Writable binding) :
    List.Forall₂ (fun entry binding => ∀ index, parseEntry index entry = .ok binding)
      (((entries.map Entry.text).map trimBlanks).filter isEntry) (entries.filterMap Entry.rule?) := by
  induction entries with
  | nil => exact List.Forall₂.nil
  | cons entry entries ih =>
    cases entry with
    | blank margin =>
      rw [List.map_cons, List.map_cons, Entry.text, trimBlanks_margin, List.filter_cons_of_neg (by decide)]
      exact ih h
    | remark before words =>
      rw [List.map_cons, List.map_cons, Entry.text, trimBlanks_append_cons (by decide),
        List.filter_cons_of_neg (by simp [isEntry])]
      exact ih h
    | rule symbol replacement before between after behind =>
      have hrules : (Entry.rule symbol replacement before between after behind :: entries).filterMap
          Entry.rule? = (symbol, replacement) :: entries.filterMap Entry.rule? := rfl
      rw [hrules, List.forall_mem_cons] at h
      rw [hrules, List.map_cons, List.map_cons, List.filter_cons_of_pos]
      · exact List.Forall₂.cons (parseEntry_rule h.1 before between after behind) (ih h.2)
      · rw [Entry.text, trimBlanks_append_cons h.1.symbol.1]
        simp [isEntry, h.1.symbol.2.1]

/-- **Rules of different symbols are all added**, and the entries behind them come after. -/
theorem parseEntries_append (read : List (Char × String)) {entries : List (List Char)}
    {bindings : List (Char × String)}
    (h : List.Forall₂ (fun entry binding => ∀ index, parseEntry index entry = .ok binding) entries
      bindings)
    (hdistinct : ((read ++ bindings).map (·.1)).Nodup) (rest : List (List Char)) (index : Nat) :
    parseEntries index { table := .ofList read } (entries ++ rest) =
      parseEntries (index + entries.length) { table := .ofList (read ++ bindings) } rest := by
  induction h generalizing read index with
  | nil => rw [List.append_nil]; rfl
  | @cons entry binding entries bindings hentry _ ih =>
    have hconcat : read ++ binding :: bindings = (read ++ [binding]) ++ bindings := by
      rw [List.append_assoc, List.singleton_append]
    rw [hconcat] at hdistinct
    have hread : ((read ++ [binding]).map (·.1)).Nodup := by
      rw [List.map_append] at hdistinct
      exact (List.nodup_append.mp hdistinct).1
    have hnew : (SymbolTable.ofList read).contains binding.1 = false := by
      rw [SymbolTable.nodup_symbols_concat] at hread
      rw [Bool.eq_false_iff, ne_eq, SymbolTable.contains_ofList hread.2]
      exact hread.1
    rw [List.cons_append, parseEntries, hentry index]
    simp only [hnew, Bool.false_eq_true, if_false]
    rw [insert, ← SymbolTable.ofList_concat, ih _ hdistinct (index + 1), hconcat, List.length_cons]
    congr 1
    omega

/-! ## The whole page -/

/-- **However a table is written, it is read back**, and a plan that gives its rules as text has the
same rules as one that gives them symbol by symbol. -/
theorem parse_text (page : Page) {table : SymbolTable String} (hsorted : table.Sorted)
    (hwritable : ∀ binding ∈ table.entries, Writable binding)
    (hrules : page.rules.Perm table.entries) :
    parse page.text = .ok { fertile := true, table, fallback := .keep } ∧
      ∀ traits : PlantTraits, { traits with rules := .text page.text }.readRules =
        { traits with rules := .map table }.readRules := by
  have hpage : ∀ binding ∈ page.rules, Writable binding :=
    fun binding hbinding => hwritable binding (hrules.mem_iff.mp hbinding)
  have hentries : entriesOf page.text.toList =
      ((page.entries.map Entry.text).map trimBlanks).filter isEntry := by
    rw [entriesOf, Page.text, String.toList_ofList, pieces_text page hpage]
  have hnodup : (page.rules.map (·.1)).Nodup :=
    (hrules.map _).nodup_iff.mpr hsorted.nodup_symbols
  have htable : page.rules.foldl (fun table binding => table.insert binding.1 binding.2) .empty =
      table := SymbolTable.ofList_of_perm hsorted hrules
  have hparse : parse page.text = .ok { fertile := true, table, fallback := .keep } := by
    have hread := parseEntries_append [] (forall₂_entries hpage) hnodup [] 0
    rw [List.append_nil] at hread
    rw [parse, hentries, ← htable]
    exact hread
  refine ⟨hparse, fun traits => ?_⟩
  simp only [PlantTraits.readRules, hparse]

/-- A page with rules for both characters of the arrow, remarks and empty entries. -/
def scribble : Page where
  first := .rule 'F' "F->#F" ⟨"  ".toList, by simp [isBlank]⟩ ⟨"\t".toList, by simp [isBlank]⟩
    ⟨[], by simp⟩ ⟨"\u3000 ".toList, by simp [isBlank]⟩
  others := [
    (.semicolon, .blank ⟨[], by simp⟩),
    (.newline, .remark ⟨" ".toList, by simp [isBlank]⟩ ⟨" F -> G".toList, by simp⟩),
    (.newline, .rule '>' "" ⟨[], by simp⟩ ⟨[], by simp⟩ ⟨" ".toList, by simp [isBlank]⟩
      ⟨[], by simp⟩),
    (.semicolon, .rule '-' ">-" ⟨" ".toList, by simp [isBlank]⟩ ⟨[], by simp⟩ ⟨[], by simp⟩
      ⟨[], by simp⟩)]

theorem scribble_parsed :
    let table : SymbolTable String := .ofList [('>', ""), ('F', "F->#F"), ('-', ">-")]
    scribble.text = "  F\t->F->#F\u3000 ;\n # F -> G\n>-> ; -->>-" ∧ table.Sorted ∧
      (∀ binding ∈ table.entries, Writable binding) ∧ scribble.rules.Perm table.entries ∧
      parse scribble.text = .ok { fertile := true, table, fallback := .keep } ∧
      ∀ traits : PlantTraits, { traits with rules := .text scribble.text }.readRules =
        { traits with rules := .map table }.readRules := by
  intro table
  have hsorted : table.Sorted := SymbolTable.sorted_ofList _
  have hentries : table.entries = [('-', ">-"), ('>', ""), ('F', "F->#F")] := by decide
  have hwritable : ∀ binding ∈ table.entries, Writable binding := by
    have hall : ∀ binding ∈ table.entries, (isBlank binding.1 = false ∧ binding.1 ≠ '#' ∧
        binding.1 ≠ ';') ∧ ∀ c ∈ binding.2.toList, isBlank c = false ∧ c ≠ ';' := by
      rw [hentries]
      simp [isBlank]
    exact fun binding hbinding => ⟨(hall binding hbinding).1, (hall binding hbinding).2⟩
  have hrules : scribble.rules.Perm table.entries := by decide
  exact ⟨by decide, hsorted, hwritable, hrules, parse_text scribble hsorted hwritable hrules⟩

end RuleSet
end PlantGrowth
