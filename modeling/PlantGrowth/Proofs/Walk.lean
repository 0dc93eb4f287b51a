import PlantGrowth.Proofs.Brackets
import Mathlib.Tactic.ByContra

/-!
# The walk over a bracketed sentence

A plant whose only fork reads a pair of brackets visits the bound symbols of its sentence in a fixed
order, if it is baked: behind an opening symbol it goes on with what follows the closing one, and
takes up the interior afterwards. Each visit makes a node, and the node hangs on an *anchor*, the
nearest node before it on its own path that is solid.

Here the order and the anchors are described for a row of symbols with their positions, without
worlds and tasks. `Signs.walk` is the order. `Signs.visits` follows the walk and hands the anchors
on as the chains of a plant do, from each visit to the next one on its path; `Signs.Anchors` says
what the anchor of a position is without walking, and both agree (`Signs.anchors_of_mem_visits`).
-/

namespace PlantGrowth

/-- A symbol of a sentence and its position. -/
abbrev Entry := Char × Nat

/-- What of the symbols of a plant the walk depends on. -/
structure Signs where
  opening : Char
  closing : Char
  /-- Is a handler bound to the symbol? -/
  binds : Char → Bool
  /-- Can the nodes of the symbol anchor others? -/
  solid : Char → Bool

/-- One visit of the walk. The anchor is a position, and none if the node hangs on the root. -/
structure Visit where
  symbol : Char
  position : Nat
  anchor : Option Nat
  deriving DecidableEq

/-- What was visited. -/
def Visit.entry (visit : Visit) : Entry := (visit.symbol, visit.position)

namespace Signs

/-- The brackets are told apart from each other and from what grows. -/
structure Regular (signs : Signs) : Prop where
  distinct : signs.opening ≠ signs.closing
  opens : signs.binds signs.opening = true
  closes : signs.binds signs.closing = false
  ethereal : signs.solid signs.opening = false
  bound : ∀ symbol, signs.solid symbol = true → signs.binds symbol = true

variable (signs : Signs)

/-- How many entries of a row are read until the bracket in front of it is closed. -/
def group? (row : List Entry) : Option Nat :=
  Sentence.closingAfter signs.opening signs.closing 1 (row.map Prod.fst)

/-- **The walk.** It skips symbols that are not bound; at an opening symbol it walks what follows the
matching one, then the interior. -/
def walk : List Entry → List Entry
  | [] => []
  | entry :: rest =>
    if signs.binds entry.1 then
      if entry.1 = signs.opening then
        match signs.group? rest with
        | some count => entry :: (walk (rest.drop count) ++ walk (rest.take (count - 1)))
        | none => [entry]
      else entry :: walk rest
    else walk rest
termination_by row => row.length

/-- The anchor of what comes next after a visit on its path. -/
def onward (visit : Visit) : Option Nat :=
  if signs.solid visit.symbol then some visit.position else visit.anchor

/-- The visits of the walk over a row that begins below an anchor. -/
def visits (anchor : Option Nat) : List Entry → List Visit
  | [] => []
  | entry :: rest =>
    let visit : Visit := { symbol := entry.1, position := entry.2, anchor }
    if signs.binds entry.1 then
      if entry.1 = signs.opening then
        match signs.group? rest with
        | some count =>
          visit :: (visits (signs.onward visit) (rest.drop count) ++
            visits (signs.onward visit) (rest.take (count - 1)))
        | none => [visit]
      else visit :: visits (signs.onward visit) rest
    else visits anchor rest
termination_by row => row.length

/-- Every opening symbol of the row has a closing one in it. -/
def Whole (row : List Entry) : Prop := Matched signs.opening signs.closing (row.map Prod.fst)

variable {signs} {row rest : List Entry} {entry : Entry} {anchor : Option Nat} {count : Nat}

/-! ## Rows -/

theorem Whole.of_cons (h : signs.Whole (entry :: rest)) : signs.Whole rest := h.2

theorem Whole.exists_group (h : signs.Whole (entry :: rest)) (hopening : entry.1 = signs.opening) :
    ∃ count, signs.group? rest = some count := h.1 hopening

/-- What follows a bracketed part. -/
theorem Whole.behind (h : signs.Whole rest) (count : Nat) : signs.Whole (rest.drop count) := by
  have hdrop := Matched.drop h count
  rw [← List.map_drop] at hdrop
  exact hdrop

/-- The interior of a bracketed part. -/
theorem whole_interior (hsigns : signs.Regular) (h : signs.group? rest = some count) :
    signs.Whole (rest.take (count - 1)) := by
  have hinterior := Sentence.matched_interior hsigns.distinct h
  rw [← List.map_take] at hinterior
  exact hinterior

theorem group?_pos (h : signs.group? rest = some count) : 0 < count :=
  Sentence.closingAfter_pos h

theorem group?_le_length (h : signs.group? rest = some count) : count ≤ rest.length := by
  have hle := Sentence.closingAfter_le_length h
  rwa [List.length_map] at hle

/-- A bracketed part is its interior and the closing symbol. -/
theorem eq_of_group? (h : signs.group? rest = some count) :
    ∃ position, rest = rest.take (count - 1) ++ (signs.closing, position) :: rest.drop count := by
  have hpos := group?_pos h
  have hle := group?_le_length h
  have hlast := Sentence.getElem?_of_closingAfter h
  rw [List.getElem?_map, Option.map_eq_some_iff] at hlast
  obtain ⟨⟨symbol, position⟩, hget, rfl⟩ := hlast
  have hlt : count - 1 < rest.length := by omega
  rw [List.getElem?_eq_getElem hlt] at hget
  refine ⟨position, ?_⟩
  have hdrop := List.drop_eq_getElem_cons hlt
  rw [Option.some.inj hget, Nat.sub_add_cancel hpos] at hdrop
  rw [← hdrop, List.take_append_drop]

/-! ## One visit -/

theorem visits_nil (anchor : Option Nat) : signs.visits anchor [] = [] := by
  rw [visits]

theorem visits_skip (h : signs.binds entry.1 = false) (rest : List Entry) :
    signs.visits anchor (entry :: rest) = signs.visits anchor rest := by
  rw [visits]
  simp only [h, Bool.false_eq_true, if_false]

theorem visits_bound (h : signs.binds entry.1 = true) (hopening : entry.1 ≠ signs.opening)
    (rest : List Entry) :
    signs.visits anchor (entry :: rest) =
      ⟨entry.1, entry.2, anchor⟩ :: signs.visits (signs.onward ⟨entry.1, entry.2, anchor⟩) rest := by
  rw [visits]
  simp only [h, if_true, if_neg hopening]

theorem visits_group (h : signs.binds entry.1 = true) (hopening : entry.1 = signs.opening)
    (hgroup : signs.group? rest = some count) :
    signs.visits anchor (entry :: rest) =
      ⟨entry.1, entry.2, anchor⟩ ::
        (signs.visits (signs.onward ⟨entry.1, entry.2, anchor⟩) (rest.drop count) ++
          signs.visits (signs.onward ⟨entry.1, entry.2, anchor⟩) (rest.take (count - 1))) := by
  rw [visits]
  simp only [h, if_true, if_pos hopening, hgroup]

/-- Symbols that are not bound do not show in the visits. -/
theorem visits_append_of_skip {skipped : List Entry}
    (h : ∀ entry ∈ skipped, signs.binds entry.1 = false) (rest : List Entry) :
    signs.visits anchor (skipped ++ rest) = signs.visits anchor rest := by
  induction skipped with
  | nil => rfl
  | cons entry skipped ih =>
    rw [List.cons_append, visits_skip (h entry List.mem_cons_self)]
    exact ih fun other hmem => h other (List.mem_cons_of_mem entry hmem)

/-! ## All visits -/

/-- **The visits follow the walk**, whatever they hang on. -/
theorem map_entry_visits (anchor : Option Nat) (row : List Entry) :
    (signs.visits anchor row).map Visit.entry = signs.walk row := by
  fun_induction visits signs anchor row with
  | case1 anchor => rw [walk, List.map_nil]
  | case2 anchor entry rest visit hbinds hopening count hgroup ihbehind ihinterior =>
    rw [walk]
    simp only [hbinds, if_true, if_pos hopening, hgroup]
    rw [List.map_cons, List.map_append, ihbehind, ihinterior]
    rfl
  | case3 anchor entry rest visit hbinds hopening hgroup =>
    rw [walk]
    simp only [hbinds, if_true, if_pos hopening, hgroup]
    rfl
  | case4 anchor entry rest visit hbinds hopening ih =>
    rw [walk]
    simp only [hbinds, if_true, if_neg hopening]
    rw [List.map_cons, ih]
    rfl
  | case5 anchor entry rest hbinds ih =>
    rw [walk]
    simp only [hbinds, Bool.false_eq_true, if_false]
    exact ih

/-- **The walk visits every bound symbol of a row once.** -/
theorem walk_perm (hsigns : signs.Regular) (h : signs.Whole row) :
    (signs.walk row).Perm (row.filter fun entry => signs.binds entry.1) := by
  fun_induction walk signs row with
  | case1 => exact List.Perm.refl []
  | case2 entry rest hbinds hopening count hgroup ihbehind ihinterior =>
    obtain ⟨position, hrest⟩ := eq_of_group? hgroup
    have hparts : rest.filter (fun entry => signs.binds entry.1) =
        (rest.take (count - 1)).filter (fun entry => signs.binds entry.1) ++
          (rest.drop count).filter (fun entry => signs.binds entry.1) := by
      conv => lhs; rw [hrest]
      rw [List.filter_append, List.filter_cons_of_neg (by simp [hsigns.closes])]
    rw [List.filter_cons_of_pos (by simpa using hbinds), hparts]
    refine List.Perm.cons entry ?_
    have hbehind := ihbehind (h.of_cons.behind count)
    have hinterior := ihinterior (whole_interior hsigns hgroup)
    exact (hbehind.append hinterior).trans List.perm_append_comm
  | case3 entry rest hbinds hopening hgroup =>
    obtain ⟨count, hcount⟩ := h.exists_group hopening
    rw [hgroup] at hcount
    cases hcount
  | case4 entry rest hbinds hopening ih =>
    rw [List.filter_cons_of_pos (by simpa using hbinds)]
    exact (ih h.of_cons).cons entry
  | case5 entry rest hbinds ih =>
    rw [List.filter_cons_of_neg (by simpa using hbinds)]
    exact ih h.of_cons

/-- The number of visits. -/
theorem length_visits (hsigns : signs.Regular) (h : signs.Whole row) (anchor : Option Nat) :
    (signs.visits anchor row).length = (row.map Prod.fst).countP signs.binds := by
  have hvisits : (signs.visits anchor row).map Visit.entry = signs.walk row :=
    map_entry_visits anchor row
  have hmap := congrArg List.length hvisits
  rw [List.length_map, (walk_perm hsigns h).length_eq, ← List.countP_eq_length_filter] at hmap
  rw [hmap, List.countP_map]
  rfl

/-- The symbols that are visited are the bound ones. -/
theorem map_symbol_visits_perm (hsigns : signs.Regular) (h : signs.Whole row)
    (anchor : Option Nat) :
    ((signs.visits anchor row).map Visit.symbol).Perm ((row.map Prod.fst).filter signs.binds) := by
  have hsymbols : (signs.visits anchor row).map Visit.symbol = (signs.walk row).map Prod.fst := by
    rw [← map_entry_visits anchor, List.map_map]
    rfl
  rw [hsymbols, List.filter_map]
  exact (walk_perm hsigns h).map Prod.fst

/-- No position of a sentence is visited twice. -/
theorem nodup_positions (hsigns : signs.Regular) {symbols : List Char}
    (h : signs.Whole symbols.zipIdx) (anchor : Option Nat) :
    ((signs.visits anchor symbols.zipIdx).map Visit.position).Nodup := by
  have hpositions : (signs.visits anchor symbols.zipIdx).map Visit.position =
      (signs.walk symbols.zipIdx).map Prod.snd := by
    rw [← map_entry_visits anchor, List.map_map]
    rfl
  rw [hpositions]
  refine ((walk_perm hsigns h).map Prod.snd).nodup_iff.mpr ?_
  have hall : (symbols.zipIdx.map Prod.snd).Nodup := by
    rw [List.zipIdx_map_snd]
    exact List.nodup_range'
  exact hall.sublist (List.filter_sublist.map Prod.snd)

/-- The first visit of a row that begins with a bound symbol. -/
theorem exists_visits_cons (h : signs.binds entry.1 = true) (anchor : Option Nat)
    (rest : List Entry) :
    ∃ more, signs.visits anchor (entry :: rest) = ⟨entry.1, entry.2, anchor⟩ :: more := by
  rw [visits]
  simp only [h, if_true]
  split
  · split
    · exact ⟨_, rfl⟩
    · exact ⟨_, rfl⟩
  · exact ⟨_, rfl⟩

/-! ## Anchors -/

section Anchors

variable (signs) (symbols : List Char)

/-- The bracket that is opened at one position of a sentence is closed at another. -/
def Closes (start finish : Nat) : Prop :=
  symbols[start]? = some signs.opening ∧
    ∃ count, Sentence.closingAfter signs.opening signs.closing 1 (symbols.drop (start + 1)) =
      some count ∧ finish = start + count

/-- One position comes before another on the path of that one: no bracketed part around the earlier
position is closed before the later one. -/
def Precedes (earlier later : Nat) : Prop :=
  earlier < later ∧ ∀ start finish, signs.Closes symbols start finish →
    start ≤ earlier → earlier ≤ finish → later ≤ finish

/-- The symbol at a position makes nodes that can anchor others. -/
def SolidAt (position : Nat) : Prop :=
  ∃ symbol, symbols[position]? = some symbol ∧ signs.solid symbol = true

/-- **The anchor of a position**: the nearest solid one before it on its path, and the root if there
is none. -/
def Anchors (position : Nat) : Option Nat → Prop
  | none => ∀ earlier, signs.SolidAt symbols earlier → ¬ signs.Precedes symbols earlier position
  | some anchor =>
    signs.SolidAt symbols anchor ∧ signs.Precedes symbols anchor position ∧
      ∀ earlier, signs.SolidAt symbols earlier → signs.Precedes symbols earlier position →
        earlier ≤ anchor

/-- A row that the walk comes to: a stretch of the sentence, with no bracket closed in it that was
opened before, and the anchor of the position where it begins. -/
structure Stretch (before row behind : List Entry) (anchor : Option Nat) : Prop where
  split : symbols.zipIdx = before ++ (row ++ behind)
  clear : ∀ start finish, signs.Closes symbols start finish → start < before.length →
    finish < before.length ∨ before.length + row.length ≤ finish
  anchors : signs.Anchors symbols before.length anchor

end Anchors

variable {symbols : List Char} {before behind : List Entry} {start finish : Nat}

theorem Closes.unique {other : Nat} (h : signs.Closes symbols start finish)
    (h' : signs.Closes symbols start other) : finish = other := by
  obtain ⟨-, count, hcount, rfl⟩ := h
  obtain ⟨-, count', hcount', rfl⟩ := h'
  rw [Option.some.inj (hcount.symm.trans hcount')]

/-- Two positions with the same solid positions before them on their paths have the same anchor. -/
theorem Anchors.of_iff {position later : Nat} (h : signs.Anchors symbols position anchor)
    (hiff : ∀ earlier, signs.SolidAt symbols earlier →
      (signs.Precedes symbols earlier later ↔ signs.Precedes symbols earlier position)) :
    signs.Anchors symbols later anchor := by
  cases anchor with
  | none => exact fun earlier hsolid hprecedes => h earlier hsolid ((hiff earlier hsolid).mp hprecedes)
  | some anchor =>
    obtain ⟨hsolid, hprecedes, hnearest⟩ := h
    refine ⟨hsolid, (hiff anchor hsolid).mpr hprecedes, fun earlier hearlier hlater => ?_⟩
    exact hnearest earlier hearlier ((hiff earlier hearlier).mp hlater)

namespace Stretch

theorem symbols_eq (h : signs.Stretch symbols before row behind anchor) :
    symbols = before.map Prod.fst ++ (row.map Prod.fst ++ behind.map Prod.fst) := by
  have hmap := congrArg (List.map Prod.fst) h.split
  rw [List.zipIdx_map_fst, List.map_append, List.map_append] at hmap
  exact hmap

theorem getElem?_zipIdx (h : signs.Stretch symbols before (entry :: rest) behind anchor) :
    symbols[before.length]? = some entry.1 ∧ entry.2 = before.length := by
  have hget : symbols.zipIdx[before.length]? = some entry := by
    rw [h.split, List.getElem?_append_right (Nat.le_refl _), Nat.sub_self]
    rfl
  rw [List.getElem?_zipIdx, Option.map_eq_some_iff] at hget
  obtain ⟨symbol, hsymbol, rfl⟩ := hget
  exact ⟨hsymbol, Nat.zero_add _⟩

/-- What stands behind the first entry of the row. -/
theorem drop_eq (h : signs.Stretch symbols before (entry :: rest) behind anchor) (count : Nat)
    (hle : count ≤ rest.length) :
    symbols.drop (before.length + 1 + count) =
      (rest.drop count).map Prod.fst ++ behind.map Prod.fst := by
  have hlength : before.length + 1 + count =
      (before.map Prod.fst ++ [entry.1] ++ (rest.take count).map Prod.fst).length := by
    simp only [List.length_append, List.length_map, List.length_singleton, List.length_take]
    omega
  have hsplit : symbols = (before.map Prod.fst ++ [entry.1] ++ (rest.take count).map Prod.fst) ++
      ((rest.drop count).map Prod.fst ++ behind.map Prod.fst) := by
    conv => lhs; rw [h.symbols_eq, ← List.take_append_drop count rest]
    simp only [List.map_cons, List.map_append, List.append_assoc, List.cons_append, List.nil_append]
  conv => lhs; rw [hsplit, hlength]
  exact List.drop_left

/-- At a symbol that opens no bracket the path goes on. -/
theorem precedes_iff (h : signs.Stretch symbols before (entry :: rest) behind anchor) {earlier : Nat}
    (hearlier : earlier < before.length) :
    signs.Precedes symbols earlier (before.length + 1) ↔
      signs.Precedes symbols earlier before.length := by
  constructor
  · rintro ⟨-, hall⟩
    refine ⟨hearlier, fun start finish hcloses hstart hfinish => ?_⟩
    have hle := hall start finish hcloses hstart hfinish
    omega
  · rintro ⟨-, hall⟩
    refine ⟨by omega, fun start finish hcloses hstart hfinish => ?_⟩
    have hle := hall start finish hcloses hstart hfinish
    have hclear := h.clear start finish hcloses (by omega)
    rw [List.length_cons] at hclear
    omega

/-- Behind a symbol that is not solid the anchor is the same. -/
theorem anchors_succ (h : signs.Stretch symbols before (entry :: rest) behind anchor)
    (hsolid : ¬ signs.solid entry.1 = true) :
    signs.Anchors symbols (before.length + 1) anchor := by
  obtain ⟨hhead, -⟩ := h.getElem?_zipIdx
  refine h.anchors.of_iff fun earlier hearlier => ?_
  by_cases hlt : earlier < before.length
  · exact h.precedes_iff hlt
  · have hne : earlier ≠ before.length := by
      rintro rfl
      obtain ⟨symbol, hsymbol, hsolid'⟩ := hearlier
      rw [Option.some.inj (hsymbol.symm.trans hhead)] at hsolid'
      exact hsolid hsolid'
    constructor
    · rintro ⟨hle, -⟩
      omega
    · rintro ⟨hle, -⟩
      exact absurd hle hlt

/-- **The stretch behind a symbol that opens no bracket.** -/
theorem next (h : signs.Stretch symbols before (entry :: rest) behind anchor)
    (hopening : entry.1 ≠ signs.opening) :
    signs.Stretch symbols (before ++ [entry]) rest behind
      (signs.onward ⟨entry.1, entry.2, anchor⟩) := by
  obtain ⟨hhead, hposition⟩ := h.getElem?_zipIdx
  have hlength : (before ++ [entry]).length = before.length + 1 := List.length_append
  have hclear : ∀ start finish, signs.Closes symbols start finish → start < before.length + 1 →
      finish < before.length ∨ before.length + 1 + rest.length ≤ finish := by
    intro start finish hcloses hstart
    have hne : start ≠ before.length := by
      rintro rfl
      exact hopening (Option.some.inj (hhead.symm.trans hcloses.1))
    have hclear := h.clear start finish hcloses (by omega)
    rw [List.length_cons] at hclear
    omega
  refine ⟨?_, ?_, ?_⟩
  · rw [h.split, List.append_assoc]
    rfl
  · intro start finish hcloses hstart
    rw [hlength] at hstart ⊢
    exact (hclear start finish hcloses hstart).imp_left Nat.lt_succ_of_lt
  · rw [hlength, onward]
    by_cases hsolid : signs.solid entry.1 = true
    · rw [if_pos hsolid]
      show signs.Anchors symbols (before.length + 1) (some entry.2)
      rw [hposition]
      refine ⟨⟨entry.1, hhead, hsolid⟩, ⟨Nat.lt_succ_self _, ?_⟩, fun earlier _ hprecedes => ?_⟩
      · intro start finish hcloses hstart hfinish
        have hlast := hclear start finish hcloses (Nat.lt_succ_of_le hstart)
        omega
      · exact Nat.le_of_lt_succ hprecedes.1
    · rw [if_neg hsolid]
      exact h.anchors_succ hsolid

/-- The bracketed part at the head of the row. -/
theorem closes (h : signs.Stretch symbols before (entry :: rest) behind anchor)
    (hopening : entry.1 = signs.opening) (hgroup : signs.group? rest = some count) :
    signs.Closes symbols before.length (before.length + count) := by
  obtain ⟨hhead, -⟩ := h.getElem?_zipIdx
  refine ⟨by rw [hhead, hopening], count, ?_, rfl⟩
  have hdrop := h.drop_eq 0 (Nat.zero_le _)
  rw [Nat.add_zero, List.drop_zero] at hdrop
  rw [hdrop]
  exact Sentence.closingAfter_append hgroup _

/-- Brackets that are opened within the part at the head of the row are closed within it. -/
theorem finish_lt (hsigns : signs.Regular)
    (h : signs.Stretch symbols before (entry :: rest) behind anchor)
    (hgroup : signs.group? rest = some count) (hcloses : signs.Closes symbols start finish)
    (hafter : before.length < start) (hwithin : start ≤ before.length + count) :
    finish < before.length + count := by
  obtain ⟨hopening, found, hfound, rfl⟩ := hcloses
  obtain ⟨index, rfl⟩ : ∃ index, start = before.length + 1 + index :=
    ⟨start - (before.length + 1), by omega⟩
  have hpos := group?_pos hgroup
  have hle := group?_le_length hgroup
  have hindex : (rest.map Prod.fst)[index]? = some signs.opening := by
    have hdrop := h.drop_eq 0 (Nat.zero_le _)
    rw [Nat.add_zero, List.drop_zero] at hdrop
    rw [← List.getElem?_drop, hdrop] at hopening
    rwa [List.getElem?_append_left (by rw [List.length_map]; omega)] at hopening
  have hlast := Sentence.getElem?_of_closingAfter hgroup
  have hne : index ≠ count - 1 := by
    rintro rfl
    exact hsigns.distinct (Option.some.inj (hindex.symm.trans hlast))
  have hinterior := Sentence.matched_interior hsigns.distinct hgroup
  have hwithin' : ((rest.map Prod.fst).take (count - 1))[index]? = some signs.opening := by
    rw [List.getElem?_take_of_lt (by omega), hindex]
  obtain ⟨less, hless⟩ := hinterior.exists_closingAfter hwithin'
  have hlength := Sentence.closingAfter_le_length hless
  rw [List.length_drop, List.length_take, List.length_map] at hlength
  have hsame : found = less := by
    have hdrop := h.drop_eq (index + 1) (by omega)
    rw [← Nat.add_assoc] at hdrop
    rw [hdrop, List.map_drop] at hfound
    rw [List.drop_take] at hless
    have hwhole := Sentence.closingAfter_append hless
      ((rest.map Prod.fst).drop (index + 1) |>.drop (count - 1 - (index + 1)))
    rw [List.take_append_drop] at hwhole
    have hmore := Sentence.closingAfter_append hwhole (behind.map Prod.fst)
    exact Option.some.inj (hfound.symm.trans hmore)
  omega

/-- **The stretch behind a bracketed part.** -/
theorem behindGroup (hsigns : signs.Regular)
    (h : signs.Stretch symbols before (entry :: rest) behind anchor)
    (hopening : entry.1 = signs.opening) (hgroup : signs.group? rest = some count) :
    signs.Stretch symbols (before ++ entry :: rest.take count) (rest.drop count) behind anchor := by
  have hle := group?_le_length hgroup
  have hcloses := h.closes hopening hgroup
  have hlength : (before ++ entry :: rest.take count).length = before.length + 1 + count := by
    rw [List.length_append, List.length_cons, List.length_take]
    omega
  refine ⟨?_, ?_, ?_⟩
  · rw [h.split, List.append_assoc, List.cons_append, List.cons_append, ← List.append_assoc (rest.take count),
      List.take_append_drop]
  · intro start finish hother hstart
    rw [hlength] at hstart ⊢
    rw [List.length_drop]
    rcases Nat.lt_trichotomy start before.length with hlt | heq | hgt
    · have hclear := h.clear start finish hother hlt
      rw [List.length_cons] at hclear
      omega
    · subst heq
      have hsame := hother.unique hcloses
      omega
    · have hlt := h.finish_lt hsigns hgroup hother hgt (by omega)
      omega
  · rw [hlength]
    refine h.anchors.of_iff fun earlier _ => ?_
    constructor
    · rintro ⟨hlt, hall⟩
      have hbefore : earlier < before.length := by
        by_contra hnot
        have hle' := hall _ _ hcloses (by omega) (by omega)
        omega
      refine ⟨hbefore, fun start finish hother hstart hfinish => ?_⟩
      have hle' := hall start finish hother hstart hfinish
      omega
    · rintro ⟨hlt, hall⟩
      refine ⟨by omega, fun start finish hother hstart hfinish => ?_⟩
      have hle' := hall start finish hother hstart hfinish
      have hclear := h.clear start finish hother (by omega)
      rw [List.length_cons] at hclear
      omega

/-- **The stretch within a bracketed part.** -/
theorem interior (hsigns : signs.Regular)
    (h : signs.Stretch symbols before (entry :: rest) behind anchor)
    (hopening : entry.1 = signs.opening) (hgroup : signs.group? rest = some count) :
    signs.Stretch symbols (before ++ [entry]) (rest.take (count - 1))
      (rest.drop (count - 1) ++ behind) anchor := by
  have hle := group?_le_length hgroup
  have hpos := group?_pos hgroup
  have hcloses := h.closes hopening hgroup
  have hlength : (before ++ [entry]).length = before.length + 1 := List.length_append
  refine ⟨?_, ?_, ?_⟩
  · rw [h.split, List.append_assoc, ← List.append_assoc (rest.take _), List.take_append_drop]
    rfl
  · intro start finish hother hstart
    rw [hlength] at hstart ⊢
    rw [List.length_take]
    by_cases heq : start = before.length
    · subst heq
      have hsame := hother.unique hcloses
      omega
    · have hclear := h.clear start finish hother (by omega)
      rw [List.length_cons] at hclear
      omega
  · rw [hlength]
    refine h.anchors_succ ?_
    rw [hopening, hsigns.ethereal]
    exact Bool.false_ne_true

end Stretch

/-- **The anchors that are handed on are the anchors of the positions.** -/
theorem Stretch.anchors_of_mem (hsigns : signs.Regular) (hwhole : signs.Whole row)
    (h : signs.Stretch symbols before row behind anchor) {visit : Visit}
    (hvisit : visit ∈ signs.visits anchor row) :
    signs.Anchors symbols visit.position visit.anchor := by
  induction hlength : row.length using Nat.strongRecOn
    generalizing before row behind anchor with
  | _ length ih =>
    cases row with
    | nil =>
      rw [visits_nil] at hvisit
      cases hvisit
    | cons entry rest =>
      obtain ⟨-, hposition⟩ := h.getElem?_zipIdx
      rw [List.length_cons] at hlength
      have hhere : signs.Anchors symbols entry.2 anchor := by
        rw [hposition]
        exact h.anchors
      by_cases hbinds : signs.binds entry.1 = true
      · by_cases hopening : entry.1 = signs.opening
        · obtain ⟨count, hgroup⟩ := hwhole.exists_group hopening
          have hpos := group?_pos hgroup
          have hle := group?_le_length hgroup
          have honward : signs.onward ⟨entry.1, entry.2, anchor⟩ = anchor := by
            rw [onward, hopening, hsigns.ethereal]
            rfl
          rw [visits_group hbinds hopening hgroup, honward, List.mem_cons, List.mem_append] at hvisit
          rcases hvisit with rfl | hbehind | hinterior
          · exact hhere
          · refine ih _ ?_ (hwhole.of_cons.behind count) (h.behindGroup hsigns hopening hgroup)
              hbehind rfl
            rw [List.length_drop]
            omega
          · refine ih _ ?_ (whole_interior hsigns hgroup) (h.interior hsigns hopening hgroup)
              hinterior rfl
            rw [List.length_take]
            omega
        · rw [visits_bound hbinds hopening, List.mem_cons] at hvisit
          rcases hvisit with rfl | hrest
          · exact hhere
          · exact ih _ (by omega) hwhole.of_cons (h.next hopening) hrest rfl
      · have hskip : signs.binds entry.1 = false := by simpa using hbinds
        have hopening : entry.1 ≠ signs.opening := by
          intro heq
          rw [heq, hsigns.opens] at hskip
          cases hskip
        have honward : signs.onward ⟨entry.1, entry.2, anchor⟩ = anchor := by
          rw [onward, if_neg fun hsolid => hbinds (hsigns.bound entry.1 hsolid)]
        have hnext := h.next hopening
        rw [honward] at hnext
        rw [visits_skip hskip] at hvisit
        exact ih _ (by omega) hwhole.of_cons hnext hvisit rfl

/-- The same for the walk over a whole sentence. -/
theorem anchors_of_mem_visits (hsigns : signs.Regular) (hwhole : signs.Whole symbols.zipIdx)
    {visit : Visit} (hvisit : visit ∈ signs.visits none symbols.zipIdx) :
    signs.Anchors symbols visit.position visit.anchor := by
  have hstart : signs.Stretch symbols [] symbols.zipIdx [] none := by
    refine ⟨?_, ?_, ?_⟩
    · rw [List.nil_append, List.append_nil]
    · intro start finish _ hlt
      cases hlt
    · rintro earlier - ⟨hlt, -⟩
      cases hlt
  exact hstart.anchors_of_mem hsigns hwhole hvisit

end Signs
end PlantGrowth
