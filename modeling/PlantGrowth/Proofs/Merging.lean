import Mathlib.Data.List.Forall2
import Mathlib.Data.List.Induction
import PlantGrowth.Proofs.Bundle

/-!
# Merging bundles

Bundles are merged entry by entry, and an entry whose kind disagrees with what is there already is
passed over. Name by name this is a fold over what the bundles have there (`Bundle.find?_merge`): the
first value decides the kind, and after that the last value of this kind counts, however the kinds
alternate in between.

* `Dictionary.find?_eq_some_iff`, `Bundle.reordered_iff`: what is found does not depend on the order of
  the entries, and it is all that there is.
* `Bundle.kind_merge`, `Bundle.find?_merge_of_takes`: the first kind, and the last value of the kind.
* `Bundle.refill`: a bundle's entries, merged into nothing, are the bundle.
* `Bundle.merge_agrees`: the law of merging.
-/

namespace PlantGrowth

namespace Dictionary

variable {β : Type} {d : Dictionary β} {key : String} {value : β} {entries : List (String × β)}

/-- In a list of distinct names every entry is found. -/
theorem lookup_eq_some_iff_mem (h : (entries.map (·.1)).Nodup) :
    entries.lookup key = some value ↔ (key, value) ∈ entries := by
  induction entries with
  | nil => simp
  | cons entry rest ih =>
    obtain ⟨other, old⟩ := entry
    rw [List.map_cons, List.nodup_cons] at h
    by_cases hkey : key = other
    · subst hkey
      have hfresh : (key, value) ∉ rest := fun hmem => h.1 (List.mem_map.mpr ⟨_, hmem, rfl⟩)
      simp [hfresh, eq_comm]
    · have hne : (key == other) = false := beq_eq_false_iff_ne.mpr hkey
      simp [List.lookup_cons, hne, hkey, ih h.2]

theorem find?_eq_some_iff : d.find? key = some value ↔ (key, value) ∈ d.entries :=
  lookup_eq_some_iff_mem d.distinct

theorem nodup_entries (d : Dictionary β) : d.entries.Nodup :=
  (List.pairwise_map.mp d.distinct).imp fun hne heq => hne (congrArg Prod.fst heq)

/-- A new name is placed at the end. -/
theorem place_of_notMem (h : key ∉ entries.map (·.1)) (value : β) :
    place key value entries = entries ++ [(key, value)] := by
  induction entries with
  | nil => rfl
  | cons entry rest ih =>
    rw [List.map_cons, List.mem_cons, not_or] at h
    rw [place, if_neg (Ne.symm h.1), ih h.2, List.cons_append]

end Dictionary

namespace Bundle

variable {H : Type} {bundle other : Bundle H} {bundles : List (Bundle H)} {key : String} {kind : Kind}

/-! ## Reordered bundles -/

/-- The same entries, maybe in another order. -/
def Reordered (bundle other : Bundle H) : Prop :=
  bundle.entries.entries.Perm other.entries.entries

/-- Bundles are the same up to the order of their entries if the same is found in them. -/
theorem reordered_iff : bundle.Reordered other ↔ ∀ key, bundle.find? key = other.find? key := by
  constructor
  · intro h key
    refine Option.ext fun value => ?_
    exact Dictionary.find?_eq_some_iff.trans (h.mem_iff.trans Dictionary.find?_eq_some_iff.symm)
  · intro h
    refine (List.perm_ext_iff_of_nodup (Dictionary.nodup_entries _) (Dictionary.nodup_entries _)).mpr ?_
    rintro ⟨key, value⟩
    have hfind : bundle.entries.find? key = other.entries.find? key := h key
    rw [← Dictionary.find?_eq_some_iff, ← Dictionary.find?_eq_some_iff, hfind]

/-! ## One name at a time -/

/-- What is under a name once another bundle is merged in: a value that is there keeps its kind. -/
def settle : Option (Value H) → Option (Value H) → Option (Value H)
  | held, none => held
  | none, some value => some value
  | some held, some value => if held.kind = value.kind then some value else some held

/-- The value that is there first decides the kind. -/
theorem kind_settle (held new : Option (Value H)) :
    (settle held new).map Value.kind = (held.map Value.kind).or (new.map Value.kind) := by
  cases held with
  | none => cases new <;> rfl
  | some old =>
    cases new with
    | none => rfl
    | some value => by_cases hkind : old.kind = value.kind <;> simp [settle, hkind]

/-- Of the kind, the value that comes last counts. -/
theorem settle_of_kind {held new : Option (Value H)}
    (h : ∀ value, settle held new = some value → value.kind = kind) :
    settle held new = (new.filter fun value => value.kind == kind).or held := by
  cases new with
  | none => cases held <;> rfl
  | some value =>
    cases held with
    | none => simp [settle, Option.filter_some, h value rfl]
    | some old =>
      have hold : old.kind = kind := by
        by_cases hkind : old.kind = value.kind
        · exact hkind.trans (h value (by simp [settle, hkind]))
        · exact h old (by simp [settle, hkind])
      by_cases hkind : value.kind = kind
      · simp [settle, Option.filter_some, hold, hkind]
      · simp [settle, Option.filter_some, hold, hkind, Ne.symm hkind]

theorem find?_mergeEntry (bundle : Bundle H) (key name : String) (value : Value H) :
    (bundle.mergeEntry (key, value)).find? name =
      if name = key then settle (bundle.find? key) (some value) else bundle.find? name := by
  cases hold : bundle.find? key with
  | none => simp [mergeEntry, overwrite, hold, find?_add, settle]
  | some old =>
    by_cases hkind : old.kind = value.kind
    · simp [mergeEntry, overwrite, hold, hkind, find?_insert, settle]
    · by_cases hname : name = key <;>
        simp [mergeEntry, overwrite, hold, hkind, find?_add, settle, hname]

/-- Of distinct names, each is merged once. -/
theorem find?_foldl_mergeEntry {entries : List (String × Value H)}
    (h : (entries.map (·.1)).Nodup) (bundle : Bundle H) (key : String) :
    (entries.foldl mergeEntry bundle).find? key =
      settle (bundle.find? key) (entries.lookup key) := by
  induction entries generalizing bundle with
  | nil => rfl
  | cons entry rest ih =>
    obtain ⟨name, value⟩ := entry
    rw [List.map_cons, List.nodup_cons] at h
    rw [List.foldl_cons, ih h.2, find?_mergeEntry]
    by_cases hkey : key = name
    · subst hkey
      have hrest : rest.lookup key = none :=
        List.lookup_eq_none_iff.mpr fun other hother =>
          bne_iff_ne.mpr fun heq => h.1 (List.mem_map.mpr ⟨other, hother, heq.symm⟩)
      simp [hrest, settle]
    · have hne : (key == name) = false := beq_eq_false_iff_ne.mpr hkey
      rw [if_neg hkey, List.lookup_cons, hne]

/-- A merger is made name by name. -/
theorem find?_merge (bundles : List (Bundle H)) (key : String) :
    (merge bundles).find? key = (bundles.map (·.find? key)).foldl settle none := by
  have hfold (merged : Bundle H) :
      (bundles.foldl (fun merged bundle => bundle.entries.entries.foldl mergeEntry merged)
        merged).find? key = (bundles.map (·.find? key)).foldl settle (merged.find? key) := by
    induction bundles generalizing merged with
    | nil => rfl
    | cons bundle rest ih =>
      rw [List.foldl_cons, ih, find?_foldl_mergeEntry bundle.entries.distinct, List.map_cons,
        List.foldl_cons]
      rfl
  exact hfold empty

theorem find?_merge_concat (bundles : List (Bundle H)) (bundle : Bundle H) (key : String) :
    (merge (bundles ++ [bundle])).find? key =
      settle ((merge bundles).find? key) (bundle.find? key) := by
  rw [find?_merge, find?_merge, List.map_append, List.map_singleton, List.foldl_append,
    List.foldl_cons, List.foldl_nil]

/-! ## The first kind and the last value -/

/-- The kind is that of the value in the first of the bundles that have the name. -/
theorem kind_merge (bundles : List (Bundle H)) (key : String) :
    ((merge bundles).find? key).map Value.kind =
      (bundles.findSome? (·.find? key)).map Value.kind := by
  induction bundles using List.reverseRecOn with
  | nil => rfl
  | append_singleton bundles bundle ih =>
    rw [find?_merge_concat, kind_settle, ih, List.findSome?_append, List.findSome?_singleton,
      Option.map_or]

/-- Of its kind, the value is the one in the last of the bundles. -/
theorem find?_merge_of_takes (h : (merge bundles).Takes key kind) :
    (merge bundles).find? key = bundles.reverse.findSome? (·.read? kind key) := by
  induction bundles using List.reverseRecOn with
  | nil => rfl
  | append_singleton bundles bundle ih =>
    simp only [Takes, find?_merge_concat] at h
    have hbefore : (merge bundles).Takes key kind := by
      intro held hheld
      have hkind := kind_settle (some held) (bundle.find? key)
      rw [Option.map_some, Option.some_or, Option.map_eq_some_iff] at hkind
      obtain ⟨value, hvalue, heq⟩ := hkind
      rw [← heq]
      exact h value (by rw [hheld, hvalue])
    rw [find?_merge_concat, settle_of_kind h, ih hbefore, List.reverse_append,
      List.reverse_singleton, List.findSome?_append, List.findSome?_singleton]
    rfl

/-! ## Two stages -/

/-- New names are merged in one after the other. -/
theorem entries_foldl_mergeEntry {rest : List (String × Value H)}
    (h : ((bundle.entries.entries ++ rest).map (·.1)).Nodup) :
    (rest.foldl mergeEntry bundle).entries.entries = bundle.entries.entries ++ rest := by
  induction rest generalizing bundle with
  | nil => rw [List.foldl_nil, List.append_nil]
  | cons entry rest ih =>
    obtain ⟨key, value⟩ := entry
    have hfresh : key ∉ bundle.entries.entries.map (·.1) := by
      rw [List.map_append, List.nodup_append] at h
      exact fun hmem => h.2.2 key hmem key List.mem_cons_self rfl
    have hnone : bundle.find? key = none :=
      Option.eq_none_iff_forall_ne_some.mpr fun old hold =>
        hfresh (List.mem_map.mpr ⟨_, Dictionary.find?_eq_some_iff.mp hold, rfl⟩)
    have hentries : (bundle.mergeEntry (key, value)).entries.entries =
        bundle.entries.entries ++ [(key, value)] := by
      rw [← Dictionary.place_of_notMem hfresh]
      simp [mergeEntry, overwrite, add, contains_eq, hnone, insert, Dictionary.insert]
    rw [List.foldl_cons, ih, hentries, List.append_assoc, List.singleton_append]
    rwa [hentries, List.append_assoc, List.singleton_append]

/-- The entries of a bundle, merged into nothing, are the bundle. -/
theorem refill (bundle : Bundle H) : bundle.entries.entries.foldl mergeEntry empty = bundle := by
  have hentries : (bundle.entries.entries.foldl mergeEntry empty).entries.entries =
      bundle.entries.entries := entries_foldl_mergeEntry bundle.entries.distinct
  rwa [← Dictionary.mk.injEq, ← mk.injEq] at hentries

/-- **The law of merging.** Whatever bundles are merged, the merger has the names that any of them
has. The kind under a name is the one in the first bundle that has the name, and the value is the one
in the last bundle that has a value of this kind there. In which order each bundle keeps its entries
does not matter, and the first bundles may be merged beforehand. -/
theorem merge_agrees (bundles : List (Bundle H)) :
    (∀ key,
      ((merge bundles).contains key = true ↔ ∃ bundle ∈ bundles, bundle.contains key = true) ∧
      ((merge bundles).find? key).map Value.kind =
        (bundles.findSome? (·.find? key)).map Value.kind ∧
      ∀ kind, ((merge bundles).find? key).map Value.kind = some kind →
        (merge bundles).find? key = bundles.reverse.findSome? (·.read? kind key)) ∧
    (∀ others, List.Forall₂ Reordered bundles others → (merge bundles).Reordered (merge others)) ∧
    ∀ more, merge (merge bundles :: more) = merge (bundles ++ more) := by
  refine ⟨fun key => ⟨?_, kind_merge bundles key, fun kind hkind => ?_⟩, fun others h => ?_,
    fun more => ?_⟩
  · rw [contains_eq, ← Option.isSome_map (f := Value.kind), kind_merge, Option.isSome_map,
      List.findSome?_isSome_iff]
    rfl
  · refine find?_merge_of_takes fun value hvalue => ?_
    rw [hvalue] at hkind
    exact Option.some.inj hkind
  · refine reordered_iff.mpr fun key => ?_
    have hmap : bundles.map (·.find? key) = others.map (·.find? key) := by
      rw [← List.forall₂_eq_eq_eq, List.forall₂_map_left_iff, List.forall₂_map_right_iff]
      exact h.imp fun _ _ hsame => reordered_iff.mp hsame key
    rw [find?_merge, find?_merge, hmap]
  · rw [merge, List.foldl_cons, refill, merge, merge, List.foldl_append]

/-- Bundles that disagree, again and again, about the kind of a length. -/
def quarrel : List (Bundle Unit) :=
  [(empty.insert "Length" (.int 1)).insert "Flag" (.bool true),
    empty.insert "Length" (.bool false),
    (empty.insert "Extra" (.int 7)).insert "Length" (.int 3),
    empty.insert "Length" (.bool true)]

/-- The same bundles, two of which keep their entries in another order. -/
def quarrel' : List (Bundle Unit) :=
  [(empty.insert "Flag" (.bool true)).insert "Length" (.int 1),
    empty.insert "Length" (.bool false),
    (empty.insert "Length" (.int 3)).insert "Extra" (.int 7),
    empty.insert "Length" (.bool true)]

theorem quarrel_merged :
    ((merge quarrel).find? "Length").map Value.kind = some .int ∧
      (merge quarrel).find? "Length" = some (.int 3) ∧
      List.Forall₂ Reordered quarrel quarrel' ∧ (merge quarrel).Reordered (merge quarrel') ∧
      (merge quarrel).contains "Extra" = true ∧
      merge [merge quarrel, empty.insert "Flag" (.bool false)] =
        merge (quarrel ++ [empty.insert "Flag" (.bool false)]) := by
  obtain ⟨hkeys, horder, hstages⟩ := merge_agrees quarrel
  have hkind : ((merge quarrel).find? "Length").map Value.kind = some .int := (hkeys "Length").2.1
  have hsame : List.Forall₂ Reordered quarrel quarrel' :=
    .cons (List.Perm.swap _ _ _) (.cons (List.Perm.refl _)
      (.cons (List.Perm.swap _ _ _) (.cons (List.Perm.refl _) .nil)))
  exact ⟨hkind, (hkeys "Length").2.2 .int hkind, hsame, horder _ hsame,
    (hkeys "Extra").1.mpr ⟨_, List.mem_of_getElem? (i := 2) rfl, rfl⟩, hstages _⟩

end Bundle
end PlantGrowth
