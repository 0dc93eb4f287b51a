import PlantGrowth.Bundle.Basic

/-!
# Bundles whose entries have the kinds of their names

Handlers agree on what is found under the library's names: a heading is a vector, a generation an
integer. `Bundle.Tidy` says that a bundle keeps to this agreement. It is the reason why no write of
the library is ever refused: a write is refused only if it meets a value of another kind. Of a bundle
that a host filled this may hold for some names and not for others (`Bundle.Takes`).
-/

namespace PlantGrowth

/-- The kind of the values under a name of the library. -/
def Key.kind? (key : String) : Option Kind :=
  if key = Key.sentence then some .sentence
  else if key = Key.registry then some .registry
  else if key = Key.rules then some .rules
  else if key = Key.generation ∨ key = Key.iterations then some .int
  else if key = Key.position ∨ key = Key.heading then some .vec3
  else if key = Key.rotation then some .rotation
  else if key = Key.growLoop then some .callback
  else if key = Key.branchLength ∨ key = Key.branchRadius ∨ key = Key.branchSpeed ∨
      key = Key.branchFaces ∨ key = Key.leafMedialSize ∨ key = Key.leafLateralSize ∨
      key = Key.leafGrowTime then some .float
  else none

namespace Value

variable {H : Type} {value : Value H}

theorem exists_int (h : value.kind = .int) : ∃ n, value = .int n := by
  cases value with
  | int n => exact ⟨n, rfl⟩
  | _ => exact absurd h (by simp [kind])

theorem exists_vec3 (h : value.kind = .vec3) : ∃ v, value = .vec3 v := by
  cases value with
  | vec3 v => exact ⟨v, rfl⟩
  | _ => exact absurd h (by simp [kind])

theorem exists_sentence (h : value.kind = .sentence) : ∃ s, value = .sentence s := by
  cases value with
  | sentence s => exact ⟨s, rfl⟩
  | _ => exact absurd h (by simp [kind])

end Value

namespace Bundle

variable {H : Type} {bundle : Bundle H} {key other : String} {value : Value H}

/-- Every value under a name of the library is of that name's kind. -/
def Tidy (bundle : Bundle H) : Prop :=
  ∀ key value, bundle.find? key = some value → ∀ kind, Key.kind? key = some kind →
    value.kind = kind

theorem tidy_empty : (empty : Bundle H).Tidy := by
  intro key value h
  have hnone : (empty : Bundle H).find? key = none := Dictionary.find?_empty key
  rw [hnone] at h
  exact absurd h (by simp)

theorem find?_insert (bundle : Bundle H) (key other : String) (value : Value H) :
    (bundle.insert key value).find? other = if other = key then some value else bundle.find? other :=
  Dictionary.find?_insert bundle.entries key other value

theorem contains_eq (bundle : Bundle H) (key : String) :
    bundle.contains key = (bundle.find? key).isSome := rfl

/-- A write of this kind is not refused at the name: nothing is there, or a value of the kind. -/
def Takes (bundle : Bundle H) (key : String) (kind : Kind) : Prop :=
  ∀ value, bundle.find? key = some value → value.kind = kind

theorem assign_of_takes (h : bundle.Takes key value.kind) :
    bundle.assign key value = (true, bundle.insert key value) := by
  cases hold : bundle.find? key with
  | none => simp [assign, add, contains_eq, hold]
  | some old => simp [assign, overwrite, contains_eq, hold, h old hold]

theorem assign_of_not_takes (h : ¬ bundle.Takes key value.kind) :
    bundle.assign key value = (false, bundle) := by
  obtain ⟨old, hold, hkind⟩ : ∃ old, bundle.find? key = some old ∧ old.kind ≠ value.kind := by
    simpa [Takes] using h
  simp [assign, overwrite, contains_eq, hold, hkind]

theorem write_of_takes (h : bundle.Takes key value.kind) :
    bundle.write key value = bundle.insert key value := by
  rw [write, assign_of_takes h]

theorem write_of_not_takes (h : ¬ bundle.Takes key value.kind) : bundle.write key value = bundle := by
  rw [write, assign_of_not_takes h]

/-- A write is seen under its own name only, whether it is refused or not. -/
theorem find?_write_of_ne (h : other ≠ key) (bundle : Bundle H) (value : Value H) :
    (bundle.write key value).find? other = bundle.find? other := by
  by_cases htakes : bundle.Takes key value.kind
  · rw [write_of_takes htakes, find?_insert, if_neg h]
  · rw [write_of_not_takes htakes]

theorem find?_write_self (h : bundle.Takes key value.kind) :
    (bundle.write key value).find? key = some value := by
  rw [write_of_takes h, find?_insert, if_pos rfl]

theorem takes_write_of_ne (h : other ≠ key) (bundle : Bundle H) (value : Value H) {kind : Kind} :
    (bundle.write key value).Takes other kind ↔ bundle.Takes other kind := by
  rw [Takes, Takes, find?_write_of_ne h]

/-- A write does not change whether further ones of its kind are refused. -/
theorem takes_write_self (bundle : Bundle H) (key : String) (value : Value H) :
    (bundle.write key value).Takes key value.kind ↔ bundle.Takes key value.kind := by
  by_cases h : bundle.Takes key value.kind
  · refine iff_of_true (fun found hfound => ?_) h
    rw [find?_write_self h] at hfound
    cases hfound
    rfl
  · rw [write_of_not_takes h]

/-- **A write of the kind that the name is for is never refused.** -/
theorem Tidy.takes (tidy : bundle.Tidy) {kind : Kind} (hkind : Key.kind? key = some kind) :
    bundle.Takes key kind :=
  fun old hold => tidy key old hold kind hkind

theorem write_of_tidy (tidy : bundle.Tidy) (key : String) (value : Value H)
    (hkind : Key.kind? key = some value.kind) :
    bundle.write key value = bundle.insert key value :=
  write_of_takes (tidy.takes hkind)

/-- What is found after a write of the kind that the name is for. -/
theorem find?_write (tidy : bundle.Tidy) (key : String) (value : Value H)
    (hkind : Key.kind? key = some value.kind) (other : String) :
    (bundle.write key value).find? other =
      if other = key then some value else bundle.find? other := by
  rw [write_of_tidy tidy key value hkind, find?_insert]

theorem Tidy.insert (tidy : bundle.Tidy) (key : String) (value : Value H)
    (hkind : Key.kind? key = some value.kind) :
    (bundle.insert key value).Tidy := by
  intro other found h kind hother
  rw [find?_insert] at h
  by_cases heq : other = key
  · rw [if_pos heq] at h
    rw [heq] at hother
    rw [← Option.some.inj h]
    exact Option.some.inj (hkind.symm.trans hother)
  · rw [if_neg heq] at h
    exact tidy other found h kind hother

theorem Tidy.write (tidy : bundle.Tidy) (key : String) (value : Value H)
    (hkind : Key.kind? key = some value.kind) :
    (bundle.write key value).Tidy := by
  rw [write_of_tidy tidy key value hkind]
  exact tidy.insert key value hkind

/-- What is found after an addition: what was there before, if anything. -/
theorem find?_add (bundle : Bundle H) (key other : String) (value : Value H) :
    (bundle.add key value).2.find? other =
      if other = key ∧ bundle.find? key = none then some value else bundle.find? other := by
  cases hold : bundle.find? key with
  | none => simp [add, contains_eq, hold, find?_insert]
  | some old => simp [add, contains_eq, hold]

theorem Tidy.add (tidy : bundle.Tidy) (key : String) (value : Value H)
    (hkind : Key.kind? key = some value.kind) :
    (bundle.add key value).2.Tidy := by
  cases hold : bundle.find? key with
  | none =>
    have hadd : (bundle.add key value).2 = bundle.insert key value := by
      simp [Bundle.add, contains_eq, hold]
    rw [hadd]
    exact tidy.insert key value hkind
  | some old =>
    have hadd : (bundle.add key value).2 = bundle := by simp [Bundle.add, contains_eq, hold]
    rw [hadd]
    exact tidy

/-! ## Typed reads -/

theorem int?_write_of_ne (h : other ≠ key) (bundle : Bundle H) (value : Value H) :
    (bundle.write key value).int? other = bundle.int? other := by
  rw [int?, int?, find?_write_of_ne h]

theorem int?_of_find? {n : Int} (h : bundle.find? key = some (.int n)) :
    bundle.int? key = some n := by
  rw [int?, h]

theorem vec3?_of_find? {v : Vec3} (h : bundle.find? key = some (.vec3 v)) :
    bundle.vec3? key = some v := by
  rw [vec3?, h]

/-- The core of a bundle, once all of its entries are there. -/
theorem core_of_find? {s : Sentence} {registry : Registry H} {rules : RuleSet}
    (hs : bundle.find? Key.sentence = some (.sentence s))
    (hregistry : bundle.find? Key.registry = some (.registry registry))
    (hrules : bundle.find? Key.rules = some (.rules rules)) :
    bundle.core = .ok { sentence := s, registry, rules } := by
  simp only [core, sentence?, registry?, rules?, hs, hregistry, hrules]

end Bundle
end PlantGrowth
