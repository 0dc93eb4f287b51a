/-!
# Dictionaries

Values under names, in the order in which the names were first used. No name is used twice, and the
type says so; hence how a dictionary is walked never matters for what is found in it, and all that
`find?` says about an insertion or an erasure is said by the two lemmas below.
-/

namespace PlantGrowth

/-- Values under distinct names. -/
structure Dictionary (β : Type) where
  entries : List (String × β)
  distinct : (entries.map (·.1)).Nodup

namespace Dictionary

variable {β : Type}

/-- The dictionary without names. -/
def empty : Dictionary β := ⟨[], List.nodup_nil⟩

instance : Inhabited (Dictionary β) := ⟨empty⟩

/-- The value under a name. -/
def find? (d : Dictionary β) (key : String) : Option β := d.entries.lookup key

/-- Is the name used? -/
def contains (d : Dictionary β) (key : String) : Bool := (d.find? key).isSome

/-- The number of names. -/
def size (d : Dictionary β) : Nat := d.entries.length

/-- Is no name used? -/
def isEmpty (d : Dictionary β) : Bool := d.entries.isEmpty

/-- The names. -/
def keys (d : Dictionary β) : List String := d.entries.map (·.1)

/-- Writes over the value of a name, or adds the name at the end. -/
def place (key : String) (value : β) : List (String × β) → List (String × β)
  | [] => [(key, value)]
  | (other, old) :: rest =>
    if other = key then (other, value) :: rest else (other, old) :: place key value rest

theorem mem_keys_place (key name : String) (value : β) (entries : List (String × β)) :
    name ∈ (place key value entries).map (·.1) ↔ name = key ∨ name ∈ entries.map (·.1) := by
  induction entries with
  | nil => simp [place]
  | cons entry rest ih =>
    obtain ⟨other, old⟩ := entry
    by_cases h : other = key
    · subst h
      simp [place]
    · simp only [place, h, if_false, List.map_cons, List.mem_cons, ih]
      constructor
      · rintro (rfl | rfl | h)
        · exact Or.inr (Or.inl rfl)
        · exact Or.inl rfl
        · exact Or.inr (Or.inr h)
      · rintro (rfl | rfl | h)
        · exact Or.inr (Or.inl rfl)
        · exact Or.inl rfl
        · exact Or.inr (Or.inr h)

theorem nodup_keys_place (key : String) (value : β) {entries : List (String × β)}
    (h : (entries.map (·.1)).Nodup) : ((place key value entries).map (·.1)).Nodup := by
  induction entries with
  | nil => simp [place]
  | cons entry rest ih =>
    obtain ⟨other, old⟩ := entry
    rw [List.map_cons, List.nodup_cons] at h
    by_cases hkey : other = key
    · simpa [place, hkey] using h
    · simp only [place, hkey, if_false, List.map_cons, List.nodup_cons]
      refine ⟨fun hmem => ?_, ih h.2⟩
      rcases (mem_keys_place key other value rest).mp hmem with heq | hmem
      · exact hkey heq
      · exact h.1 hmem

/-- Sets the value of a name, used before or not. -/
def insert (d : Dictionary β) (key : String) (value : β) : Dictionary β :=
  ⟨place key value d.entries, nodup_keys_place key value d.distinct⟩

/-- Takes a name out. -/
def erase (d : Dictionary β) (key : String) : Dictionary β :=
  ⟨d.entries.filter fun entry => entry.1 != key,
    d.distinct.sublist (List.filter_sublist.map _)⟩

/-- Does some value have a property? -/
def anyValue (d : Dictionary β) (p : β → Bool) : Bool := d.entries.any fun entry => p entry.2

@[simp] theorem find?_empty (key : String) : (empty : Dictionary β).find? key = none := rfl

theorem lookup_place (key name : String) (value : β) (entries : List (String × β)) :
    (place key value entries).lookup name =
      if name = key then some value else entries.lookup name := by
  induction entries with
  | nil => grind [place]
  | cons entry rest ih => grind [place]

/-- A look-up after an insertion sees the new value under its name and the old ones elsewhere. -/
@[simp] theorem find?_insert (d : Dictionary β) (key name : String) (value : β) :
    (d.insert key value).find? name = if name = key then some value else d.find? name :=
  lookup_place key name value d.entries

/-- A look-up after an erasure sees nothing under the name and the old values elsewhere. -/
@[simp] theorem find?_erase (d : Dictionary β) (key name : String) :
    (d.erase key).find? name = if name = key then none else d.find? name := by
  simp only [erase, find?]
  generalize d.entries = entries
  induction entries with
  | nil => simp
  | cons entry rest ih => grind

end Dictionary
end PlantGrowth
