import PlantGrowth.Proofs.Widening
import PlantGrowth.Json.Basic

/-!
# What may be left out of an object

An object is written with all of its fields, and read with some of them left out. A record lists
the fields that an object is written with and says of each what may stand there and whether it may
be left out. A field that holds an object again has a record of its own.

* `Alike`: the same to the bit, or the same as values are compared, where zero has no sign and what
  is not a number does not equal itself.
* `Pares`: a list of fields comes of a record by leaving fields out, there and in the objects
  within.
* `Pares.found`: a field that is asked for is either there or was left out with good reason.
* `Found.required`, `Found.usual`, `Found.number`, `Found.nested`: what reading such a field gives.
-/

namespace PlantGrowth

/-! ## Equal values -/

/-- The same value: to the bit if `strict`, and otherwise as the program compares values. -/
def Alike {α : Type} [BEq α] (strict : Bool) (a b : α) : Prop :=
  if strict then a = b else (a == b) = true

section Alike

variable {α : Type} [BEq α] {strict : Bool} {a b : α}

theorem alike_true : Alike true a b ↔ a = b := Iff.rfl

theorem alike_false : Alike false a b ↔ (a == b) = true := by
  simp [Alike]

/-- A value that equals itself is the same as itself. -/
theorem alike_self (h : (a == a) = true) : Alike strict a a := by
  cases strict with
  | true => rfl
  | false => exact alike_false.mpr h

theorem alike_of_eq [ReflBEq α] (h : a = b) : Alike strict a b :=
  h ▸ alike_self (beq_self_eq_true a)

/-- There is no difference for values that are the same only to the bit. -/
theorem alike_iff_eq [LawfulBEq α] : Alike strict a b ↔ a = b := by
  cases strict with
  | true => exact alike_true
  | false => exact alike_false.trans beq_iff_eq

theorem alike_of_isFinite {x : Float} (h : x.isFinite = true) : Alike strict x x := by
  refine alike_self (Float.beq_self_iff.mpr ?_)
  rintro rfl
  exact absurd h (by decide)

theorem alike_of_isFinite32 {x : Float32} (h : x.isFinite = true) : Alike strict x x := by
  refine alike_self (Float32.beq_self_iff.mpr ?_)
  rintro rfl
  exact absurd h (by decide)

end Alike

/-! ## Fields -/

/-- A field that an object is written with. -/
structure Field where
  key : String
  /-- What is written. -/
  content : Json
  /-- May this stand in the place of what is written? -/
  stands : Json → Prop
  /-- May the field be left out? -/
  spare : Prop

/-- The fields as they are written. -/
def written (record : List Field) : List (String × Json) :=
  record.map fun field => (field.key, field.content)

/-- The second list is left of the first one: each field is kept, maybe with fields left out of what
stands there, or it is left out itself if it may be. -/
inductive Pares : List Field → List (String × Json) → Prop
  | nil : Pares [] []
  | keep {field : Field} {record : List Field} {part : List (String × Json)} {content : Json}
      (hstands : field.stands content) (hrest : Pares record part) :
      Pares (field :: record) ((field.key, content) :: part)
  | leave {field : Field} {record : List Field} {part : List (String × Json)}
      (hspare : field.spare) (hrest : Pares record part) : Pares (field :: record) part

namespace Field

/-- A field that must be there, and be as it is. -/
def required (key : String) (content : Json) : Field where
  key := key
  content := content
  stands := (· = content)
  spare := False

/-- A field that may be left out if its value is the usual one. -/
def usual {α : Type} [BEq α] (strict : Bool) (key : String) (content : Json) (default value : α) :
    Field where
  key := key
  content := content
  stands := (· = content)
  spare := Alike strict default value

/-- A field for a number. -/
def number (strict : Bool) (key : String) (default value : Float) : Field :=
  usual strict key (.ofFloat value) default value

/-- A field that holds an object, out of which fields may be left as well. -/
def nested {α : Type} [BEq α] (strict : Bool) (key : String) (record : List Field)
    (default value : α) : Field where
  key := key
  content := .obj (written record)
  stands := fun content => ∃ part, content = .obj part ∧ Pares record part
  spare := Alike strict default value

/-- Nothing has to be left out. -/
def Whole (field : Field) : Prop := field.stands field.content

/-- What is found under a field's name: something that may stand there, or nothing if the field may
be left out. -/
def Found (part : List (String × Json)) (field : Field) : Prop :=
  (∃ content, part.lookup field.key = some content ∧ field.stands content) ∨
    (part.lookup field.key = none ∧ field.spare)

end Field

namespace Pares

variable {record : List Field} {part : List (String × Json)}

/-- An object from which nothing is left out. -/
theorem whole (h : ∀ field ∈ record, field.Whole) : Pares record (written record) := by
  induction record with
  | nil => exact .nil
  | cons field record ih =>
    rw [List.forall_mem_cons] at h
    exact .keep h.1 (ih h.2)

/-- No names are added. -/
theorem lookup_eq_none (h : Pares record part) {key : String}
    (hkey : key ∉ record.map Field.key) : part.lookup key = none := by
  induction h with
  | nil => rfl
  | @keep field record part content hstands hrest ih =>
    rw [List.map_cons, List.mem_cons, not_or] at hkey
    rw [List.lookup_cons, beq_eq_false_iff_ne.mpr hkey.1]
    exact ih hkey.2
  | leave hspare hrest ih =>
    rw [List.map_cons, List.mem_cons, not_or] at hkey
    exact ih hkey.2

/-- **A field that is asked for is either there or was left out with good reason.** -/
theorem found (h : Pares record part) (hkeys : (record.map Field.key).Nodup) :
    ∀ field ∈ record, field.Found part := by
  induction h with
  | nil => exact fun _ hmem => absurd hmem List.not_mem_nil
  | @keep field record part content hstands hrest ih =>
    rw [List.map_cons, List.nodup_cons] at hkeys
    refine List.forall_mem_cons.mpr ⟨Or.inl ⟨content, List.lookup_cons_self, hstands⟩, ?_⟩
    intro other hother
    have hne : other.key ≠ field.key := fun heq => hkeys.1 (heq ▸ List.mem_map_of_mem hother)
    rw [Field.Found, List.lookup_cons, beq_eq_false_iff_ne.mpr hne]
    exact ih hkeys.2 other hother
  | leave hspare hrest ih =>
    rw [List.map_cons, List.nodup_cons] at hkeys
    exact List.forall_mem_cons.mpr
      ⟨Or.inr ⟨hrest.lookup_eq_none hkeys.1, hspare⟩, ih hkeys.2⟩

end Pares

/-! ## Reading -/

theorem Json.toFloat?_ofFloat {x : Float} (h : x.isFinite = true) :
    (Json.ofFloat x).toFloat? = some x := by
  rw [ofFloat, if_pos h, toFloat?]

/-- A reader returns the value, or one that is the same. -/
def Reads {α : Type} [BEq α] (strict : Bool) (result : Option α) (value : α) : Prop :=
  ∃ read, result = some read ∧ Alike strict read value

/-- One field after the other. -/
theorem Reads.bind {α β : Type} [BEq α] [BEq β] {strict : Bool} {result : Option α} {value : α}
    {next : α → Option β} {whole : β} (h : Reads strict result value)
    (hnext : ∀ read, Alike strict read value → Reads strict (next read) whole) :
    Reads strict (result >>= next) whole := by
  obtain ⟨read, rfl, halike⟩ := h
  exact hnext read halike

theorem Reads.map {α β : Type} [BEq α] [BEq β] {strict : Bool} {result : Option α} {value : α}
    {make : α → β} (h : Reads strict result value)
    (hmake : ∀ read, Alike strict read value → Alike strict (make read) (make value)) :
    Reads strict (result.map make) (make value) := by
  obtain ⟨read, rfl, halike⟩ := h
  exact ⟨make read, rfl, hmake read halike⟩

theorem Reads.pure {α : Type} [BEq α] {strict : Bool} {read value : α}
    (h : Alike strict read value) : Reads strict (Pure.pure read) value :=
  ⟨read, rfl, h⟩

namespace Field

variable {α : Type} [BEq α] {strict : Bool} {key : String} {content : Json}
  {part : List (String × Json)} {record : List Field} {decode : Json → Option α} {default value : α}

@[simp] theorem whole_required : (required key content).Whole := rfl

@[simp] theorem whole_usual : (usual strict key content default value).Whole := rfl

@[simp] theorem whole_number {x y : Float} : (number strict key x y).Whole := rfl

theorem whole_nested (h : ∀ field ∈ record, field.Whole) :
    (nested strict key record default value).Whole :=
  ⟨written record, rfl, Pares.whole h⟩

namespace Found

theorem lookup_required (h : (Field.required key content).Found part) :
    part.lookup key = some content := by
  obtain ⟨_, hlookup, rfl⟩ | ⟨-, hspare⟩ := h
  · exact hlookup
  · exact absurd hspare id

/-- A field that must be there is read exactly. -/
theorem fieldOf {β : Type} {decode : Json → Option β} {value : β}
    (h : (Field.required key content).Found part) (hdecode : decode content = some value) :
    (Json.obj part).fieldOf key decode = some value := by
  rw [Json.fieldOf, Json.field?, h.lookup_required, Option.bind_some, hdecode]

theorem required (h : (Field.required key content).Found part)
    (hdecode : decode content = some value) (hself : Alike strict value value) :
    Reads strict ((Json.obj part).fieldOf key decode) value :=
  ⟨value, h.fieldOf hdecode, hself⟩

/-- What is read of a field that may be left out. -/
theorem fieldD {field : Field} (h : field.Found part)
    (hread : ∀ content, field.stands content → Reads strict (decode content) value)
    (hspare : field.spare → Alike strict default value) :
    Reads strict ((Json.obj part).fieldD field.key decode default) value := by
  obtain ⟨content, hlookup, hstands⟩ | ⟨hlookup, hleft⟩ := h
  · rw [Json.fieldD, Json.field?, hlookup]
    exact hread content hstands
  · rw [Json.fieldD, Json.field?, hlookup]
    exact ⟨default, rfl, hspare hleft⟩

theorem usual (h : (Field.usual strict key content default value).Found part)
    (hdecode : decode content = some value) (hself : Alike strict value value) :
    Reads strict ((Json.obj part).fieldD key decode default) value :=
  h.fieldD (fun _ heq => ⟨value, heq ▸ hdecode, hself⟩) id

theorem number {default value : Float} (h : (Field.number strict key default value).Found part)
    (hfinite : value.isFinite = true) :
    Reads strict ((Json.obj part).fieldD key Json.toFloat? default) value :=
  usual h (Json.toFloat?_ofFloat hfinite) (alike_of_isFinite hfinite)

theorem nested (h : (Field.nested strict key record default value).Found part)
    (hread : ∀ part, Pares record part → Reads strict (decode (.obj part)) value) :
    Reads strict ((Json.obj part).fieldD key decode default) value := by
  refine h.fieldD ?_ id
  rintro _ ⟨part, rfl, hpart⟩
  exact hread part hpart

end Found

end Field

end PlantGrowth
