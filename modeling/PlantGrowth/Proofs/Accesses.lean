import PlantGrowth.Proofs.Bundle

/-!
# Any accesses to a bundle, one after the other

A bundle is written in three ways and read by kind. Whoever does not know who wrote before can still
rely on two things: what is read under a name is what was written there last, and its kind is the one
of the first write.

* `Kind.Payload`, `Value.pack`, `Value.unpack?`: what a value of a kind carries. All typed reads are
  instances of one (`Bundle.get?_eq`).
* `Bundle.attempt_cases`: a write of any of the three ways, accepted or refused, in one statement.
* `Bundle.find?_afterAll`, `Bundle.kind_afterAll`: what one access does to a name, over all accesses.
* `Bundle.accesses_typed`: the rules, after any accesses to a bundle that was empty.
-/

namespace PlantGrowth

variable {H : Type}

/-! ## Typed values -/

/-- What a value of a kind carries. -/
@[reducible] def Kind.Payload (H : Type) : Kind → Type
  | .int => Int
  | .float => Float
  | .bool => Bool
  | .vec2 => Float × Float
  | .vec3 => Vec3
  | .vec4 => Float × Float × Float × Float
  | .rotation => Rotation
  | .curve => Curve
  | .color => Color
  | .sentence => Sentence
  | .rules => RuleSet
  | .registry => Registry H
  | .callback => Callback H

namespace Value

/-- The value that carries something of a kind. -/
def pack : (kind : Kind) → kind.Payload H → Value H
  | .int, n => .int n
  | .float, x => .float x
  | .bool, b => .bool b
  | .vec2, v => .vec2 v.1 v.2
  | .vec3, v => .vec3 v
  | .vec4, v => .vec4 v.1 v.2.1 v.2.2.1 v.2.2.2
  | .rotation, q => .rotation q
  | .curve, c => .curve c
  | .color, c => .color c
  | .sentence, s => .sentence s
  | .rules, r => .rules r
  | .registry, r => .registry r
  | .callback, c => .callback c

/-- What a value carries, if it is of the kind that is asked for. -/
def unpack? : (kind : Kind) → Value H → Option (kind.Payload H)
  | .int, .int n => some n
  | .float, .float x => some x
  | .bool, .bool b => some b
  | .vec2, .vec2 x y => some (x, y)
  | .vec3, .vec3 v => some v
  | .vec4, .vec4 x y z w => some (x, y, z, w)
  | .rotation, .rotation q => some q
  | .curve, .curve c => some c
  | .color, .color c => some c
  | .sentence, .sentence s => some s
  | .rules, .rules r => some r
  | .registry, .registry r => some r
  | .callback, .callback c => some c
  | _, _ => none

@[simp] theorem kind_pack (kind : Kind) (x : kind.Payload H) : (pack kind x).kind = kind := by
  cases kind <;> rfl

@[simp] theorem unpack?_pack (kind : Kind) (x : kind.Payload H) :
    (pack kind x).unpack? kind = some x := by
  cases kind <;> rfl

/-- A value carries something of its kind. -/
theorem exists_pack {kind : Kind} {value : Value H} (h : value.kind = kind) :
    ∃ x, value = pack kind x := by
  subst h
  cases value with
  | vec2 x y => exact ⟨(x, y), rfl⟩
  | vec4 x y z w => exact ⟨(x, y, z, w), rfl⟩
  | _ x => exact ⟨x, rfl⟩

theorem unpack?_eq_none {kind : Kind} {value : Value H} (h : value.kind ≠ kind) :
    value.unpack? kind = none := by
  cases kind <;> cases value <;> first | rfl | exact absurd rfl h

/-- Nothing but the value itself is unpacked to what it carries. -/
theorem unpack?_eq_some_iff {kind : Kind} {value : Value H} {x : kind.Payload H} :
    value.unpack? kind = some x ↔ value = pack kind x := by
  constructor
  · intro h
    by_cases hkind : value.kind = kind
    · obtain ⟨y, rfl⟩ := exists_pack hkind
      rw [unpack?_pack] at h
      rw [Option.some.inj h]
    · rw [unpack?_eq_none hkind] at h
      cases h
  · rintro rfl
    exact unpack?_pack kind x

end Value

namespace Bundle

/-- What is under a name, if it is of the kind that is asked for. The library has reads of its own for
the kinds that its handlers pass on to each other. -/
def get? (bundle : Bundle H) : (kind : Kind) → String → Option (kind.Payload H)
  | .int => bundle.int?
  | .float => bundle.float?
  | .vec3 => bundle.vec3?
  | .rotation => bundle.rotation?
  | .sentence => bundle.sentence?
  | .rules => bundle.rules?
  | .registry => bundle.registry?
  | .callback => bundle.callback?
  | .bool => fun key => (bundle.read? .bool key).bind (·.unpack? .bool)
  | .vec2 => fun key => (bundle.read? .vec2 key).bind (·.unpack? .vec2)
  | .vec4 => fun key => (bundle.read? .vec4 key).bind (·.unpack? .vec4)
  | .curve => fun key => (bundle.read? .curve key).bind (·.unpack? .curve)
  | .color => fun key => (bundle.read? .color key).bind (·.unpack? .color)

/-- All typed reads are one. -/
theorem get?_eq (bundle : Bundle H) (kind : Kind) (key : String) :
    bundle.get? kind key = (bundle.find? key).bind (·.unpack? kind) := by
  cases kind <;>
    simp only [get?, read?, int?, float?, vec3?, rotation?, sentence?, rules?, registry?,
      callback?] <;>
    cases bundle.find? key with
    | none => rfl
    | some value => cases value <;> rfl

/-- A read by kind finds values of the kind only, and sees what they carry. -/
theorem get?_eq_some_iff {bundle : Bundle H} {kind : Kind} {key : String} {x : kind.Payload H} :
    bundle.get? kind key = some x ↔ bundle.find? key = some (.pack kind x) := by
  simp only [get?_eq, Option.bind_eq_some_iff, Value.unpack?_eq_some_iff, exists_eq_right]

/-! ## One write -/

/-- The three ways to write. -/
inductive Discipline where
  | add
  | overwrite
  | assign
  deriving DecidableEq

/-- A write, and whether it was accepted. -/
def attempt (discipline : Discipline) (bundle : Bundle H) (key : String) (value : Value H) :
    Bool × Bundle H :=
  match discipline with
  | .add => bundle.add key value
  | .overwrite => bundle.overwrite key value
  | .assign => bundle.assign key value

/-- Does a way to write accept a value of this kind where one of another kind, or none, is held? -/
def Discipline.Accepts (discipline : Discipline) (held : Option Kind) (kind : Kind) : Prop :=
  match discipline with
  | .add => held = none
  | .overwrite => held = some kind
  | .assign => held = none ∨ held = some kind

/-- The kind of what is under a name. -/
def kindAt (bundle : Bundle H) (key : String) : Option Kind := (bundle.find? key).map Value.kind

variable {bundle : Bundle H} {key : String} {kind : Kind} {value : Value H}

/-- **All that a write does.** Whether it is accepted depends on the kinds alone. -/
theorem attempt_cases (discipline : Discipline) (bundle : Bundle H) (key : String)
    (value : Value H) :
    (discipline.Accepts (bundle.kindAt key) value.kind ∧
      bundle.attempt discipline key value = (true, bundle.insert key value)) ∨
    (¬ discipline.Accepts (bundle.kindAt key) value.kind ∧
      bundle.attempt discipline key value = (false, bundle)) := by
  cases hold : bundle.find? key with
  | none =>
    cases discipline <;>
      simp [Discipline.Accepts, attempt, add, overwrite, assign, contains_eq, kindAt, hold]
  | some old =>
    by_cases hkind : old.kind = value.kind <;> cases discipline <;>
      simp [Discipline.Accepts, attempt, add, overwrite, assign, contains_eq, kindAt, hold, hkind]

/-! ## Accesses -/

/-- An access to a bundle, with its arguments. -/
inductive Access (H : Type) where
  | write (discipline : Discipline) (key : String) (kind : Kind) (x : kind.Payload H)
  | get (kind : Kind) (key : String)
  | contains (key : String)

/-- The bundle after an access. -/
def after (bundle : Bundle H) : Access H → Bundle H
  | .write discipline key kind x => (bundle.attempt discipline key (.pack kind x)).2
  | .get .. => bundle
  | .contains _ => bundle

/-- What an access writes, if it is a write and is accepted. -/
def written (bundle : Bundle H) : Access H → List (String × Value H)
  | .write discipline key kind x =>
    if (bundle.attempt discipline key (.pack kind x)).1 then [(key, .pack kind x)] else []
  | .get .. => []
  | .contains _ => []

/-- The bundle after accesses, one after the other. -/
def afterAll (bundle : Bundle H) (accesses : List (Access H)) : Bundle H :=
  accesses.foldl after bundle

/-- All that is written, in the order of the writes. -/
def writtenAll (bundle : Bundle H) : List (Access H) → List (String × Value H)
  | [] => []
  | access :: rest => bundle.written access ++ (bundle.after access).writtenAll rest

/-- What was written last under a name. -/
def last (log : List (String × Value H)) (key : String) : Option (Value H) :=
  log.reverse.lookup key

theorem Discipline.Accepts.held {discipline : Discipline} {held : Option Kind}
    (h : discipline.Accepts held kind) : held = none ∨ held = some kind := by
  cases discipline with
  | add => exact Or.inl h
  | overwrite => exact Or.inr h
  | assign => exact h

/-- All that an access does: it writes a value, over one of the same kind or where none was, or it
leaves the bundle as it is. -/
theorem after_cases (bundle : Bundle H) (access : Access H) :
    (∃ key value, (bundle.kindAt key = none ∨ bundle.kindAt key = some value.kind) ∧
      bundle.written access = [(key, value)] ∧ bundle.after access = bundle.insert key value) ∨
    (bundle.written access = [] ∧ bundle.after access = bundle) := by
  cases access with
  | get => exact Or.inr ⟨rfl, rfl⟩
  | contains => exact Or.inr ⟨rfl, rfl⟩
  | write discipline key kind x =>
    rcases attempt_cases discipline bundle key (.pack kind x) with
      ⟨haccepts, heq⟩ | ⟨-, heq⟩
    · exact Or.inl ⟨key, .pack kind x, haccepts.held, by rw [written, heq, if_pos rfl],
        by rw [after, heq]⟩
    · exact Or.inr ⟨by rw [written, heq, if_neg Bool.false_ne_true], by rw [after, heq]⟩

theorem last_append (first second : List (String × Value H)) (key : String) :
    last (first ++ second) key = (last second key).or (last first key) := by
  rw [last, List.reverse_append, List.lookup_append, last, last]

/-- After an access, what it wrote is found, and otherwise what was there before. -/
theorem find?_after (bundle : Bundle H) (access : Access H) (key : String) :
    (bundle.after access).find? key =
      (last (bundle.written access) key).or (bundle.find? key) := by
  obtain ⟨name, value, -, hwritten, hafter⟩ | ⟨hwritten, hafter⟩ := bundle.after_cases access
  · rw [hwritten, hafter, find?_insert, last, List.reverse_singleton, List.lookup_cons,
      List.lookup_nil]
    by_cases hkey : key = name
    · simp [hkey]
    · have hne : (key == name) = false := beq_eq_false_iff_ne.mpr hkey
      simp [hkey, hne]
  · rw [hwritten, hafter]
    rfl

/-- A kind stays, whatever the access. -/
theorem kindAt_after (access : Access H) (h : bundle.kindAt key = some kind) :
    (bundle.after access).kindAt key = some kind := by
  obtain ⟨name, value, hheld, -, hafter⟩ | ⟨-, hafter⟩ := bundle.after_cases access
  · rw [hafter, kindAt, find?_insert]
    by_cases hkey : key = name
    · subst hkey
      rw [h] at hheld
      simpa [eq_comm] using hheld
    · rw [if_neg hkey]
      exact h
  · rwa [hafter]

/-! ## All accesses -/

/-- **What is found is what was written last**, and otherwise what was there at first. -/
theorem find?_afterAll (accesses : List (Access H)) (bundle : Bundle H) (key : String) :
    (bundle.afterAll accesses).find? key =
      (last (bundle.writtenAll accesses) key).or (bundle.find? key) := by
  induction accesses generalizing bundle with
  | nil => rfl
  | cons access rest ih =>
    rw [afterAll, List.foldl_cons, ← afterAll, ih, find?_after, writtenAll, last_append,
      Option.or_assoc]

/-- **A kind stays for good.** -/
theorem kindAt_afterAll (accesses : List (Access H)) (h : bundle.kindAt key = some kind) :
    (bundle.afterAll accesses).kindAt key = some kind := by
  induction accesses generalizing bundle with
  | nil => exact h
  | cons access rest ih => exact ih (kindAt_after access h)

/-- **The rules of a bundle.** Whatever was put into a bundle that was empty, in any way and refused
or not, and whatever was asked in between: what is there under a name is what was written there last,
a read by kind returns it if it is of the kind and nothing otherwise, each way to write accepts what it
should and changes no other name, a write that is refused changes nothing, and no kind ever changes. -/
theorem accesses_typed (done : List (Access H)) :
    let bundle := (empty : Bundle H).afterAll done
    let log := (empty : Bundle H).writtenAll done
    (∀ key, bundle.contains key = (last log key).isSome) ∧
    (∀ key kind, (∀ x, bundle.get? kind key = some x ↔ last log key = some (.pack kind x)) ∧
      bundle.read? kind key = (last log key).filter (·.kind == kind)) ∧
    (∀ discipline key kind (x : kind.Payload H),
      let result := bundle.attempt discipline key (.pack kind x)
      (result.1 = true ↔ discipline.Accepts ((last log key).map Value.kind) kind) ∧
      (result.1 = true → ∀ other, result.2.find? other =
        if other = key then some (.pack kind x) else bundle.find? other) ∧
      (result.1 = false → result.2 = bundle)) ∧
    ∀ key kind, bundle.kindAt key = some kind →
      ∀ more, (bundle.afterAll more).kindAt key = some kind := by
  intro bundle log
  have hlast (key : String) : bundle.find? key = last log key := by
    rw [find?_afterAll, show (empty : Bundle H).find? key = none from rfl, Option.or_none]
  refine ⟨fun key => ?_, fun key kind => ⟨fun x => ?_, ?_⟩, fun discipline key kind x => ?_,
    fun key kind h more => kindAt_afterAll more h⟩
  · rw [contains_eq, hlast]
  · rw [get?_eq_some_iff, hlast]
  · rw [read?, hlast]
  · rw [← hlast, ← kindAt]
    obtain ⟨haccepts, heq⟩ | ⟨hrefuses, heq⟩ :=
      attempt_cases discipline bundle key (.pack kind x)
    · rw [Value.kind_pack] at haccepts
      rw [heq]
      exact ⟨iff_of_true rfl haccepts, fun _ other => find?_insert .., nofun⟩
    · rw [Value.kind_pack] at hrefuses
      rw [heq]
      exact ⟨iff_of_false Bool.false_ne_true hrefuses, nofun, fun _ => rfl⟩

/-- A generation that is set before it is there, added twice, and then set as it should be and to a
value of another kind. -/
def counting : List (Access Unit) :=
  [.write .overwrite "Generation" .int 1, .write .add "Generation" .int 0,
    .write .add "Generation" .int 5, .get .float "Generation",
    .write .overwrite "Generation" .int 2, .write .assign "Generation" .bool true,
    .contains "Heading", .write .assign "Heading" .vec3 ⟨0, 1, 0⟩]

theorem counting_typed :
    let bundle := (empty : Bundle Unit).afterAll counting
    ((empty : Bundle Unit).writtenAll counting).length = 3 ∧
      bundle.get? .int "Generation" = some 2 ∧ bundle.get? .bool "Generation" = none ∧
      (bundle.attempt .assign "Generation" (.pack .bool false)).1 = false ∧
      (bundle.attempt .assign "Generation" (.pack .bool false)).2 = bundle ∧
      (bundle.attempt .add "Flag" (.pack .bool false)).1 = true ∧
      (bundle.attempt .add "Flag" (.pack .bool false)).2.find? "Generation" =
        bundle.find? "Generation" ∧
      bundle.kindAt "Generation" = some .int ∧
      (bundle.afterAll counting).kindAt "Generation" = some .int := by
  obtain ⟨-, hget, hattempt, hkind⟩ := accesses_typed counting
  have hread := ((hget "Generation" .int).1 2).mpr rfl
  have hrefused := (hattempt .assign "Generation" .bool false).2.2
  have hnew := hattempt .add "Flag" .bool false
  refine ⟨rfl, hread, rfl, rfl, hrefused rfl, hnew.1.mpr rfl, ?_, rfl, hkind _ _ rfl counting⟩
  exact hnew.2.1 rfl "Generation"

end Bundle
end PlantGrowth
