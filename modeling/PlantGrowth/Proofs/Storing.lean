import PlantGrowth.Plan.Codec
import PlantGrowth.Proofs.Records
import PlantGrowth.Proofs.Writing

/-!
# The records of a plan and its parts

For each object of a plan, from a colour to the plant's own fields: the record of its fields, what
has to hold for it to be written down (the numbers are finite, and what is counted can be counted),
and what is read from any part of it that was left.

* `toJson_eq`, `fields_eq`: the object is written with all the fields of its record.
* `whole`: these may stand there.
* `alike_mk`: two values are the same if their components are.
* `reads`: from a part that came of the record by leaving fields out, the value is read again.
-/

namespace PlantGrowth

variable {strict : Bool} {part : List (String × Json)}

/-! ## Vectors and curves

These are arrays, and nothing is left out of them. -/

namespace Vec3

/-- The components are finite. -/
structure Finite (v : Vec3) : Prop where
  x : v.x.isFinite = true
  y : v.y.isFinite = true
  z : v.z.isFinite = true

variable {v : Vec3}

theorem finite_unitY : unitY.Finite := ⟨by decide, by decide, by decide⟩

theorem ofJson?_toJson (h : v.Finite) : ofJson? v.toJson = some v := by
  simp only [toJson, ofJson?, Json.toFloat?_ofFloat h.x, Json.toFloat?_ofFloat h.y,
    Json.toFloat?_ofFloat h.z, Option.bind_eq_bind, Option.bind_some, Option.pure_def]

theorem alike (h : v.Finite) : Alike strict v v := by
  refine alike_self ?_
  show instBEqVec3.beq v v = true
  simp only [instBEqVec3.beq, alike_false.mp (alike_of_isFinite h.x),
    alike_false.mp (alike_of_isFinite h.y), alike_false.mp (alike_of_isFinite h.z), Bool.and_self]

end Vec3

namespace Curve

/-- The key points are finite. -/
def Finite (curve : Curve) : Prop :=
  ∀ point ∈ curve.keys, point.1.isFinite = true ∧ point.2.isFinite = true

variable {curve : Curve}

theorem point?_pointJson {point : Float × Float}
    (h : point.1.isFinite = true ∧ point.2.isFinite = true) :
    point? (pointJson point) = some point := by
  simp only [pointJson, point?, Json.toFloat?_ofFloat h.1, Json.toFloat?_ofFloat h.2,
    Option.bind_eq_bind, Option.bind_some, Option.pure_def]

theorem ofJson?_toJson (h : curve.Finite) : ofJson? curve.toJson = some curve := by
  obtain ⟨keys⟩ := curve
  have hpoints : (keys.map pointJson).mapM point? = some keys := by
    rw [List.mapM_map]
    induction keys with
    | nil => rfl
    | cons point keys ih =>
      have hcons := List.forall_mem_cons.mp h
      simp only [List.mapM_cons, Function.comp_apply, point?_pointJson hcons.1, ih hcons.2,
        Option.bind_eq_bind, Option.bind_some, Option.pure_def]
  simp only [toJson, ofJson?, Json.fieldOf, Json.field?, List.lookup_cons_self, Option.bind_some,
    Json.toArr?, hpoints, Option.bind_eq_bind, Option.pure_def]

theorem alike (h : curve.Finite) : Alike strict curve curve := by
  obtain ⟨keys⟩ := curve
  refine alike_self ?_
  show (keys == keys) = true
  induction keys with
  | nil => rfl
  | cons point keys ih =>
    have hcons := List.forall_mem_cons.mp h
    have hpoint : (point == point) = true := by
      show (point.1 == point.1 && point.2 == point.2) = true
      simp only [alike_false.mp (alike_of_isFinite hcons.1.1),
        alike_false.mp (alike_of_isFinite hcons.1.2), Bool.and_self]
    show (point == point && keys == keys) = true
    rw [hpoint, ih hcons.2, Bool.and_self]

end Curve

/-- A level curve is finite if its level is. -/
theorem Curve.finite_constant {x : Float} (h : x.isFinite = true) : (Curve.constant x).Finite := by
  intro point hpoint
  have hmem : point ∈ [((0 : Float), x), (1, x)] := List.mem_mergeSort.mp hpoint
  have hends : (0 : Float).isFinite = true ∧ (1 : Float).isFinite = true := by decide
  simp only [List.mem_cons, List.not_mem_nil, or_false] at hmem
  obtain rfl | rfl := hmem
  · exact ⟨hends.1, h⟩
  · exact ⟨hends.2, h⟩

/-! ## Colours -/

namespace Color

/-- The components are finite. -/
structure Finite (color : Color) : Prop where
  r : color.r.isFinite = true
  g : color.g.isFinite = true
  b : color.b.isFinite = true
  a : color.a.isFinite = true

/-- The fields of a colour. -/
def record (strict : Bool) (color : Color) : List Field :=
  [.required "r" (.ofFloat (widen color.r)), .required "g" (.ofFloat (widen color.g)),
    .required "b" (.ofFloat (widen color.b)),
    .usual strict "a" (.ofFloat (widen color.a)) 1 color.a]

variable {color : Color}

theorem toJson_eq (strict : Bool) (color : Color) :
    color.toJson = .obj (written (color.record strict)) := rfl

theorem toFloat32?_widen {x : Float32} (h : x.isFinite = true) :
    (Json.ofFloat (widen x)).toFloat32? = some x := by
  rw [Json.ofFloat, isFinite_widen, if_pos h, Json.toFloat32?, narrow_widen]

theorem alike_mk {a b : Color} (hr : Alike strict a.r b.r) (hg : Alike strict a.g b.g)
    (hb : Alike strict a.b b.b) (ha : Alike strict a.a b.a) : Alike strict a b := by
  obtain ⟨⟩ := a
  obtain ⟨⟩ := b
  cases strict with
  | true => simp_all only [alike_true]
  | false =>
    rw [alike_false] at *
    show instBEqColor.beq _ _ = true
    simp only [instBEqColor.beq, hr, hg, hb, ha, Bool.and_self]

theorem reads (h : color.Finite) (hpart : Pares (color.record strict) part) :
    Reads strict (ofJson? (.obj part)) color := by
  have hfound := hpart.found (by simp [record, Field.required, Field.usual])
  simp only [record, List.forall_mem_cons] at hfound
  obtain ⟨r, g, b, a, -⟩ := hfound
  refine (r.required (toFloat32?_widen h.r) (alike_of_isFinite32 h.r)).bind fun _ r => ?_
  refine (g.required (toFloat32?_widen h.g) (alike_of_isFinite32 h.g)).bind fun _ g => ?_
  refine (b.required (toFloat32?_widen h.b) (alike_of_isFinite32 h.b)).bind fun _ b => ?_
  refine (a.usual (toFloat32?_widen h.a) (alike_of_isFinite32 h.a)).bind fun _ a => ?_
  exact .pure (alike_mk r g b a)

theorem whole (strict : Bool) (color : Color) : ∀ field ∈ color.record strict, field.Whole := by
  simp [record]

end Color

/-! ## Variations -/

namespace Variation

/-- The numbers are finite. -/
structure Finite (variation : Variation) : Prop where
  rotationMin : variation.rotationMin.Finite
  rotationMax : variation.rotationMax.Finite
  scaleMin : variation.scaleMin.isFinite = true
  scaleMax : variation.scaleMax.isFinite = true
  scaleTime : variation.scaleTime.isFinite = true

/-- The fields of a variation. -/
def record (strict : Bool) (variation : Variation) : List Field :=
  let usual : Variation := {}
  [.usual strict "rotation_min" variation.rotationMin.toJson usual.rotationMin
      variation.rotationMin,
    .usual strict "rotation_max" variation.rotationMax.toJson usual.rotationMax
      variation.rotationMax,
    .number strict "scale_min" usual.scaleMin variation.scaleMin,
    .number strict "scale_max" usual.scaleMax variation.scaleMax,
    .usual strict "scale_on_spawn" (.bool variation.scaleOnSpawn) usual.scaleOnSpawn
      variation.scaleOnSpawn,
    .number strict "scale_time" usual.scaleTime variation.scaleTime]

variable {variation : Variation}

theorem finite_default : ({} : Variation).Finite where
  rotationMin := ⟨by decide, by decide, by decide⟩
  rotationMax := ⟨by decide, by decide, by decide⟩
  scaleMin := by decide
  scaleMax := by decide
  scaleTime := by decide

theorem toJson_eq (strict : Bool) (variation : Variation) :
    variation.toJson = .obj (written (variation.record strict)) := rfl

theorem whole (strict : Bool) (variation : Variation) :
    ∀ field ∈ variation.record strict, field.Whole := by
  simp [record]

theorem alike_mk {a b : Variation} (hrotationMin : Alike strict a.rotationMin b.rotationMin)
    (hrotationMax : Alike strict a.rotationMax b.rotationMax)
    (hscaleMin : Alike strict a.scaleMin b.scaleMin)
    (hscaleMax : Alike strict a.scaleMax b.scaleMax)
    (hscaleOnSpawn : Alike strict a.scaleOnSpawn b.scaleOnSpawn)
    (hscaleTime : Alike strict a.scaleTime b.scaleTime) : Alike strict a b := by
  obtain ⟨⟩ := a
  obtain ⟨⟩ := b
  cases strict with
  | true => simp_all only [alike_true]
  | false =>
    rw [alike_false] at *
    show instBEqVariation.beq _ _ = true
    simp only [instBEqVariation.beq, hrotationMin, hrotationMax, hscaleMin, hscaleMax,
      hscaleOnSpawn, hscaleTime, Bool.and_self]

theorem reads (h : variation.Finite) (hpart : Pares (variation.record strict) part) :
    Reads strict (ofJson? (.obj part)) variation := by
  have hfound := hpart.found (by simp [record, Field.usual, Field.number])
  simp only [record, List.forall_mem_cons] at hfound
  obtain ⟨rotationMin, rotationMax, scaleMin, scaleMax, scaleOnSpawn, scaleTime, -⟩ := hfound
  refine (rotationMin.usual (Vec3.ofJson?_toJson h.rotationMin) (Vec3.alike h.rotationMin)).bind
    fun _ rotationMin => ?_
  refine (rotationMax.usual (Vec3.ofJson?_toJson h.rotationMax) (Vec3.alike h.rotationMax)).bind
    fun _ rotationMax => ?_
  refine (scaleMin.number h.scaleMin).bind fun _ scaleMin => ?_
  refine (scaleMax.number h.scaleMax).bind fun _ scaleMax => ?_
  refine (scaleOnSpawn.usual rfl (alike_of_eq rfl)).bind fun _ scaleOnSpawn => ?_
  refine (scaleTime.number h.scaleTime).bind fun _ scaleTime => ?_
  exact .pure (alike_mk rotationMin rotationMax scaleMin scaleMax scaleOnSpawn scaleTime)

end Variation

/-! ## Shapes of branches -/

/-- A character, or none, in its place. -/
theorem Json.toOption?_ofSymbol (symbol : Option Char) :
    (Json.ofOption Json.ofSymbol symbol).toOption? Json.toSymbol? = some symbol := by
  cases symbol with
  | none => rfl
  | some symbol =>
    simp [ofOption, ofSymbol, toOption?, toSymbol?]

theorem Json.toOption?_str (text : Option String) :
    (Json.ofOption Json.str text).toOption? Json.toText? = some text := by
  cases text <;> rfl

namespace BranchShape

/-- The numbers are finite. -/
structure Finite (shape : BranchShape) : Prop where
  lengthCutoff : shape.lengthCutoff.isFinite = true
  radiusCutoff : shape.radiusCutoff.isFinite = true
  startLength : shape.startLength.isFinite = true
  lengthFactor : shape.lengthFactor.isFinite = true
  startRadius : shape.startRadius.isFinite = true
  radiusFactor : shape.radiusFactor.isFinite = true
  topRadiusFactor : shape.topRadiusFactor.isFinite = true
  bottomRadiusFactor : shape.bottomRadiusFactor.isFinite = true
  startSpeed : shape.startSpeed.isFinite = true
  speedFactor : shape.speedFactor.isFinite = true
  startFaces : shape.startFaces.isFinite = true
  facesFactor : shape.facesFactor.isFinite = true

/-- The fields of a shape. -/
def record (strict : Bool) (shape : BranchShape) : List Field :=
  let usual : BranchShape := {}
  [.number strict "length_cutoff" usual.lengthCutoff shape.lengthCutoff,
    .number strict "radius_cutoff" usual.radiusCutoff shape.radiusCutoff,
    .number strict "start_length" usual.startLength shape.startLength,
    .number strict "length_change_coefficient" usual.lengthFactor shape.lengthFactor,
    .number strict "start_radius" usual.startRadius shape.startRadius,
    .number strict "radius_change_coefficient" usual.radiusFactor shape.radiusFactor,
    .number strict "top_radius_multiplier" usual.topRadiusFactor shape.topRadiusFactor,
    .number strict "bottom_radius_multiplier" usual.bottomRadiusFactor shape.bottomRadiusFactor,
    .number strict "start_grow_speed" usual.startSpeed shape.startSpeed,
    .number strict "grow_speed_change_coefficient" usual.speedFactor shape.speedFactor,
    .number strict "start_face_num" usual.startFaces shape.startFaces,
    .number strict "face_num_change_coefficient" usual.facesFactor shape.facesFactor,
    .usual strict "end_symbol" (.ofOption .ofSymbol shape.tipSymbol) usual.tipSymbol
      shape.tipSymbol]

variable {shape : BranchShape}

theorem fields_eq (strict : Bool) (shape : BranchShape) :
    shape.fields = written (shape.record strict) := rfl

theorem whole (strict : Bool) (shape : BranchShape) :
    ∀ field ∈ shape.record strict, field.Whole := by
  simp [record]

theorem alike_mk {a b : BranchShape} (lengthCutoff : Alike strict a.lengthCutoff b.lengthCutoff)
    (radiusCutoff : Alike strict a.radiusCutoff b.radiusCutoff)
    (startLength : Alike strict a.startLength b.startLength)
    (lengthFactor : Alike strict a.lengthFactor b.lengthFactor)
    (startRadius : Alike strict a.startRadius b.startRadius)
    (radiusFactor : Alike strict a.radiusFactor b.radiusFactor)
    (topRadiusFactor : Alike strict a.topRadiusFactor b.topRadiusFactor)
    (bottomRadiusFactor : Alike strict a.bottomRadiusFactor b.bottomRadiusFactor)
    (startSpeed : Alike strict a.startSpeed b.startSpeed)
    (speedFactor : Alike strict a.speedFactor b.speedFactor)
    (startFaces : Alike strict a.startFaces b.startFaces)
    (facesFactor : Alike strict a.facesFactor b.facesFactor)
    (tipSymbol : Alike strict a.tipSymbol b.tipSymbol) : Alike strict a b := by
  obtain ⟨⟩ := a
  obtain ⟨⟩ := b
  cases strict with
  | true => simp_all only [alike_true]
  | false =>
    rw [alike_false] at *
    show instBEqBranchShape.beq _ _ = true
    simp only [instBEqBranchShape.beq, lengthCutoff, radiusCutoff, startLength, lengthFactor,
      startRadius, radiusFactor, topRadiusFactor, bottomRadiusFactor, startSpeed, speedFactor,
      startFaces, facesFactor, tipSymbol, Bool.and_self]

theorem reads (h : shape.Finite) (hfound : ∀ field ∈ shape.record strict, field.Found part) :
    Reads strict (ofJson? (.obj part)) shape := by
  simp only [record, List.forall_mem_cons] at hfound
  obtain ⟨lengthCutoff, radiusCutoff, startLength, lengthFactor, startRadius, radiusFactor,
    topRadiusFactor, bottomRadiusFactor, startSpeed, speedFactor, startFaces, facesFactor,
    tipSymbol, -⟩ := hfound
  refine (lengthCutoff.number h.lengthCutoff).bind fun _ lengthCutoff => ?_
  refine (radiusCutoff.number h.radiusCutoff).bind fun _ radiusCutoff => ?_
  refine (startLength.number h.startLength).bind fun _ startLength => ?_
  refine (lengthFactor.number h.lengthFactor).bind fun _ lengthFactor => ?_
  refine (startRadius.number h.startRadius).bind fun _ startRadius => ?_
  refine (radiusFactor.number h.radiusFactor).bind fun _ radiusFactor => ?_
  refine (topRadiusFactor.number h.topRadiusFactor).bind fun _ topRadiusFactor => ?_
  refine (bottomRadiusFactor.number h.bottomRadiusFactor).bind fun _ bottomRadiusFactor => ?_
  refine (startSpeed.number h.startSpeed).bind fun _ startSpeed => ?_
  refine (speedFactor.number h.speedFactor).bind fun _ speedFactor => ?_
  refine (startFaces.number h.startFaces).bind fun _ startFaces => ?_
  refine (facesFactor.number h.facesFactor).bind fun _ facesFactor => ?_
  refine (tipSymbol.usual (Json.toOption?_ofSymbol _) (alike_of_eq rfl)).bind fun _ tipSymbol => ?_
  exact .pure (alike_mk lengthCutoff radiusCutoff startLength lengthFactor startRadius radiusFactor
    topRadiusFactor bottomRadiusFactor startSpeed speedFactor startFaces facesFactor tipSymbol)

end BranchShape

/-! ## Shapes of leaves -/

theorem Json.toNatBelow?_ofNat {n bound : Nat} (h : n < bound) :
    (Json.ofNat n).toNatBelow? bound = some n := by
  have hrange : (0 : Int) ≤ n ∧ (n : Int) ≤ bound - 1 := by omega
  rw [toNatBelow?, ofNat, toIntIn?, if_pos hrange, Option.map_some, Int.toNat_natCast]

namespace LeafShape

/-- The numbers are finite, and the segments can be counted. -/
structure Storable (shape : LeafShape) : Prop where
  lateralSegments : shape.lateralSegments < UInt64.size
  medialSegments : shape.medialSegments < UInt64.size
  startMedialSize : shape.startMedialSize.isFinite = true
  startLateralSize : shape.startLateralSize.isFinite = true
  startGrowTime : shape.startGrowTime.isFinite = true
  contour : shape.contour.Finite
  medialRotation : shape.medialRotation.Finite
  lateralRotation : shape.lateralRotation.Finite
  medialSizeFactor : shape.medialSizeFactor.isFinite = true
  lateralSizeFactor : shape.lateralSizeFactor.isFinite = true
  growTimeFactor : shape.growTimeFactor.isFinite = true
  color : shape.color.Finite

/-- The fields of a shape. -/
def record (strict : Bool) (shape : LeafShape) : List Field :=
  let usual : LeafShape := {}
  [.usual strict "lateral_segments" (.ofNat shape.lateralSegments) usual.lateralSegments
      shape.lateralSegments,
    .usual strict "medial_segments" (.ofNat shape.medialSegments) usual.medialSegments
      shape.medialSegments,
    .number strict "start_medial_size" usual.startMedialSize shape.startMedialSize,
    .number strict "start_lateral_size" usual.startLateralSize shape.startLateralSize,
    .number strict "start_grow_time" usual.startGrowTime shape.startGrowTime,
    .usual strict "contour" shape.contour.toJson usual.contour shape.contour,
    .usual strict "medial_rotation" shape.medialRotation.toJson usual.medialRotation
      shape.medialRotation,
    .usual strict "lateral_rotation" shape.lateralRotation.toJson usual.lateralRotation
      shape.lateralRotation,
    .number strict "medial_size_change_coefficient" usual.medialSizeFactor shape.medialSizeFactor,
    .number strict "lateral_size_change_coefficient" usual.lateralSizeFactor
      shape.lateralSizeFactor,
    .number strict "grow_time_change_coefficient" usual.growTimeFactor shape.growTimeFactor,
    .usual strict "animate" (.bool shape.animate) usual.animate shape.animate,
    .nested strict "color" (shape.color.record strict) usual.color shape.color]

variable {shape : LeafShape}

theorem storable_default : ({} : LeafShape).Storable where
  lateralSegments := by decide
  medialSegments := by decide
  startMedialSize := by decide
  startLateralSize := by decide
  startGrowTime := by decide
  contour := Curve.finite_constant (by decide)
  medialRotation := Curve.finite_constant (by decide)
  lateralRotation := Curve.finite_constant (by decide)
  medialSizeFactor := by decide
  lateralSizeFactor := by decide
  growTimeFactor := by decide
  color := ⟨by decide, by decide, by decide, by decide⟩

/-- The usual shape in a colour of its own. -/
theorem storable_colored {color : Color} (h : color.Finite) : ({ color } : LeafShape).Storable :=
  { storable_default with color := h }

theorem fields_eq (strict : Bool) (shape : LeafShape) :
    shape.fields = written (shape.record strict) := rfl

theorem whole (strict : Bool) (shape : LeafShape) :
    ∀ field ∈ shape.record strict, field.Whole := by
  simp [record, Field.whole_nested (shape.color.whole strict)]

theorem alike_mk {a b : LeafShape}
    (lateralSegments : Alike strict a.lateralSegments b.lateralSegments)
    (medialSegments : Alike strict a.medialSegments b.medialSegments)
    (startMedialSize : Alike strict a.startMedialSize b.startMedialSize)
    (startLateralSize : Alike strict a.startLateralSize b.startLateralSize)
    (startGrowTime : Alike strict a.startGrowTime b.startGrowTime)
    (contour : Alike strict a.contour b.contour)
    (medialRotation : Alike strict a.medialRotation b.medialRotation)
    (lateralRotation : Alike strict a.lateralRotation b.lateralRotation)
    (medialSizeFactor : Alike strict a.medialSizeFactor b.medialSizeFactor)
    (lateralSizeFactor : Alike strict a.lateralSizeFactor b.lateralSizeFactor)
    (growTimeFactor : Alike strict a.growTimeFactor b.growTimeFactor)
    (animate : Alike strict a.animate b.animate) (color : Alike strict a.color b.color) :
    Alike strict a b := by
  obtain ⟨⟩ := a
  obtain ⟨⟩ := b
  cases strict with
  | true => simp_all only [alike_true]
  | false =>
    rw [alike_false] at *
    show instBEqLeafShape.beq _ _ = true
    simp only [instBEqLeafShape.beq, lateralSegments, medialSegments, startMedialSize,
      startLateralSize, startGrowTime, contour, medialRotation, lateralRotation, medialSizeFactor,
      lateralSizeFactor, growTimeFactor, animate, color, Bool.and_self]

theorem reads (h : shape.Storable) (hfound : ∀ field ∈ shape.record strict, field.Found part) :
    Reads strict (ofJson? (.obj part)) shape := by
  simp only [record, List.forall_mem_cons] at hfound
  obtain ⟨lateralSegments, medialSegments, startMedialSize, startLateralSize, startGrowTime,
    contour, medialRotation, lateralRotation, medialSizeFactor, lateralSizeFactor, growTimeFactor,
    animate, color, -⟩ := hfound
  refine (lateralSegments.usual (Json.toNatBelow?_ofNat h.lateralSegments) (alike_of_eq rfl)).bind
    fun _ lateralSegments => ?_
  refine (medialSegments.usual (Json.toNatBelow?_ofNat h.medialSegments) (alike_of_eq rfl)).bind
    fun _ medialSegments => ?_
  refine (startMedialSize.number h.startMedialSize).bind fun _ startMedialSize => ?_
  refine (startLateralSize.number h.startLateralSize).bind fun _ startLateralSize => ?_
  refine (startGrowTime.number h.startGrowTime).bind fun _ startGrowTime => ?_
  refine (contour.usual (Curve.ofJson?_toJson h.contour) (Curve.alike h.contour)).bind
    fun _ contour => ?_
  refine (medialRotation.usual (Curve.ofJson?_toJson h.medialRotation)
    (Curve.alike h.medialRotation)).bind fun _ medialRotation => ?_
  refine (lateralRotation.usual (Curve.ofJson?_toJson h.lateralRotation)
    (Curve.alike h.lateralRotation)).bind fun _ lateralRotation => ?_
  refine (medialSizeFactor.number h.medialSizeFactor).bind fun _ medialSizeFactor => ?_
  refine (lateralSizeFactor.number h.lateralSizeFactor).bind fun _ lateralSizeFactor => ?_
  refine (growTimeFactor.number h.growTimeFactor).bind fun _ growTimeFactor => ?_
  refine (animate.usual rfl (alike_of_eq rfl)).bind fun _ animate => ?_
  refine (color.nested fun _ hpart => Color.reads h.color hpart).bind fun _ color => ?_
  exact .pure (alike_mk lateralSegments medialSegments startMedialSize startLateralSize
    startGrowTime contour medialRotation lateralRotation medialSizeFactor lateralSizeFactor
    growTimeFactor animate color)

end LeafShape

/-! ## Traits of plants -/

theorem SymbolTable.ofList_entries {β : Type} {table : SymbolTable β} (h : table.Sorted) :
    ofList table.entries = table :=
  ofList_of_perm h (List.Perm.refl _)

theorem Json.keySymbol?_singleton (symbol : Char) :
    keySymbol? (String.singleton symbol) = some symbol := by
  simp [keySymbol?]

namespace RulesPlan

/-- A table of rules is sorted. -/
def Sorted (rules : RulesPlan) : Prop := ∀ table, rules = .map table → table.Sorted

theorem bindings?_map (entries : List (Char × String)) :
    SymbolTable.bindings? Json.toText?
      (entries.map fun binding => (String.singleton binding.1, Json.str binding.2)) =
        some entries := by
  induction entries with
  | nil => rfl
  | cons binding entries ih =>
    simp only [List.map_cons, SymbolTable.bindings?, Json.keySymbol?_singleton, Json.toText?, ih,
      Option.bind_eq_bind, Option.bind_some, Option.pure_def]

theorem ofJson?_toJson {rules : RulesPlan} (h : rules.Sorted) :
    ofJson? rules.toJson = some rules := by
  cases rules with
  | text written => rfl
  | map table =>
    simp only [toJson, SymbolTable.toJson, ofJson?, SymbolTable.ofJson?, Json.toObj?,
      bindings?_map, SymbolTable.ofList_entries (h table rfl), Option.bind_eq_bind,
      Option.bind_some, Option.pure_def, Option.map_some]

end RulesPlan

theorem DerivationMode.ofJson?_toJson (mode : DerivationMode) :
    ofJson? mode.toJson = some mode := by
  cases mode <;> rfl

theorem Fallback.ofJson?_toJson (fallback : Fallback) :
    ofJson? fallback.toJson = some fallback := by
  cases fallback <;> rfl

namespace PlantTraits

/-- The numbers are finite, the iterations can be counted, and a table of rules is sorted. -/
structure Storable (traits : PlantTraits) : Prop where
  least : -0x8000000000000000 ≤ traits.iterations
  most : traits.iterations ≤ 0x7fffffffffffffff
  rules : traits.rules.Sorted
  heading : traits.heading.Finite
  variation : traits.variation.Finite

/-- The fields of the plant's object, without the handlers. -/
def record (strict : Bool) (traits : PlantTraits) : List Field :=
  let usual : PlantTraits := { start := traits.start }
  [.required "axiom" (.str traits.start),
    .usual strict "iterations" (.int traits.iterations) usual.iterations traits.iterations,
    .usual strict "generate_mode" traits.mode.toJson usual.mode traits.mode,
    .usual strict "rules" traits.rules.toJson usual.rules traits.rules,
    .usual strict "unmapped" traits.fallback.toJson usual.fallback traits.fallback,
    .usual strict "inherit_heading" (.bool traits.inheritHeading) usual.inheritHeading
      traits.inheritHeading,
    .usual strict "heading" traits.heading.toJson usual.heading traits.heading,
    .usual strict "baked" (.bool traits.baked) usual.baked traits.baked,
    .usual strict "prefab_identifier" (.ofOption .str traits.prefab) usual.prefab traits.prefab,
    .nested strict "bake" (traits.variation.record strict) usual.variation traits.variation]

variable {traits : PlantTraits}

/-- The traits of which nothing but the start is given. -/
theorem storable_default (start : String) : ({ start } : PlantTraits).Storable where
  least := show (-0x8000000000000000 : Int) ≤ 0 by decide
  most := show (0 : Int) ≤ 0x7fffffffffffffff by decide
  rules := by
    rintro table ⟨⟩
    exact SymbolTable.sorted_empty
  heading := Vec3.finite_unitY
  variation := Variation.finite_default

theorem fields_eq (strict : Bool) (traits : PlantTraits) :
    traits.fields = written (traits.record strict) := rfl

theorem whole (strict : Bool) (traits : PlantTraits) :
    ∀ field ∈ traits.record strict, field.Whole := by
  simp [record, Field.whole_nested (traits.variation.whole strict)]

theorem alike_mk {a b : PlantTraits} (start : Alike strict a.start b.start)
    (iterations : Alike strict a.iterations b.iterations) (mode : Alike strict a.mode b.mode)
    (rules : Alike strict a.rules b.rules) (fallback : Alike strict a.fallback b.fallback)
    (inheritHeading : Alike strict a.inheritHeading b.inheritHeading)
    (heading : Alike strict a.heading b.heading) (baked : Alike strict a.baked b.baked)
    (prefab : Alike strict a.prefab b.prefab)
    (variation : Alike strict a.variation b.variation) : Alike strict a b := by
  obtain ⟨⟩ := a
  obtain ⟨⟩ := b
  cases strict with
  | true => simp_all only [alike_true]
  | false =>
    rw [alike_false] at *
    show instBEqPlantTraits.beq _ _ = true
    simp only [instBEqPlantTraits.beq, start, iterations, mode, rules, fallback, inheritHeading,
      heading, baked, prefab, variation, Bool.and_self]

theorem reads (h : traits.Storable) (hfound : ∀ field ∈ traits.record strict, field.Found part) :
    Reads strict (ofJson? (.obj part)) traits := by
  have hiterations : (Json.int traits.iterations).toIntIn? (-0x8000000000000000)
      0x7fffffffffffffff = some traits.iterations := by
    rw [Json.toIntIn?, if_pos ⟨h.least, h.most⟩]
  have hstart : (Json.str traits.start).toText? = some traits.start := rfl
  simp only [record, List.forall_mem_cons] at hfound
  obtain ⟨start, iterations, mode, rules, fallback, inheritHeading, heading, baked, prefab,
    variation, -⟩ := hfound
  refine (start.required hstart (alike_of_eq rfl)).bind fun _ start => ?_
  refine (iterations.usual hiterations (alike_of_eq rfl)).bind fun _ iterations => ?_
  refine (mode.usual (DerivationMode.ofJson?_toJson _) (alike_of_eq rfl)).bind fun _ mode => ?_
  refine (rules.usual (RulesPlan.ofJson?_toJson h.rules) (alike_of_eq rfl)).bind fun _ rules => ?_
  refine (fallback.usual (Fallback.ofJson?_toJson _) (alike_of_eq rfl)).bind fun _ fallback => ?_
  refine (inheritHeading.usual rfl (alike_of_eq rfl)).bind fun _ inheritHeading => ?_
  refine (heading.usual (Vec3.ofJson?_toJson h.heading) (Vec3.alike h.heading)).bind
    fun _ heading => ?_
  refine (baked.usual rfl (alike_of_eq rfl)).bind fun _ baked => ?_
  refine (prefab.usual (Json.toOption?_str _) (alike_of_eq rfl)).bind fun _ prefab => ?_
  refine (variation.nested fun _ hpart => Variation.reads h.variation hpart).bind
    fun _ variation => ?_
  exact .pure (alike_mk start iterations mode rules fallback inheritHeading heading baked prefab
    variation)

end PlantTraits

end PlantGrowth
