import PlantGrowth.Proofs.Storing

/-!
# Plans survive being written and read

A plan holds what its symbols are bound to, and that may be a plan again. Its record is that of its
own fields and one more field for the handlers. The handlers' names are symbols, and none of them is
ever left out; fields may be left out of the objects that they hold.

* `HandlerPlan.nodup_keys`: the fields of a leaf's shape and those of a nested plan do not clash
  with the fields that stand beside them.
* `HandlerPlan.reads`, `PlantPlan.reads_fields`, `reads_bindings`: what is read from a part of what
  was written, by one induction on the plan and all that is nested in it.
* `PlantPlan.survives`: a plan is read again from what was written, and from any part of it that
  leaves out only what is usual.
-/

namespace PlantGrowth

variable {strict : Bool} {part : List (String × Json)}

instance : BEq HandlerPlan := ⟨HandlerPlan.same⟩

instance : BEq (SymbolTable HandlerPlan) := ⟨fun a b => sameBindings a.entries b.entries⟩

/-! ## The fields of a plan -/

mutual

/-- The numbers are finite, what is counted can be counted, and the tables are sorted, down to the
plans within. -/
def HandlerPlan.Storable : HandlerPlan → Prop
  | .fork _ => True
  | .pause minSeconds maxSeconds => minSeconds.isFinite = true ∧ maxSeconds.isFinite = true
  | .turnRotation eulerMin eulerMax => eulerMin.Finite ∧ eulerMax.Finite
  | .turnHeading axis angleMin angleMax =>
    axis.Finite ∧ angleMin.isFinite = true ∧ angleMax.isFinite = true
  | .move distanceMin distanceMax => distanceMin.isFinite = true ∧ distanceMax.isFinite = true
  | .branch shape => shape.Finite
  | .leaf _ shape => shape.Storable
  | .seed plant => plant.Storable

/-- A plan can be written down. -/
def PlantPlan.Storable : PlantPlan → Prop
  | ⟨traits, ⟨entries⟩⟩ =>
    traits.Storable ∧ SymbolTable.Sorted ⟨entries⟩ ∧ storableBindings entries

/-- All that symbols are bound to can be written down. -/
def storableBindings : List (Char × HandlerPlan) → Prop
  | [] => True
  | (_, handler) :: rest => handler.Storable ∧ storableBindings rest

end

mutual

/-- The fields of what a symbol is bound to. -/
def HandlerPlan.record (strict : Bool) : HandlerPlan → List Field
  | .fork closing =>
    [.required "kind" (.str "Split"), .usual strict "close" (.ofSymbol closing) ']' closing]
  | .pause minSeconds maxSeconds =>
    [.required "kind" (.str "Pause"), .required "min_seconds" (.ofFloat minSeconds),
      .required "max_seconds" (.ofFloat maxSeconds)]
  | .turnRotation eulerMin eulerMax =>
    [.required "kind" (.str "Rotate"), .required "euler_min" eulerMin.toJson,
      .required "euler_max" eulerMax.toJson]
  | .turnHeading axis angleMin angleMax =>
    [.required "kind" (.str "AxisAngleRotate"), .required "axis" axis.toJson,
      .required "angle_min" (.ofFloat angleMin), .required "angle_max" (.ofFloat angleMax)]
  | .move distanceMin distanceMax =>
    [.required "kind" (.str "Translate"), .required "distance_min" (.ofFloat distanceMin),
      .required "distance_max" (.ofFloat distanceMax)]
  | .branch shape => .required "kind" (.str "Branch") :: shape.record strict
  | .leaf prefab shape =>
    .required "kind" (.str "Leaf") ::
      .usual strict "prefab_identifier" (.ofOption .str prefab) none prefab :: shape.record strict
  | .seed plant => .required "kind" (.str "Seed") :: plant.record strict

/-- The fields of a plan. -/
def PlantPlan.record (strict : Bool) : PlantPlan → List Field
  | ⟨traits, ⟨entries⟩⟩ =>
    traits.record strict ++
      [{ key := "handlers"
         content := .obj (bindingFields entries)
         stands := fun content => ∃ part, content = .obj part ∧ paresBindings strict entries part
         spare := entries = [] }]

/-- Bindings are all kept; fields are left out of what the symbols are bound to. -/
def paresBindings (strict : Bool) : List (Char × HandlerPlan) → List (String × Json) → Prop
  | [], fields => fields = []
  | (symbol, handler) :: rest, fields =>
    ∃ part others, fields = (String.singleton symbol, .obj part) :: others ∧
      Pares (handler.record strict) part ∧ paresBindings strict rest others

end

theorem HandlerPlan.nodup_keys (strict : Bool) (handler : HandlerPlan) :
    ((handler.record strict).map Field.key).Nodup := by
  cases handler with
  | seed plant =>
    obtain ⟨traits, ⟨entries⟩⟩ := plant
    simp only [record, PlantPlan.record, PlantTraits.record, Field.required, Field.usual,
      Field.nested, List.cons_append, List.nil_append, List.map_cons, List.map_nil]
    decide
  | _ =>
    simp only [record, BranchShape.record, LeafShape.record, Field.required, Field.usual,
      Field.nested, Field.number, List.map_cons, List.map_nil]
    decide

theorem PlantPlan.nodup_keys (strict : Bool) (plan : PlantPlan) :
    ((plan.record strict).map Field.key).Nodup :=
  (List.nodup_cons.mp (HandlerPlan.nodup_keys strict (.seed plan))).2

/-! ## Nothing left out -/

theorem HandlerPlan.toJson_eq (strict : Bool) (handler : HandlerPlan) :
    handler.toJson = .obj (written (handler.record strict)) := by
  cases handler with
  | seed plant =>
    obtain ⟨traits, ⟨entries⟩⟩ := plant
    simp [toJson, record, PlantPlan.fields, PlantPlan.record, written, PlantTraits.fields_eq strict,
      Field.required]
  | _ => rfl

theorem PlantPlan.toJson_eq (strict : Bool) (plan : PlantPlan) :
    plan.toJson = .obj (written (plan.record strict)) := by
  obtain ⟨traits, ⟨entries⟩⟩ := plan
  simp [toJson, fields, record, written, PlantTraits.fields_eq strict]

mutual

theorem HandlerPlan.whole (strict : Bool) : ∀ handler : HandlerPlan,
    ∀ field ∈ handler.record strict, field.Whole
  | .fork _ => by simp [HandlerPlan.record]
  | .pause .. => by simp [HandlerPlan.record]
  | .turnRotation .. => by simp [HandlerPlan.record]
  | .turnHeading .. => by simp [HandlerPlan.record]
  | .move .. => by simp [HandlerPlan.record]
  | .branch shape => by
    rw [HandlerPlan.record]
    exact List.forall_mem_cons.mpr ⟨rfl, shape.whole strict⟩
  | .leaf _ shape => by
    rw [HandlerPlan.record]
    exact List.forall_mem_cons.mpr ⟨rfl, List.forall_mem_cons.mpr ⟨rfl, shape.whole strict⟩⟩
  | .seed plant => by
    rw [HandlerPlan.record]
    exact List.forall_mem_cons.mpr ⟨rfl, PlantPlan.whole strict plant⟩

theorem PlantPlan.whole (strict : Bool) : ∀ plan : PlantPlan,
    ∀ field ∈ plan.record strict, field.Whole
  | ⟨traits, ⟨entries⟩⟩ => by
    rw [PlantPlan.record]
    refine List.forall_mem_append.mpr ⟨traits.whole strict, ?_⟩
    refine List.forall_mem_singleton.mpr ⟨_, rfl, paresBindings_bindingFields strict entries⟩

theorem paresBindings_bindingFields (strict : Bool) : ∀ entries : List (Char × HandlerPlan),
    paresBindings strict entries (bindingFields entries)
  | [] => rfl
  | (symbol, handler) :: rest => by
    rw [bindingFields, paresBindings, handler.toJson_eq strict]
    exact ⟨_, _, rfl, .whole (HandlerPlan.whole strict handler),
      paresBindings_bindingFields strict rest⟩

end

/-! ## Equal plans -/

namespace HandlerPlan

/-- A kind of binding that holds a least and a greatest value. -/
theorem alike_range {α : Type} [BEq α] {make : α → α → HandlerPlan} {a b c d : α}
    (hsame : same (make a b) (make c d) = (a == c && b == d)) (hmin : Alike strict a c)
    (hmax : Alike strict b d) : Alike strict (make a b) (make c d) := by
  cases strict with
  | true => rw [alike_true.mp hmin, alike_true.mp hmax, alike_true]
  | false =>
    rw [alike_false] at *
    show same _ _ = true
    rw [hsame, hmin, hmax, Bool.and_self]

theorem alike_turnHeading {axis otherAxis : Vec3} {a b c d : Float}
    (haxis : Alike strict axis otherAxis) (hmin : Alike strict a c) (hmax : Alike strict b d) :
    Alike strict (turnHeading axis a b) (turnHeading otherAxis c d) := by
  cases strict with
  | true => rw [alike_true.mp haxis, alike_true.mp hmin, alike_true.mp hmax, alike_true]
  | false =>
    rw [alike_false] at *
    show same _ _ = true
    rw [same, haxis, hmin, hmax, Bool.and_self, Bool.and_self]

theorem alike_branch {a b : BranchShape} (h : Alike strict a b) :
    Alike strict (branch a) (branch b) := by
  cases strict with
  | true => exact congrArg branch h
  | false =>
    rw [alike_false] at *
    exact h

theorem alike_leaf {prefab : Option String} {a b : LeafShape} (h : Alike strict a b) :
    Alike strict (leaf prefab a) (leaf prefab b) := by
  cases strict with
  | true => exact congrArg (leaf prefab) h
  | false =>
    rw [alike_false] at *
    show same _ _ = true
    rw [same, beq_self_eq_true, h, Bool.and_self]

theorem alike_seed {a b : PlantPlan} (h : Alike strict a b) : Alike strict (seed a) (seed b) := by
  cases strict with
  | true => exact congrArg seed h
  | false =>
    rw [alike_false] at *
    show same _ _ = true
    rw [same]
    exact h

/-- Equal bindings in front of equal ones. -/
theorem alike_cons {symbol : Char} {a b : HandlerPlan} {rest others : List (Char × HandlerPlan)}
    (h : Alike strict a b)
    (hrest : Alike strict (SymbolTable.mk rest) (SymbolTable.mk others)) :
    Alike strict (SymbolTable.mk ((symbol, a) :: rest)) ⟨(symbol, b) :: others⟩ := by
  cases strict with
  | true =>
    rw [alike_true] at *
    rw [h, SymbolTable.mk.inj hrest]
  | false =>
    rw [alike_false] at *
    have hrest : sameBindings rest others = true := hrest
    have h : same a b = true := h
    show sameBindings _ _ = true
    rw [sameBindings, beq_self_eq_true, h, hrest, Bool.and_self, Bool.and_self]

end HandlerPlan

/-- A plan is the same if its parts are. -/
theorem PlantPlan.alike_mk {a b : PlantPlan} (htraits : Alike strict a.traits b.traits)
    (hhandlers : Alike strict a.handlers b.handlers) : Alike strict a b := by
  obtain ⟨traits, ⟨entries⟩⟩ := a
  obtain ⟨others, table⟩ := b
  cases strict with
  | true =>
    obtain rfl : traits = others := htraits
    obtain rfl : ⟨entries⟩ = table := hhandlers
    rfl
  | false =>
    rw [alike_false] at *
    show PlantPlan.same _ _ = true
    have hbindings : sameBindings entries table.entries = true := hhandlers
    rw [PlantPlan.same, htraits, hbindings, Bool.and_self]

/-- Equal bindings are bindings of the same symbols. -/
theorem symbols_of_alike {a b : SymbolTable HandlerPlan} (h : Alike strict a b) :
    a.symbols = b.symbols := by
  cases strict with
  | true => rw [alike_true.mp h]
  | false =>
    obtain ⟨entries⟩ := a
    obtain ⟨others⟩ := b
    have hbindings : sameBindings entries others = true := alike_false.mp h
    show entries.map (·.1) = others.map (·.1)
    clear h
    induction entries generalizing others with
    | nil =>
      cases others with
      | nil => rfl
      | cons => simp [sameBindings] at hbindings
    | cons entry entries ih =>
      cases others with
      | nil => simp [sameBindings] at hbindings
      | cons other others =>
        simp only [sameBindings, Bool.and_eq_true, beq_iff_eq] at hbindings
        rw [List.map_cons, List.map_cons, hbindings.1.1, ih others hbindings.2]

/-- A table of the same symbols is sorted as well. -/
theorem sorted_of_alike {a b : SymbolTable HandlerPlan} (h : Alike strict a b) (hb : b.Sorted) :
    a.Sorted := by
  have hsorted : b.symbols.Pairwise (· < ·) := List.pairwise_map.mpr hb
  rw [← symbols_of_alike h] at hsorted
  exact List.pairwise_map.mp hsorted

/-! ## Reading plans -/

theorem HandlerPlan.ofJson?_of_kind {kind : String}
    (h : part.lookup "kind" = some (.str kind)) :
    HandlerPlan.ofJson? (.obj part) =
      if kind = "Seed" then (PlantPlan.ofJson? (.obj part)).map .seed
      else HandlerPlan.leafOfJson? kind (.obj part) := by
  simp only [HandlerPlan.ofJson?, PlantPlan.ofJson?, h, Option.bind_some, Json.toText?,
    Option.bind_eq_bind, Option.map_bind, Function.comp_def, Option.pure_def, Option.map_some]

theorem handlersIn?_eq : ∀ part : List (String × Json),
    handlersIn? part =
      match part.lookup "handlers" with
      | some content => handlersOf? content
      | none => some .empty
  | [] => rfl
  | (key, value) :: rest => by
    rw [handlersIn?, List.lookup_cons]
    by_cases hkey : key = "handlers"
    · rw [if_pos hkey, hkey]
      rfl
    · have hne : ("handlers" == key) = false := beq_eq_false_iff_ne.mpr (Ne.symm hkey)
      rw [if_neg hkey, hne, handlersIn?_eq rest]

/-- The handlers of a plan are read as a table that is sorted again. -/
theorem reads_handlersOf? {entries : List (Char × HandlerPlan)} {fields : List (String × Json)}
    (hsorted : SymbolTable.Sorted ⟨entries⟩)
    (h : Reads strict ((handlerBindings? fields).map SymbolTable.mk) ⟨entries⟩) :
    Reads strict (handlersOf? (.obj fields)) ⟨entries⟩ := by
  obtain ⟨table, hread, halike⟩ := h
  obtain ⟨bindings, hbindings, rfl⟩ := Option.map_eq_some_iff.mp hread
  refine ⟨⟨bindings⟩, ?_, halike⟩
  rw [handlersOf?, hbindings, Option.map_some,
    SymbolTable.ofList_entries (sorted_of_alike halike hsorted)]

namespace HandlerPlan

theorem reads_fork {closing : Char} (hpart : Pares ((fork closing).record strict) part) :
    Reads strict (ofJson? (.obj part)) (fork closing) := by
  have hfound := hpart.found (nodup_keys strict _)
  simp only [record, List.forall_mem_cons] at hfound
  obtain ⟨kind, close, -⟩ := hfound
  have hclose : (Json.ofSymbol closing).toSymbol? = some closing := by
    simp [Json.ofSymbol, Json.toSymbol?]
  rw [ofJson?_of_kind kind.lookup_required]
  simp only [leafOfJson?, String.reduceEq, ↓reduceIte]
  refine (close.usual hclose (alike_of_eq rfl)).bind fun read hread => ?_
  rw [alike_iff_eq] at hread
  subst hread
  exact .pure (alike_self (show (read == read) = true from beq_self_eq_true read))

theorem reads_pause {minSeconds maxSeconds : Float} (h : (pause minSeconds maxSeconds).Storable)
    (hpart : Pares ((pause minSeconds maxSeconds).record strict) part) :
    Reads strict (ofJson? (.obj part)) (pause minSeconds maxSeconds) := by
  have hfound := hpart.found (nodup_keys strict _)
  simp only [record, List.forall_mem_cons] at hfound
  obtain ⟨kind, min, max, -⟩ := hfound
  obtain ⟨hmin, hmax⟩ := h
  rw [ofJson?_of_kind kind.lookup_required]
  simp only [leafOfJson?, String.reduceEq, ↓reduceIte]
  refine (min.required (Json.toFloat?_ofFloat hmin) (alike_of_isFinite hmin)).bind fun _ min => ?_
  refine (max.required (Json.toFloat?_ofFloat hmax) (alike_of_isFinite hmax)).bind fun _ max => ?_
  exact .pure (alike_range rfl min max)

theorem reads_turnRotation {eulerMin eulerMax : Vec3}
    (h : (turnRotation eulerMin eulerMax).Storable)
    (hpart : Pares ((turnRotation eulerMin eulerMax).record strict) part) :
    Reads strict (ofJson? (.obj part)) (turnRotation eulerMin eulerMax) := by
  have hfound := hpart.found (nodup_keys strict _)
  simp only [record, List.forall_mem_cons] at hfound
  obtain ⟨kind, min, max, -⟩ := hfound
  obtain ⟨hmin, hmax⟩ := h
  rw [ofJson?_of_kind kind.lookup_required]
  simp only [leafOfJson?, String.reduceEq, ↓reduceIte]
  refine (min.required (Vec3.ofJson?_toJson hmin) (Vec3.alike hmin)).bind fun _ min => ?_
  refine (max.required (Vec3.ofJson?_toJson hmax) (Vec3.alike hmax)).bind fun _ max => ?_
  exact .pure (alike_range rfl min max)

theorem reads_turnHeading {axis : Vec3} {angleMin angleMax : Float}
    (h : (turnHeading axis angleMin angleMax).Storable)
    (hpart : Pares ((turnHeading axis angleMin angleMax).record strict) part) :
    Reads strict (ofJson? (.obj part)) (turnHeading axis angleMin angleMax) := by
  have hfound := hpart.found (nodup_keys strict _)
  simp only [record, List.forall_mem_cons] at hfound
  obtain ⟨kind, axis, min, max, -⟩ := hfound
  obtain ⟨haxis, hmin, hmax⟩ := h
  rw [ofJson?_of_kind kind.lookup_required]
  simp only [leafOfJson?, String.reduceEq, ↓reduceIte]
  refine (axis.required (Vec3.ofJson?_toJson haxis) (Vec3.alike haxis)).bind fun _ axis => ?_
  refine (min.required (Json.toFloat?_ofFloat hmin) (alike_of_isFinite hmin)).bind fun _ min => ?_
  refine (max.required (Json.toFloat?_ofFloat hmax) (alike_of_isFinite hmax)).bind fun _ max => ?_
  exact .pure (alike_turnHeading axis min max)

theorem reads_move {distanceMin distanceMax : Float}
    (h : (move distanceMin distanceMax).Storable)
    (hpart : Pares ((move distanceMin distanceMax).record strict) part) :
    Reads strict (ofJson? (.obj part)) (move distanceMin distanceMax) := by
  have hfound := hpart.found (nodup_keys strict _)
  simp only [record, List.forall_mem_cons] at hfound
  obtain ⟨kind, min, max, -⟩ := hfound
  obtain ⟨hmin, hmax⟩ := h
  rw [ofJson?_of_kind kind.lookup_required]
  simp only [leafOfJson?, String.reduceEq, ↓reduceIte]
  refine (min.required (Json.toFloat?_ofFloat hmin) (alike_of_isFinite hmin)).bind fun _ min => ?_
  refine (max.required (Json.toFloat?_ofFloat hmax) (alike_of_isFinite hmax)).bind fun _ max => ?_
  exact .pure (alike_range rfl min max)

theorem reads_branch {shape : BranchShape} (h : (branch shape).Storable)
    (hpart : Pares ((branch shape).record strict) part) :
    Reads strict (ofJson? (.obj part)) (branch shape) := by
  have hfound := hpart.found (nodup_keys strict _)
  rw [record] at hfound
  obtain ⟨kind, hshape⟩ := List.forall_mem_cons.mp hfound
  rw [ofJson?_of_kind kind.lookup_required]
  simp only [leafOfJson?, String.reduceEq, ↓reduceIte]
  refine (BranchShape.reads h hshape).bind fun _ hshape => ?_
  exact .pure (alike_branch hshape)

theorem reads_leaf {prefab : Option String} {shape : LeafShape}
    (h : (leaf prefab shape).Storable)
    (hpart : Pares ((leaf prefab shape).record strict) part) :
    Reads strict (ofJson? (.obj part)) (leaf prefab shape) := by
  have hfound := hpart.found (nodup_keys strict _)
  rw [record, List.forall_mem_cons, List.forall_mem_cons] at hfound
  obtain ⟨kind, hprefab, hshape⟩ := hfound
  rw [ofJson?_of_kind kind.lookup_required]
  simp only [leafOfJson?, String.reduceEq, ↓reduceIte]
  refine (hprefab.usual (Json.toOption?_str _) (alike_of_eq rfl)).bind fun read hprefab => ?_
  rw [alike_iff_eq] at hprefab
  subst hprefab
  refine (LeafShape.reads h hshape).bind fun _ hshape => ?_
  exact .pure (alike_leaf hshape)

end HandlerPlan

mutual

/-- What a symbol is bound to is read again, from whatever is left of it. -/
theorem HandlerPlan.reads : ∀ (handler : HandlerPlan) {part : List (String × Json)},
    handler.Storable → Pares (handler.record strict) part →
      Reads strict (HandlerPlan.ofJson? (.obj part)) handler
  | .fork _, _, _, hpart => HandlerPlan.reads_fork hpart
  | .pause .., _, h, hpart => HandlerPlan.reads_pause h hpart
  | .turnRotation .., _, h, hpart => HandlerPlan.reads_turnRotation h hpart
  | .turnHeading .., _, h, hpart => HandlerPlan.reads_turnHeading h hpart
  | .move .., _, h, hpart => HandlerPlan.reads_move h hpart
  | .branch _, _, h, hpart => HandlerPlan.reads_branch h hpart
  | .leaf .., _, h, hpart => HandlerPlan.reads_leaf h hpart
  | .seed plant, part, h, hpart => by
    have hfound := hpart.found (HandlerPlan.nodup_keys strict _)
    rw [HandlerPlan.record] at hfound
    obtain ⟨kind, hplant⟩ := List.forall_mem_cons.mp hfound
    rw [HandlerPlan.ofJson?_of_kind kind.lookup_required, if_pos rfl]
    exact (PlantPlan.reads_fields plant h hplant).map fun _ => HandlerPlan.alike_seed

/-- A plan is read again from its fields, which may stand among others. -/
theorem PlantPlan.reads_fields : ∀ (plan : PlantPlan) {part : List (String × Json)},
    plan.Storable → (∀ field ∈ plan.record strict, field.Found part) →
      Reads strict (PlantPlan.ofJson? (.obj part)) plan
  | ⟨traits, ⟨entries⟩⟩, part, h, hfound => by
    rw [PlantPlan.record, List.forall_mem_append, List.forall_mem_singleton] at hfound
    rw [PlantPlan.Storable] at h
    refine (PlantTraits.reads h.1 hfound.1).bind fun _ htraits => ?_
    have hhandlers : Reads strict (handlersIn? part) ⟨entries⟩ := by
      rw [handlersIn?_eq]
      obtain ⟨_, hlookup, bindings, rfl, hbindings⟩ | ⟨hlookup, hspare⟩ := hfound.2
      · rw [hlookup]
        exact reads_handlersOf? h.2.1 (reads_bindings entries h.2.2 hbindings)
      · rw [hlookup, show entries = [] from hspare]
        exact ⟨.empty, rfl, alike_self rfl⟩
    refine hhandlers.bind fun _ hhandlers => ?_
    exact .pure (PlantPlan.alike_mk htraits hhandlers)

/-- Bindings are read again. -/
theorem reads_bindings : ∀ (entries : List (Char × HandlerPlan)) {fields : List (String × Json)},
    storableBindings entries → paresBindings strict entries fields →
      Reads strict ((handlerBindings? fields).map SymbolTable.mk) ⟨entries⟩
  | [], fields, _, hfields => by
    rw [show fields = [] from hfields]
    exact ⟨⟨[]⟩, rfl, alike_self rfl⟩
  | (symbol, handler) :: rest, fields, h, hfields => by
    rw [storableBindings] at h
    rw [paresBindings] at hfields
    obtain ⟨part, others, rfl, hpart, hothers⟩ := hfields
    obtain ⟨read, hread, halike⟩ := HandlerPlan.reads handler h.1 hpart
    obtain ⟨table, hrest, hsame⟩ := reads_bindings rest h.2 hothers
    obtain ⟨bindings, hbindings, rfl⟩ := Option.map_eq_some_iff.mp hrest
    refine ⟨⟨(symbol, read) :: bindings⟩, ?_, HandlerPlan.alike_cons halike hsame⟩
    simp only [handlerBindings?, Json.keySymbol?_singleton, hread, hbindings, Option.bind_eq_bind,
      Option.bind_some, Option.pure_def, Option.map_some]

end

namespace PlantPlan

/-- A plan that is read from what is left of its object is the same. -/
theorem reads {plan : PlantPlan} (h : plan.Storable) (hpart : Pares (plan.record strict) part) :
    Reads strict (ofJson? (.obj part)) plan :=
  plan.reads_fields h (hpart.found (nodup_keys strict plan))

/-- **Plans survive being written and read.** A plan whose numbers are finite is read back to the
bit, and so it is if fields are left out, here and there down to the plans within, that have exactly
their usual values. If fields are left out whose values only equal the usual ones, the plan that is
read equals the one that was written. -/
theorem survives (plan : PlantPlan) (h : plan.Storable) :
    ofJson? plan.toJson = some plan ∧
    (∀ strict, plan.toJson = .obj (written (plan.record strict))) ∧
    (∀ part, Pares (plan.record true) part → ofJson? (.obj part) = some plan) ∧
    ∀ part, Pares (plan.record false) part →
      ∃ read, ofJson? (.obj part) = some read ∧ (read == plan) = true := by
  have hstrict (part : List (String × Json)) (hpart : Pares (plan.record true) part) :
      ofJson? (.obj part) = some plan := by
    obtain ⟨read, hread, halike⟩ := reads h hpart
    rw [hread, alike_true.mp halike]
  refine ⟨?_, fun strict => toJson_eq strict plan, hstrict, fun part hpart => ?_⟩
  · rw [toJson_eq true plan]
    exact hstrict _ (.whole (whole true plan))
  · obtain ⟨read, hread, halike⟩ := reads h hpart
    exact ⟨read, hread, alike_false.mp halike⟩

theorem storable_ofStart (start : String) : (ofStart start).Storable :=
  ⟨PlantTraits.storable_default start, SymbolTable.sorted_empty, trivial⟩

/-- Of the plan that is nothing but a start, nothing but the start has to be there. -/
theorem pares_ofStart (strict : Bool) (start : String) :
    Pares ((ofStart start).record strict) [("axiom", .str start)] :=
  .keep rfl <| .leave (alike_self rfl) <| .leave (alike_self rfl) <| .leave (alike_self rfl) <|
    .leave (alike_self rfl) <| .leave (alike_self rfl) <| .leave (alike_self rfl) <|
    .leave (alike_self rfl) <| .leave (alike_self rfl) <| .leave (alike_self rfl) <| .leave rfl .nil

/-- A leaf of a colour of its own, a plant within the plant, and a heading whose first component is
negative zero. -/
def potted : PlantPlan where
  traits := { start := "LS", heading := ⟨-0.0, 1, 0⟩ }
  handlers := ⟨[('L', .leaf none { color := ⟨0.5, 0.25, 1, 0.75⟩ }), ('S', .seed (ofStart "F"))]⟩

theorem storable_potted : potted.Storable := by
  refine ⟨{ PlantTraits.storable_default "LS" with
    heading := ⟨by decide, by decide, by decide⟩ }, ?_, ?_, storable_ofStart "F", trivial⟩
  · exact List.pairwise_pair.mpr (by decide)
  · exact LeafShape.storable_colored ⟨by decide, by decide, by decide, by decide⟩

/-- What is left of the plan when all is left out that is usual: of the plan the start and the
handlers, of the leaf its colour, of the plant within its start. The heading goes too, since negative
zero equals zero. -/
def pottedPart : List (String × Json) :=
  [("axiom", .str "LS"), ("handlers", .obj [
    ("L", .obj [("kind", .str "Leaf"), ("color", .obj [
      ("r", .float 0.5), ("g", .float 0.25), ("b", .float 1), ("a", .float 0.75)])]),
    ("S", .obj [("kind", .str "Seed"), ("axiom", .str "F")])])]

theorem pares_potted : Pares (potted.record false) pottedPart := by
  have hwiden {x : Float32} {y : Float} (hfinite : y.isFinite = true) (h : widen x = y) :
      Json.float y = .ofFloat (widen x) := by
    rw [h, Json.ofFloat, if_pos hfinite]
  have hcolor : Pares (Color.record false ⟨0.5, 0.25, 1, 0.75⟩)
      [("r", .float 0.5), ("g", .float 0.25), ("b", .float 1), ("a", .float 0.75)] :=
    .keep (hwiden (by decide) (by decide)) <| .keep (hwiden (by decide) (by decide)) <|
      .keep (hwiden (by decide) (by decide +kernel)) <|
      .keep (hwiden (by decide) (by decide)) .nil
  have hleaf : Pares ((HandlerPlan.leaf none { color := ⟨0.5, 0.25, 1, 0.75⟩ }).record false)
      [("kind", .str "Leaf"), ("color", .obj [
        ("r", .float 0.5), ("g", .float 0.25), ("b", .float 1), ("a", .float 0.75)])] := by
    have hcurve {x : Float} (hfinite : x.isFinite = true) :
        (Curve.constant x == Curve.constant x) = true :=
      alike_false.mp (Curve.alike (Curve.finite_constant hfinite))
    refine .keep rfl ?_
    iterate 6 refine .leave (alike_false.mpr (by rfl)) ?_
    -- The key points of a curve are sorted, so the curves are not evaluated.
    iterate 3 refine .leave (alike_false.mpr (hcurve (by decide))) ?_
    iterate 4 refine .leave (alike_false.mpr (by rfl)) ?_
    exact .keep ⟨_, rfl, hcolor⟩ .nil
  have hseed : Pares ((HandlerPlan.seed (ofStart "F")).record false)
      [("kind", .str "Seed"), ("axiom", .str "F")] :=
    .keep rfl (pares_ofStart false "F")
  refine .keep rfl ?_
  iterate 9 refine .leave (alike_false.mpr (by rfl)) ?_
  exact .keep ⟨_, rfl, _, _, rfl, hleaf, _, _, rfl, hseed, rfl⟩ .nil

theorem survives_potted :
    potted.Storable ∧ ofJson? potted.toJson = some potted ∧
      Pares (potted.record false) pottedPart ∧
      ∃ read, ofJson? (.obj pottedPart) = some read ∧ (read == potted) = true :=
  have hsurvives := survives potted storable_potted
  ⟨storable_potted, hsurvives.1, pares_potted, hsurvives.2.2.2 pottedPart pares_potted⟩

end PlantPlan

end PlantGrowth
