import PlantGrowth.Garden.Basic
import PlantGrowth.Plan.Codec
import PlantGrowth.Proofs.Bracketed
import PlantGrowth.Proofs.Writing

/-!
# Which plans have a seed

A plan is checked before anything grows. `PlantPlan.Valid` says of a plan, and of the plans within
it, that it is free of faults; `PlantPlan.Reports` says which fault comes first: the start, the
iterations and the rules come before the handlers, the handlers come in the order of their symbols,
and a plan within the plan is checked where its symbol stands. Neither mentions how the check is
made. The main statements:

* the tables of a plan that is read are sorted, down to the plans within it
  (`PlantPlan.ordered_of_ofJson?`);
* a plan has a seed exactly if it is valid, and otherwise the first fault is reported
  (`PlantPlan.verdict`);
* the seed binds the symbols of the plan and no others, each as the plan says
  (`PlantPlan.bindings_of_seed`);
* the two together, and planting: a plan that was accepted is never refused
  (`PlantPlan.validated`).
-/

namespace PlantGrowth

/-- In a sorted table every binding is found. -/
theorem SymbolTable.Sorted.find?_eq_some_iff {β : Type} {table : SymbolTable β} {symbol : Char}
    {value : β} (h : table.Sorted) :
    table.find? symbol = some value ↔ (symbol, value) ∈ table.entries := by
  refine ⟨mem_of_find?, fun hmem => ?_⟩
  obtain ⟨before, after, heq⟩ := List.append_of_mem hmem
  rw [find?, List.lookup_eq_some_iff]
  refine ⟨before, after, heq, fun binding hbinding => ?_⟩
  have hpairwise : (before ++ (symbol, value) :: after).Pairwise fun a b => a.1 < b.1 := heq ▸ h
  have hlt : binding.1 < symbol :=
    (List.pairwise_append.mp hpairwise).2.2 binding hbinding (symbol, value) List.mem_cons_self
  rw [bne_iff_ne]
  exact fun hsame => Char.lt_irrefl _ (hsame ▸ hlt)

/-! ## What is valid -/

/-- The bounds of a random range are finite and in order. -/
def InOrder (min max : Float) : Prop := min.isFinite = true ∧ max.isFinite = true ∧ min ≤ max

namespace PlantTraits

/-- The traits are free of faults: there is something to start from, the number of iterations is not
negative, and rules that are written out as text can be read. -/
structure Valid (traits : PlantTraits) : Prop where
  start : traits.start ≠ ""
  iterations : 0 ≤ traits.iterations
  rules : ∀ text, traits.rules = .text text → ∃ rules, RuleSet.parse text = .ok rules

/-- The first fault of the traits. -/
inductive Reports (traits : PlantTraits) : PlanFault → Prop
  | emptyStart (hstart : traits.start = "") : Reports traits .emptyStart
  | negativeIterations (hstart : traits.start ≠ "") (hnegative : traits.iterations < 0) :
      Reports traits (.negativeIterations traits.iterations)
  | rules (hstart : traits.start ≠ "") (hiterations : 0 ≤ traits.iterations) {text : String}
      {cause : RuleError} (htext : traits.rules = .text text)
      (hcause : RuleSet.parse text = .error cause) : Reports traits (.rules cause)

end PlantTraits

mutual

/-- What a symbol is bound to is free of faults. -/
inductive HandlerPlan.Valid : HandlerPlan → Prop
  | fork (closing : Char) : HandlerPlan.Valid (.fork closing)
  | pause {minSeconds maxSeconds : Float} (h : InOrder minSeconds maxSeconds) :
      HandlerPlan.Valid (.pause minSeconds maxSeconds)
  | turnRotation (eulerMin eulerMax : Vec3) : HandlerPlan.Valid (.turnRotation eulerMin eulerMax)
  | turnHeading (axis : Vec3) {angleMin angleMax : Float} (h : InOrder angleMin angleMax) :
      HandlerPlan.Valid (.turnHeading axis angleMin angleMax)
  | move {distanceMin distanceMax : Float} (h : InOrder distanceMin distanceMax) :
      HandlerPlan.Valid (.move distanceMin distanceMax)
  | branch (shape : BranchShape) : HandlerPlan.Valid (.branch shape)
  | leaf (prefab : Option String) (shape : LeafShape) : HandlerPlan.Valid (.leaf prefab shape)
  | seed {plant : PlantPlan} (h : PlantPlan.Valid plant) : HandlerPlan.Valid (.seed plant)

/-- A plan is free of faults, down to the plans within it. -/
inductive PlantPlan.Valid : PlantPlan → Prop
  | intro {plan : PlantPlan} (htraits : plan.traits.Valid)
      (hhandlers : ∀ symbol handler, plan.handlers.find? symbol = some handler →
        HandlerPlan.Valid handler) : PlantPlan.Valid plan

end

mutual

/-- The first fault of what a symbol is bound to. -/
inductive HandlerPlan.Reports : Char → HandlerPlan → PlanFault → Prop
  | pause (symbol : Char) {minSeconds maxSeconds : Float} (h : ¬ InOrder minSeconds maxSeconds) :
      HandlerPlan.Reports symbol (.pause minSeconds maxSeconds)
        (.invalidRange "pause" symbol minSeconds maxSeconds)
  | turnHeading (symbol : Char) (axis : Vec3) {angleMin angleMax : Float}
      (h : ¬ InOrder angleMin angleMax) :
      HandlerPlan.Reports symbol (.turnHeading axis angleMin angleMax)
        (.invalidRange "axis_angle_rotate" symbol angleMin angleMax)
  | move (symbol : Char) {distanceMin distanceMax : Float}
      (h : ¬ InOrder distanceMin distanceMax) :
      HandlerPlan.Reports symbol (.move distanceMin distanceMax)
        (.invalidRange "translate" symbol distanceMin distanceMax)
  | seed (symbol : Char) {plant : PlantPlan} {fault : PlanFault}
      (h : PlantPlan.Reports plant fault) : HandlerPlan.Reports symbol (.seed plant) fault

/-- The first fault of a plan. The handlers are looked at in the order of their symbols, and only
after the traits. -/
inductive PlantPlan.Reports : PlantPlan → PlanFault → Prop
  | traits {plan : PlantPlan} {fault : PlanFault} (h : plan.traits.Reports fault) :
      PlantPlan.Reports plan fault
  | handler {plan : PlantPlan} {symbol : Char} {handler : HandlerPlan} {fault : PlanFault}
      (htraits : plan.traits.Valid) (hfind : plan.handlers.find? symbol = some handler)
      (hbefore : ∀ other earlier, other < symbol → plan.handlers.find? other = some earlier →
        HandlerPlan.Valid earlier)
      (h : HandlerPlan.Reports symbol handler fault) : PlantPlan.Reports plan fault

end

namespace HandlerPlan

variable {symbol : Char} {fault : PlanFault} {min max : Float}

theorem valid_pause : (pause min max).Valid ↔ InOrder min max :=
  ⟨fun h => by cases h; assumption, .pause⟩

theorem valid_turnHeading {axis : Vec3} : (turnHeading axis min max).Valid ↔ InOrder min max :=
  ⟨fun h => by cases h; assumption, .turnHeading axis⟩

theorem valid_move : (move min max).Valid ↔ InOrder min max :=
  ⟨fun h => by cases h; assumption, .move⟩

theorem valid_seed {plant : PlantPlan} : (seed plant).Valid ↔ plant.Valid :=
  ⟨fun h => by cases h; assumption, .seed⟩

theorem reports_pause :
    (pause min max).Reports symbol fault ↔
      ¬ InOrder min max ∧ fault = .invalidRange "pause" symbol min max :=
  ⟨fun h => by cases h; exact ⟨by assumption, rfl⟩, fun ⟨h, heq⟩ => heq ▸ .pause symbol h⟩

theorem reports_turnHeading {axis : Vec3} :
    (turnHeading axis min max).Reports symbol fault ↔
      ¬ InOrder min max ∧ fault = .invalidRange "axis_angle_rotate" symbol min max :=
  ⟨fun h => by cases h; exact ⟨by assumption, rfl⟩, fun ⟨h, heq⟩ => heq ▸ .turnHeading symbol axis h⟩

theorem reports_move :
    (move min max).Reports symbol fault ↔
      ¬ InOrder min max ∧ fault = .invalidRange "translate" symbol min max :=
  ⟨fun h => by cases h; exact ⟨by assumption, rfl⟩, fun ⟨h, heq⟩ => heq ▸ .move symbol h⟩

theorem reports_seed {plant : PlantPlan} :
    (seed plant).Reports symbol fault ↔ plant.Reports fault :=
  ⟨fun h => by cases h; assumption, .seed symbol⟩

end HandlerPlan

/-- The tables of a plan are sorted, down to the plans within it. -/
inductive PlantPlan.Ordered : PlantPlan → Prop
  | intro {plan : PlantPlan} (hsorted : plan.handlers.Sorted)
      (hwithin : ∀ symbol inner, plan.handlers.find? symbol = some (.seed inner) →
        PlantPlan.Ordered inner) : PlantPlan.Ordered plan

/-! ## Plans that are read -/

/-- What is found in a table of bindings is one of them. -/
theorem SymbolTable.mem_of_find?_ofList {β : Type} {bindings : List (Char × β)} {symbol : Char}
    {value : β} (h : (ofList bindings).find? symbol = some value) : (symbol, value) ∈ bindings := by
  induction bindings using List.reverseRecOn with
  | nil => cases h
  | append_singleton bindings binding ih =>
    rw [ofList_concat, find?_insert] at h
    split at h
    next heq =>
      cases h
      rw [heq]
      exact List.mem_append_right _ List.mem_cons_self
    next => exact List.mem_append_left _ (ih h)

theorem PlantPlan.Ordered.of_handlers {traits : PlantTraits} {bindings : List (Char × HandlerPlan)}
    (h : ∀ symbol inner, (symbol, HandlerPlan.seed inner) ∈ bindings → inner.Ordered) :
    (PlantPlan.mk traits (.ofList bindings)).Ordered :=
  .intro (SymbolTable.sorted_ofList bindings) fun symbol inner hfind =>
    h symbol inner (SymbolTable.mem_of_find?_ofList hfind)

/-- Only an object of the kind for it is read as a plant. -/
theorem HandlerPlan.leafOfJson?_ne_seed {kind : String} {value : Json} {inner : PlantPlan} :
    HandlerPlan.leafOfJson? kind value ≠ some (.seed inner) := by
  intro h
  simp only [HandlerPlan.leafOfJson?, Option.bind_eq_bind, Option.pure_def] at h
  split_ifs at h <;> simp [Option.bind_eq_some_iff] at h

mutual

/-- A plan within a plan that is read is ordered; one statement for each of the readers. -/
theorem HandlerPlan.ordered_ofJson? : ∀ (value : Json) {inner : PlantPlan},
    HandlerPlan.ofJson? value = some (.seed inner) → inner.Ordered
  | .obj fields, inner, h => by
    simp only [HandlerPlan.ofJson?] at h
    split at h
    · cases h
    · split at h
      · simp only [Option.bind_eq_bind, Option.bind_eq_some_iff] at h
        obtain ⟨traits, -, handlers, hhandlers, h⟩ := h
        cases h
        exact ordered_handlersIn? fields traits hhandlers
      · exact absurd h HandlerPlan.leafOfJson?_ne_seed
  | .null, _, h => by cases h
  | .bool _, _, h => by cases h
  | .int _, _, h => by cases h
  | .float _, _, h => by cases h
  | .str _, _, h => by cases h
  | .arr _, _, h => by cases h

theorem ordered_handlersIn? : ∀ (fields : List (String × Json)) (traits : PlantTraits)
    {handlers : SymbolTable HandlerPlan}, handlersIn? fields = some handlers →
      (PlantPlan.mk traits handlers).Ordered
  | [], traits, _, h => by
    cases h
    exact .intro SymbolTable.sorted_empty fun _ _ hbound => by cases hbound
  | (key, value) :: rest, traits, _, h => by
    simp only [handlersIn?] at h
    split at h
    · exact ordered_handlersOf? value traits h
    · exact ordered_handlersIn? rest traits h

theorem ordered_handlersOf? : ∀ (value : Json) (traits : PlantTraits)
    {handlers : SymbolTable HandlerPlan}, handlersOf? value = some handlers →
      (PlantPlan.mk traits handlers).Ordered
  | .obj fields, traits, handlers, h => by
    simp only [handlersOf?, Option.map_eq_some_iff] at h
    obtain ⟨bindings, hbindings, rfl⟩ := h
    exact .of_handlers (ordered_handlerBindings? fields hbindings)
  | .null, _, _, h => by cases h
  | .bool _, _, _, h => by cases h
  | .int _, _, _, h => by cases h
  | .float _, _, _, h => by cases h
  | .str _, _, _, h => by cases h
  | .arr _, _, _, h => by cases h

theorem ordered_handlerBindings? : ∀ (fields : List (String × Json))
    {bindings : List (Char × HandlerPlan)}, handlerBindings? fields = some bindings →
      ∀ symbol inner, (symbol, HandlerPlan.seed inner) ∈ bindings → inner.Ordered
  | [], _, h, symbol, inner, hmem => by
    cases h
    cases hmem
  | (key, value) :: rest, _, h, symbol, inner, hmem => by
    simp only [handlerBindings?, Option.bind_eq_bind, Option.bind_eq_some_iff] at h
    obtain ⟨first, -, handler, hhandler, others, hothers, h⟩ := h
    cases h
    rcases List.mem_cons.mp hmem with heq | hmem
    · cases heq
      exact HandlerPlan.ordered_ofJson? value hhandler
    · exact ordered_handlerBindings? rest hothers symbol inner hmem

end

/-- **Every plan that is read is ordered.** -/
theorem PlantPlan.ordered_of_ofJson? {value : Json} {plan : PlantPlan}
    (h : PlantPlan.ofJson? value = some plan) : plan.Ordered := by
  cases value with
  | obj fields =>
    simp only [PlantPlan.ofJson?, Option.bind_eq_bind, Option.bind_eq_some_iff] at h
    obtain ⟨traits, -, handlers, hhandlers, h⟩ := h
    cases h
    exact ordered_handlersIn? fields traits hhandlers
  | _ => cases h

/-! ## Verdicts -/

/-- A check passes exactly under a condition, and otherwise gives the fault that is to be
reported. -/
structure Verdict {α : Type} (result : Except PlanFault α) (valid : Prop)
    (reports : PlanFault → Prop) : Prop where
  ok_iff : (∃ value, result = .ok value) ↔ valid
  error_iff : ∀ fault, result = .error fault ↔ reports fault

namespace Verdict

variable {α : Type} {valid : Prop} {reports : PlanFault → Prop}

theorem ok_iff_valid {value : α} :
    Verdict (.ok value) valid reports ↔ valid ∧ ∀ fault, ¬ reports fault := by
  refine ⟨fun h => ⟨h.ok_iff.mp ⟨value, rfl⟩, fun fault hfault => ?_⟩, fun ⟨hvalid, hreports⟩ => ?_⟩
  · cases (h.error_iff fault).mpr hfault
  · refine ⟨iff_of_true ⟨value, rfl⟩ hvalid, fun fault => iff_of_false ?_ (hreports fault)⟩
    exact fun heq => by cases heq

theorem error_iff_reports {first : PlanFault} :
    Verdict (.error first : Except PlanFault α) valid reports ↔
      ¬ valid ∧ ∀ fault, reports fault ↔ fault = first := by
  refine ⟨fun h => ⟨fun hvalid => ?_, fun fault => ?_⟩, fun ⟨hvalid, hreports⟩ => ?_⟩
  · obtain ⟨value, hvalue⟩ := h.ok_iff.mpr hvalid
    cases hvalue
  · rw [← h.error_iff, Except.error.injEq, eq_comm]
  · refine ⟨iff_of_false (fun ⟨value, hvalue⟩ => by cases hvalue) hvalid, fun fault => ?_⟩
    rw [hreports, Except.error.injEq, eq_comm]

/-- What passes and fails together with a check, and for the same reason, has its verdict. -/
theorem follow {β : Type} {result : Except PlanFault α} {made : Except PlanFault β}
    (h : Verdict result valid reports)
    (hok : ∀ value, result = .ok value → ∃ value, made = .ok value)
    (herror : ∀ fault, result = .error fault → made = .error fault) :
    Verdict made valid reports := by
  cases result with
  | ok value =>
    obtain ⟨value, rfl⟩ := hok value rfl
    exact ok_iff_valid.mpr (ok_iff_valid.mp h)
  | error fault =>
    obtain rfl := herror fault rfl
    exact error_iff_reports.mpr (error_iff_reports.mp h)

theorem congr {result : Except PlanFault α} {valid' : Prop} {reports' : PlanFault → Prop}
    (h : Verdict result valid reports) (hvalid : valid' ↔ valid)
    (hreports : ∀ fault, reports' fault ↔ reports fault) : Verdict result valid' reports' :=
  ⟨h.ok_iff.trans hvalid.symm, fun fault => (h.error_iff fault).trans (hreports fault).symm⟩

end Verdict

/-- A range is refused exactly if its bounds are not in order. -/
theorem verdict_requireRange (handler : String) (symbol : Char) (min max : Float) :
    Verdict (requireRange handler symbol min max) (InOrder min max)
      fun fault => ¬ InOrder min max ∧ fault = .invalidRange handler symbol min max := by
  have hiff : (min.isFinite && max.isFinite && min ≤ max) = true ↔ InOrder min max := by
    simp [InOrder, and_assoc]
  rw [requireRange]
  split
  next h =>
    have horder := hiff.mp h
    exact Verdict.ok_iff_valid.mpr ⟨horder, fun fault hfault => hfault.1 horder⟩
  next h =>
    have horder := mt hiff.mpr h
    exact Verdict.error_iff_reports.mpr ⟨horder, fun fault => and_iff_right horder⟩

namespace PlantTraits

variable {traits : PlantTraits}

/-- The rules are the last thing that is checked of the traits. -/
theorem reports_iff_rules (hstart : traits.start ≠ "") (hiterations : 0 ≤ traits.iterations)
    {fault : PlanFault} :
    traits.Reports fault ↔ ∃ text cause, traits.rules = .text text ∧
      RuleSet.parse text = .error cause ∧ fault = .rules cause := by
  constructor
  · rintro (hempty | ⟨_, hnegative⟩ | ⟨_, _, htext, hcause⟩)
    · exact absurd hempty hstart
    · exact absurd hiterations (Int.not_le.mpr hnegative)
    · exact ⟨_, _, htext, hcause, rfl⟩
  · rintro ⟨text, cause, htext, hcause, rfl⟩
    exact Reports.rules hstart hiterations htext hcause

theorem verdict_readRules (hstart : traits.start ≠ "") (hiterations : 0 ≤ traits.iterations) :
    Verdict traits.readRules traits.Valid traits.Reports := by
  cases hrules : traits.rules with
  | map table =>
    simp only [readRules, hrules]
    refine Verdict.ok_iff_valid.mpr ⟨⟨hstart, hiterations, fun text htext => ?_⟩, fun fault => ?_⟩
    · rw [hrules] at htext
      cases htext
    · simp [reports_iff_rules hstart hiterations, hrules]
  | text text =>
    cases hparse : RuleSet.parse text with
    | ok rules =>
      simp only [readRules, hrules, hparse]
      refine Verdict.ok_iff_valid.mpr ⟨⟨hstart, hiterations, fun other hother => ?_⟩, fun fault => ?_⟩
      · rw [hrules] at hother
        cases hother
        exact ⟨rules, hparse⟩
      · simp [reports_iff_rules hstart hiterations, hrules, hparse]
    | error cause =>
      simp only [readRules, hrules, hparse]
      refine Verdict.error_iff_reports.mpr ⟨fun hvalid => ?_, fun fault => ?_⟩
      · obtain ⟨rules, hread⟩ := hvalid.rules text hrules
        cases hparse.symm.trans hread
      · simp [reports_iff_rules hstart hiterations, hrules, hparse]

theorem verdict_seedTraits (traits : PlantTraits) :
    Verdict traits.seedTraits traits.Valid traits.Reports := by
  rw [seedTraits]
  split
  next hempty =>
    have hstart : traits.start = "" := String.isEmpty_iff.mp hempty
    refine Verdict.error_iff_reports.mpr ⟨fun hvalid => hvalid.start hstart, fun fault => ?_⟩
    constructor
    · rintro (_ | ⟨hne, _⟩ | ⟨hne, _⟩)
      · rfl
      · exact absurd hstart hne
      · exact absurd hstart hne
    · rintro rfl
      exact Reports.emptyStart hstart
  next hempty =>
    have hstart : traits.start ≠ "" := fun heq => hempty (String.isEmpty_iff.mpr heq)
    split
    next hnegative =>
      refine Verdict.error_iff_reports.mpr
        ⟨fun hvalid => absurd hvalid.iterations (Int.not_le.mpr hnegative), fun fault => ?_⟩
      constructor
      · rintro (heq | _ | ⟨_, hnonneg, _⟩)
        · exact absurd heq hstart
        · rfl
        · exact absurd hnonneg (Int.not_le.mpr hnegative)
      · rintro rfl
        exact Reports.negativeIterations hstart hnegative
    next hnegative =>
      have hrules := verdict_readRules hstart (Int.not_lt.mp hnegative)
      exact hrules.follow (fun rules h => ⟨_, by rw [h]⟩) fun fault h => by rw [h]

end PlantTraits

/-! ## Handlers -/

section Handlers

variable {H : Type}

/-- The prototype of a handler is refused exactly if the handler is not valid, provided that this is
so of the seed of a plan within it. -/
theorem HandlerPlan.verdict (symbol : Char) (handler : HandlerPlan)
    (hwithin : ∀ inner, handler = .seed inner →
      Verdict (inner.seed : Except PlanFault (Seed H)) inner.Valid inner.Reports) :
    Verdict (handler.prototype symbol : Except PlanFault (Prototype H)) handler.Valid
      (handler.Reports symbol) := by
  cases handler with
  | fork closing => exact Verdict.ok_iff_valid.mpr ⟨.fork closing, fun fault h => by cases h⟩
  | pause minSeconds maxSeconds =>
    have hrange := verdict_requireRange "pause" symbol minSeconds maxSeconds
    exact (hrange.follow (fun done h => ⟨_, by rw [prototype, h]⟩) fun fault h => by
      rw [prototype, h]).congr valid_pause fun _ => reports_pause
  | turnRotation eulerMin eulerMax =>
    exact Verdict.ok_iff_valid.mpr ⟨.turnRotation eulerMin eulerMax, fun fault h => by cases h⟩
  | turnHeading axis angleMin angleMax =>
    have hrange := verdict_requireRange "axis_angle_rotate" symbol angleMin angleMax
    exact (hrange.follow (fun done h => ⟨_, by rw [prototype, h]⟩) fun fault h => by
      rw [prototype, h]).congr valid_turnHeading fun _ => reports_turnHeading
  | move distanceMin distanceMax =>
    have hrange := verdict_requireRange "translate" symbol distanceMin distanceMax
    exact (hrange.follow (fun done h => ⟨_, by rw [prototype, h]⟩) fun fault h => by
      rw [prototype, h]).congr valid_move fun _ => reports_move
  | branch shape => exact Verdict.ok_iff_valid.mpr ⟨.branch shape, fun fault h => by cases h⟩
  | leaf prefab shape =>
    exact Verdict.ok_iff_valid.mpr ⟨.leaf prefab shape, fun fault h => by cases h⟩
  | seed plant =>
    exact ((hwithin plant rfl).follow (fun seed h => ⟨_, by rw [prototype, h]⟩) fun fault h => by
      rw [prototype, h]).congr valid_seed fun _ => reports_seed

/-- The prototypes of sorted bindings are refused exactly if one of the handlers is not valid, and
then for the fault of the first such one. -/
theorem verdict_prototypes {entries : List (Char × HandlerPlan)}
    (hsorted : entries.Pairwise fun a b => a.1 < b.1)
    (h : ∀ entry ∈ entries, Verdict (entry.2.prototype entry.1 : Except PlanFault (Prototype H))
      entry.2.Valid (entry.2.Reports entry.1)) :
    Verdict (prototypes entries : Except PlanFault (List (Char × Prototype H)))
      (∀ entry ∈ entries, entry.2.Valid)
      fun fault => ∃ entry ∈ entries, (∀ other ∈ entries, other.1 < entry.1 → other.2.Valid) ∧
        entry.2.Reports entry.1 fault := by
  induction entries with
  | nil => exact Verdict.ok_iff_valid.mpr ⟨by simp, by simp⟩
  | cons first rest ih =>
    obtain ⟨symbol, handler⟩ := first
    obtain ⟨hfirst, hrest⟩ := List.pairwise_cons.mp hsorted
    obtain ⟨hhead, htail⟩ := List.forall_mem_cons.mp h
    have hleast : ∀ other ∈ (symbol, handler) :: rest, ¬ other.1 < symbol := by
      rintro other hother hlt
      rcases List.mem_cons.mp hother with rfl | hother
      · exact Char.lt_irrefl _ hlt
      · exact Char.lt_irrefl _ (Char.lt_trans hlt (hfirst other hother))
    cases hmade : (handler.prototype symbol : Except PlanFault (Prototype H)) with
    | error fault =>
      rw [hmade, Verdict.error_iff_reports] at hhead
      obtain ⟨hinvalid, hreports⟩ := hhead
      rw [prototypes, hmade]
      refine Verdict.error_iff_reports.mpr ⟨fun hall => ?_, fun other => ⟨?_, ?_⟩⟩
      · exact hinvalid (hall _ List.mem_cons_self)
      · rintro ⟨entry, hentry, hbefore, hreport⟩
        rcases List.mem_cons.mp hentry with rfl | hentry
        · exact (hreports other).mp hreport
        · exact absurd (hbefore _ List.mem_cons_self (hfirst entry hentry)) hinvalid
      · rintro rfl
        exact ⟨(symbol, handler), List.mem_cons_self,
          fun other hother hlt => absurd hlt (hleast other hother), (hreports _).mpr rfl⟩
    | ok prototype =>
      rw [hmade, Verdict.ok_iff_valid] at hhead
      obtain ⟨hvalid, hreports⟩ := hhead
      refine ((ih hrest htail).follow (fun bindings hbindings => ⟨_, by
        rw [prototypes, hmade, hbindings]⟩) fun fault hfault => by
          rw [prototypes, hmade, hfault]).congr ?_ fun fault => ⟨?_, ?_⟩
      · rw [List.forall_mem_cons]
        exact and_iff_right hvalid
      · rintro ⟨entry, hentry, hbefore, hreport⟩
        rcases List.mem_cons.mp hentry with rfl | hentry
        · exact absurd hreport (hreports fault)
        · exact ⟨entry, hentry, fun other hother => hbefore other (List.mem_cons_of_mem _ hother),
            hreport⟩
      · rintro ⟨entry, hentry, hbefore, hreport⟩
        refine ⟨entry, List.mem_cons_of_mem _ hentry, fun other hother hlt => ?_, hreport⟩
        rcases List.mem_cons.mp hother with rfl | hother
        · exact hvalid
        · exact hbefore other hother hlt

end Handlers

/-! ## Plans -/

namespace PlantPlan

variable {H : Type} {plan : PlantPlan}

theorem sizeOf_lt_of_mem {plan inner : PlantPlan} {symbol : Char}
    (h : (symbol, HandlerPlan.seed inner) ∈ plan.handlers.entries) : sizeOf inner < sizeOf plan := by
  obtain ⟨traits, ⟨entries⟩⟩ := plan
  have hlt := List.sizeOf_lt_of_mem h
  simp only [Prod.mk.sizeOf_spec, HandlerPlan.seed.sizeOf_spec, PlantPlan.mk.sizeOf_spec,
    SymbolTable.mk.sizeOf_spec] at hlt ⊢
  omega

/-- **A plan has a seed exactly if it is valid**, and otherwise its first fault is reported. -/
theorem verdict (plan : PlantPlan) (hordered : plan.Ordered) :
    Verdict (plan.seed : Except PlanFault (Seed H)) plan.Valid plan.Reports := by
  induction hsize : sizeOf plan using Nat.strongRecOn generalizing plan with
  | ind size ih =>
    subst hsize
    obtain ⟨hsorted, hwithin⟩ := hordered
    have hfind {symbol : Char} {handler : HandlerPlan} :
        plan.handlers.find? symbol = some handler ↔ (symbol, handler) ∈ plan.handlers.entries :=
      hsorted.find?_eq_some_iff
    have hhandlers := verdict_prototypes (H := H) hsorted fun entry hentry =>
      entry.2.verdict entry.1 fun inner hinner => by
        have hmem : (entry.1, HandlerPlan.seed inner) ∈ plan.handlers.entries := hinner ▸ hentry
        exact ih _ (sizeOf_lt_of_mem hmem) inner (hwithin _ _ (hfind.mpr hmem)) rfl
    obtain ⟨traits, ⟨entries⟩⟩ := plan
    have htraits := traits.verdict_seedTraits
    cases hread : traits.seedTraits with
    | error fault =>
      rw [hread, Verdict.error_iff_reports] at htraits
      obtain ⟨hinvalid, hreports⟩ := htraits
      rw [PlantPlan.seed, hread]
      refine Verdict.error_iff_reports.mpr ⟨fun hvalid => ?_, fun other => ⟨fun h => ?_, ?_⟩⟩
      · obtain ⟨hvalid, -⟩ := hvalid
        exact hinvalid hvalid
      · cases h with
        | traits h => exact (hreports other).mp h
        | handler hvalid => exact absurd hvalid hinvalid
      · rintro rfl
        exact .traits ((hreports _).mpr rfl)
    | ok seedTraits =>
      rw [hread, Verdict.ok_iff_valid] at htraits
      obtain ⟨hvalid, hreports⟩ := htraits
      refine (hhandlers.follow (fun bindings hbindings => ⟨_, by
        rw [PlantPlan.seed, hread, hbindings]⟩) fun fault hfault => by
          rw [PlantPlan.seed, hread, hfault]).congr ⟨fun h => ?_, fun h => ?_⟩
          fun fault => ⟨fun h => ?_, ?_⟩
      · obtain ⟨-, hall⟩ := h
        exact fun entry hentry => hall entry.1 entry.2 (hfind.mpr hentry)
      · exact .intro hvalid fun symbol handler hbound => h _ (hfind.mp hbound)
      · cases h with
        | traits h => exact absurd h (hreports fault)
        | handler _ hbound hbefore hreport =>
          exact ⟨_, hfind.mp hbound, fun other hother hlt =>
            hbefore other.1 other.2 hlt (hfind.mpr hother), hreport⟩
      · rintro ⟨entry, hentry, hbefore, hreport⟩
        exact .handler hvalid (hfind.mpr hentry)
          (fun other earlier hlt hbound => hbefore (other, earlier) (hfind.mp hbound) hlt) hreport

end PlantPlan

/-! ## Bindings -/

namespace HandlerPlan

/-- Does the chain bake from the nodes of a handler on? Only the plan of a plant says so. -/
def bakes : HandlerPlan → Bool
  | .seed plant => plant.traits.baked
  | _ => false

/-- The identifier under which what grows at the nodes of a handler is shared. -/
def shared? : HandlerPlan → Option String
  | .leaf prefab _ => prefab
  | .seed plant => plant.traits.prefab
  | _ => none

/-- A prototype is what a plan binds a symbol to. -/
structure Binds {H : Type} (plan : HandlerPlan) (prototype : Prototype H) : Prop where
  handler : plan.Makes H prototype.handler
  ethereal : prototype.ethereal = !plan.solid
  baked : prototype.baked = plan.bakes
  prefab : prototype.prefab = plan.shared?

theorem binds_of_prototype {H : Type} {plan : HandlerPlan} {symbol : Char} {prototype : Prototype H}
    (h : plan.prototype symbol = .ok prototype) : plan.Binds prototype := by
  have hmakes := makes_of_prototype h
  cases plan with
  | fork closing =>
    cases h
    exact ⟨hmakes, rfl, rfl, rfl⟩
  | pause minSeconds maxSeconds =>
    simp only [HandlerPlan.prototype] at h
    split at h
    · cases h
      exact ⟨hmakes, rfl, rfl, rfl⟩
    · cases h
  | turnRotation eulerMin eulerMax =>
    cases h
    exact ⟨hmakes, rfl, rfl, rfl⟩
  | turnHeading axis angleMin angleMax =>
    simp only [HandlerPlan.prototype] at h
    split at h
    · cases h
      exact ⟨hmakes, rfl, rfl, rfl⟩
    · cases h
  | move distanceMin distanceMax =>
    simp only [HandlerPlan.prototype] at h
    split at h
    · cases h
      exact ⟨hmakes, rfl, rfl, rfl⟩
    · cases h
  | branch shape =>
    cases h
    exact ⟨hmakes, rfl, rfl, rfl⟩
  | leaf prefab shape =>
    cases h
    exact ⟨hmakes, rfl, rfl, rfl⟩
  | seed plant =>
    obtain ⟨inner, -, rfl⟩ := eq_of_prototype_seed h
    exact ⟨hmakes, rfl, rfl, rfl⟩

end HandlerPlan

/-- The bindings of a plan are made symbol by symbol. -/
theorem symbols_of_prototypes {H : Type} {entries : List (Char × HandlerPlan)}
    {bindings : List (Char × Prototype H)} (h : prototypes entries = .ok bindings) :
    bindings.map (·.1) = entries.map (·.1) := by
  induction entries generalizing bindings with
  | nil =>
    simp only [prototypes, Except.ok.injEq] at h
    rw [← h, List.map_nil, List.map_nil]
  | cons first rest ih =>
    obtain ⟨prototype, others, -, hrest, rfl⟩ := prototypes_cons_eq_ok h
    rw [List.map_cons, List.map_cons, ih hrest]

namespace PlantPlan

variable {H : Type} {plan : PlantPlan}

/-- **The seed binds the symbols of the plan and no others**, each as the plan says. -/
theorem bindings_of_seed {seed : Seed H} (h : plan.seed = .ok seed) :
    seed.registry.symbols = plan.handlers.symbols ∧
      ∀ symbol handler, plan.handlers.find? symbol = some handler →
        ∃ prototype, seed.registry.find? symbol = some prototype ∧ handler.Binds prototype := by
  refine ⟨?_, fun symbol handler hbound => ?_⟩
  · obtain ⟨traits, bindings, -, hbindings, rfl⟩ := seed_eq_ok h
    exact symbols_of_prototypes hbindings
  · obtain ⟨prototype, hfind, hmade⟩ := find?_of_exists h hbound
    exact ⟨prototype, hfind, HandlerPlan.binds_of_prototype hmade⟩

/-- A plan with a seed can be planted anywhere and at any time. -/
theorem sow_of_seed [Host H] {seed : Seed H} (h : plan.seed = .ok seed) (limit : Nat)
    (sim : Simulation H) : ∃ planted, sim.sow limit plan = .ok planted := by
  rw [Simulation.sow, h]
  exact ⟨_, rfl⟩

/-- **The check of a plan is exact.** A plan has a seed if and only if it is free of faults down to
the plans within it, and otherwise the first fault is reported. The seed of a plan binds the symbols
of the plan, as the plan says, and no others; once there is a seed, planting never fails. -/
theorem validated [Host H] (plan : PlantPlan) (hordered : plan.Ordered) :
    ((∃ seed : Seed H, plan.seed = .ok seed) ↔ plan.Valid) ∧
      (∀ fault, (plan.seed : Except PlanFault (Seed H)) = .error fault ↔ plan.Reports fault) ∧
      ∀ seed : Seed H, plan.seed = .ok seed →
        (seed.registry.symbols = plan.handlers.symbols ∧
          ∀ symbol handler, plan.handlers.find? symbol = some handler →
            ∃ prototype, seed.registry.find? symbol = some prototype ∧ handler.Binds prototype) ∧
        ∀ limit (sim : Simulation H), ∃ planted, sim.sow limit plan = .ok planted := by
  have hverdict := plan.verdict (H := H) hordered
  exact ⟨hverdict.ok_iff, hverdict.error_iff,
    fun seed h => ⟨bindings_of_seed h, sow_of_seed h⟩⟩

/-- A plan with two plans within it. Both have a fault, and the second one's would come first if it
stood alone. -/
def grafted : PlantPlan where
  traits := { start := "BA" }
  handlers := ⟨[('A', .seed { traits := { start := "X", iterations := -1 }, handlers := .empty }),
    ('B', .seed (ofStart ""))]⟩

theorem ordered_grafted : grafted.Ordered := by
  refine .intro (by simp [SymbolTable.Sorted, grafted]) fun symbol inner hfind => ?_
  have hmem := SymbolTable.mem_of_find? hfind
  have hempty : inner.handlers = .empty := by
    rcases List.mem_pair.mp hmem with heq | heq <;> cases heq <;> rfl
  exact .intro (hempty ▸ SymbolTable.sorted_empty) fun symbol _ hbound => by
    rw [hempty] at hbound
    cases hbound

/-- The fault within the plant of the smaller symbol is reported. -/
theorem grafted_refused :
    (grafted.seed : Except PlanFault (Seed Empty)) = .error (.negativeIterations (-1)) ∧
      ¬ ∃ seed : Seed Empty, grafted.seed = .ok seed := by
  obtain ⟨-, herror, -⟩ := validated (H := Empty) grafted ordered_grafted
  have hreports : grafted.Reports (.negativeIterations (-1)) := by
    have hfind : grafted.handlers.find? 'A' = some (.seed
        { traits := { start := "X", iterations := -1 }, handlers := .empty }) := rfl
    refine .handler ⟨by decide, by decide, fun text htext => by cases htext⟩ hfind ?_
      (.seed 'A' (.traits (.negativeIterations (by decide) (by decide))))
    intro other earlier hlt hbound
    rcases List.mem_pair.mp (SymbolTable.mem_of_find? hbound) with heq | heq
    · cases heq
      exact absurd hlt (by decide)
    · cases heq
      exact absurd hlt (by decide)
  have hrefused := (herror _).mpr hreports
  refine ⟨hrefused, fun ⟨seed, hseed⟩ => ?_⟩
  cases hseed.symm.trans hrefused

end PlantPlan
end PlantGrowth
