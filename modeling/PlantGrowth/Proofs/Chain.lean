import PlantGrowth.Growth.Machine
import PlantGrowth.Proofs.Bundle

/-!
# The chains of a plant

A seed writes its registry, its rules and its last generation into the bundle, and no handler of its
plant changes these entries. So all chains of a plant agree on them: they *follow* the seed. A seed
within the plant starts with a bundle of the outer plant and writes all of these entries again; its
chains follow the inner seed.
-/

namespace PlantGrowth

variable {H : Type}

/-- The bundle has the entries of a seed's plant. -/
structure Bundle.Follows (seed : Seed H) (bundle : Bundle H) : Prop where
  tidy : bundle.Tidy
  registry : bundle.find? Key.registry = some (.registry seed.registry)
  rules : bundle.find? Key.rules = some (.rules seed.grammar.2)
  iterations : bundle.find? Key.iterations = some (.int seed.ceiling)
  sentence : ∃ s, bundle.find? Key.sentence = some (.sentence s)
  generation : ∃ n, bundle.find? Key.generation = some (.int n)
  position : ∃ v, bundle.find? Key.position = some (.vec3 v)
  heading : ∃ v, bundle.find? Key.heading = some (.vec3 v)

/-- The chain has the registry and the rules of a seed's plant, and its bundle agrees. -/
structure Chain.Follows (seed : Seed H) (chain : Chain H) : Prop where
  registry : chain.core.registry = seed.registry
  rules : chain.core.rules = seed.grammar.2
  bundle : chain.bundle.Follows seed

/-- Which generation a bundle's chain is in. -/
def Bundle.generation (bundle : Bundle H) : Int := (bundle.int? Key.generation).getD 0

/-- Names whose entries the handlers of a plant may change. -/
def Key.Free (key : String) : Prop :=
  key ≠ Key.registry ∧ key ≠ Key.rules ∧ key ≠ Key.iterations

instance (key : String) : Decidable (Key.Free key) := inferInstanceAs (Decidable (_ ∧ _))

namespace Bundle

variable {seed : Seed H} {bundle : Bundle H} {key : String} {value : Value H}

theorem generation_of_find? {n : Int} (h : bundle.find? Key.generation = some (.int n)) :
    bundle.generation = n := by
  rw [generation, int?_of_find? h, Option.getD_some]

/-- What is not an integer does not count. -/
theorem generation_of_not_takes (h : ¬ bundle.Takes Key.generation .int) : bundle.generation = 0 := by
  obtain ⟨value, hvalue, hkind⟩ : ∃ value, bundle.find? Key.generation = some value ∧
      value.kind ≠ .int := by
    simpa [Takes] using h
  cases value with
  | int n => exact absurd rfl hkind
  | _ => simp [generation, int?, hvalue]

/-- **What follows a seed still does after a write that its plant's handlers may make.** -/
theorem Follows.write (h : bundle.Follows seed) (key : String) (value : Value H)
    (hkind : Key.kind? key = some value.kind) (hfree : Key.Free key) : (bundle.write key value).Follows seed := by
  have hfind := find?_write h.tidy key value hkind
  have hkept : ∀ {other : String} {found : Value H}, other ≠ key →
      bundle.find? other = some found → (bundle.write key value).find? other = some found := by
    intro other found hne hfound
    rw [hfind, if_neg hne, hfound]
  have htidy := h.tidy.write key value hkind
  obtain ⟨hregistry, hrules, hiterations⟩ := hfree
  obtain ⟨s, hs⟩ := h.sentence
  obtain ⟨n, hn⟩ := h.generation
  have hvector : ∀ {other : String}, Key.kind? other = some .vec3 →
      (∃ v, bundle.find? other = some (.vec3 v)) →
        ∃ v, (bundle.write key value).find? other = some (.vec3 v) := by
    rintro other hother ⟨v, hv⟩
    by_cases hne : other = key
    · subst hne
      obtain ⟨v', rfl⟩ := Value.exists_vec3 (Option.some.inj (hother.symm.trans hkind)).symm
      exact ⟨v', by rw [hfind, if_pos rfl]⟩
    · exact ⟨v, hkept hne hv⟩
  refine ⟨htidy, hkept hregistry.symm h.registry, hkept hrules.symm h.rules,
    hkept hiterations.symm h.iterations, ?_, ?_, hvector rfl h.position, hvector rfl h.heading⟩
  · by_cases hne : Key.sentence = key
    · subst hne
      obtain ⟨s', rfl⟩ := Value.exists_sentence (Option.some.inj hkind).symm
      exact ⟨s', by rw [hfind, if_pos rfl]⟩
    · exact ⟨s, hkept hne hs⟩
  · by_cases hne : Key.generation = key
    · subst hne
      obtain ⟨n', rfl⟩ := Value.exists_int (Option.some.inj hkind).symm
      exact ⟨n', by rw [hfind, if_pos rfl]⟩
    · exact ⟨n, hkept hne hn⟩

/-- The core of a bundle of a seed's plant. -/
theorem Follows.core_eq (h : bundle.Follows seed) {s : Sentence}
    (hs : bundle.find? Key.sentence = some (.sentence s)) :
    bundle.core = .ok { sentence := s, registry := seed.registry, rules := seed.grammar.2 } :=
  core_of_find? hs h.registry h.rules

/-- A later bundle of the same plant, in the same generation. -/
structure Succeeds (seed : Seed H) (bundle later : Bundle H) : Prop where
  follows : later.Follows seed
  generation : later.generation = bundle.generation

theorem Follows.succeeds (h : bundle.Follows seed) : Succeeds seed bundle bundle := ⟨h, rfl⟩

theorem Succeeds.write {later : Bundle H} (h : Succeeds seed bundle later)
    (key : String) (value : Value H) (hkind : Key.kind? key = some value.kind)
    (hfree : Key.Free key)
    (hne : key ≠ Key.generation) : Succeeds seed bundle (later.write key value) := by
  refine ⟨h.follows.write key value hkind hfree, ?_⟩
  have hint := int?_write_of_ne hne.symm later value
  have hsame : (later.write key value).generation = later.generation := by
    show ((later.write key value).int? Key.generation).getD 0 = _
    rw [hint]
    rfl
  rw [hsame, h.generation]

end Bundle

/-! ## Handing on -/

variable {seed : Seed H} {bundle later : Bundle H}

theorem Elongation.succeeds_handOn (growth : Elongation H)
    (h : Bundle.Succeeds seed bundle later) :
    Bundle.Succeeds seed bundle (growth.handOn later) :=
  ((((h.write _ _ (by rfl) (by decide) (by decide)).write _ _ (by rfl) (by decide)
    (by decide)).write _ _ (by rfl) (by decide) (by decide)).write _ _ (by rfl) (by decide)
    (by decide)).write _ _ (by rfl) (by decide) (by decide)

theorem Unfolding.succeeds_handOn (unfolding : Unfolding H)
    (h : Bundle.Succeeds seed bundle later) :
    Bundle.Succeeds seed bundle (unfolding.handOn later) :=
  ((h.write _ _ (by rfl) (by decide) (by decide)).write _ _ (by rfl) (by decide)
    (by decide)).write _ _ (by rfl) (by decide) (by decide)

/-! ## Starting a chain -/

theorem RuleSet.cursor_generation (rules : RuleSet) (n : Nat) {s : Sentence} (h : s.cursor = -1) :
    (rules.generation n s).cursor = -1 := by
  induction n generalizing s with
  | zero => exact h
  | succ n ih =>
    refine ih ?_
    rw [apply]
    split <;> rfl

/-- A plant's sentence is read from its start. -/
theorem Seed.cursor_grammar (seed : Seed H) : seed.grammar.1.cursor = -1 := by
  rw [grammar]
  cases seed.traits.mode with
  | inAdvance => exact RuleSet.cursor_generation _ _ rfl
  | alongTheWay => rfl

theorem RuleSet.cursor_apply (rules : RuleSet) (s : Sentence) : (rules.apply s).cursor = -1 := by
  rw [apply]
  split <;> rfl

/-- The next generation depends on the symbols only. -/
theorem RuleSet.apply_congr {rules : RuleSet} {s t : Sentence} (h : s.symbols = t.symbols) :
    rules.apply s = rules.apply t := by
  rw [apply, apply, h]

theorem RuleSet.symbols_apply_of_blank {rules : RuleSet} {s : Sentence} (h : s.symbols = []) :
    (rules.apply s).symbols = [] := by
  by_cases hfertile : rules.fertile = true
  · rw [symbols_apply hfertile, h, List.flatMap_nil]
  · exact symbols_apply_of_infertile hfertile s

/-- Adding an entry takes nothing away. -/
theorem Bundle.find?_add_of_find? {other : String} {found : Value H}
    (h : bundle.find? other = some found) (key : String) (value : Value H) :
    (bundle.add key value).2.find? other = some found := by
  rw [find?_add]
  by_cases hnew : other = key ∧ bundle.find? key = none
  · rw [hnew.1, hnew.2] at h
    cases h
  · rw [if_neg hnew, h]

namespace Seed

/-- The entries that say which plant a chain belongs to. -/
def enter (seed : Seed H) (bundle : Bundle H) : Bundle H :=
  let bundle := bundle.write Key.iterations (.int seed.ceiling)
  let bundle := bundle.write Key.generation (.int 0)
  let bundle := bundle.write Key.sentence (.sentence seed.grammar.1)
  let bundle := bundle.write Key.registry (.registry seed.registry)
  bundle.write Key.rules (.rules seed.grammar.2)

/-- The entries for the place and the direction in which the plant begins. -/
def orient (seed : Seed H) (position : Vec3) (bundle : Bundle H) : Bundle H :=
  let bundle := (bundle.add Key.position (.vec3 position)).2
  let heading : Value H := .vec3 seed.traits.heading
  if seed.traits.inheritHeading then (bundle.add Key.heading heading).2
  else bundle.write Key.heading heading

theorem chain_eq (seed : Seed H) (position : Vec3) (bundle : Bundle H) :
    seed.chain position bundle =
      { core := { sentence := seed.grammar.1, registry := seed.registry, rules := seed.grammar.2 }
        bundle := seed.orient position (seed.enter bundle) } := rfl

variable {position : Vec3}

/-- The plant's entries stay as its seed entered them. -/
theorem find?_orient (tidy : bundle.Tidy) {key : String} {found : Value H}
    (h : bundle.find? key = some found) (hne : key ≠ Key.heading) :
    (seed.orient position bundle).find? key = some found := by
  have hadd := Bundle.find?_add_of_find? h Key.position (.vec3 position)
  have htidy := tidy.add Key.position (.vec3 position) rfl
  rw [orient]
  by_cases hinherit : seed.traits.inheritHeading = true
  · simp only [hinherit, if_true]
    exact Bundle.find?_add_of_find? hadd _ _
  · simp only [hinherit]
    rw [if_neg Bool.false_ne_true, Bundle.find?_write htidy _ _ rfl, if_neg hne, hadd]

theorem tidy_orient (tidy : bundle.Tidy) : (seed.orient position bundle).Tidy := by
  have htidy := tidy.add Key.position (.vec3 position) rfl
  rw [orient]
  by_cases hinherit : seed.traits.inheritHeading = true
  · simp only [hinherit, if_true]
    exact htidy.add _ _ rfl
  · simp only [hinherit]
    exact htidy.write _ _ rfl

/-- A plant has a heading, its own or the one of the plant around it. -/
theorem exists_heading_orient (tidy : bundle.Tidy) :
    ∃ v, (seed.orient position bundle).find? Key.heading = some (.vec3 v) := by
  have htidy := tidy.add Key.position (.vec3 position) rfl
  rw [orient]
  by_cases hinherit : seed.traits.inheritHeading = true
  · simp only [hinherit, if_true]
    rw [Bundle.find?_add]
    cases hold : (bundle.add Key.position (.vec3 position)).2.find? Key.heading with
    | none => exact ⟨_, by rw [if_pos ⟨rfl, rfl⟩]⟩
    | some old =>
      obtain ⟨v, rfl⟩ := Value.exists_vec3 (htidy Key.heading old hold _ rfl)
      exact ⟨v, by rw [if_neg (by simp)]⟩
  · simp only [hinherit]
    rw [if_neg Bool.false_ne_true, Bundle.find?_write htidy _ _ rfl, if_pos rfl]
    exact ⟨_, rfl⟩

/-- A plant has a position, its own or the one of the plant around it. -/
theorem exists_position_orient (tidy : bundle.Tidy) :
    ∃ v, (seed.orient position bundle).find? Key.position = some (.vec3 v) := by
  cases hold : bundle.find? Key.position with
  | some old =>
    obtain ⟨v, rfl⟩ := Value.exists_vec3 (tidy Key.position old hold _ rfl)
    exact ⟨v, find?_orient tidy hold (by decide)⟩
  | none =>
    have hadd : (bundle.add Key.position (.vec3 position)).2.find? Key.position =
        some (.vec3 position) := by
      rw [Bundle.find?_add, if_pos ⟨rfl, hold⟩]
    have htidy := tidy.add Key.position (.vec3 position) rfl
    refine ⟨position, ?_⟩
    rw [orient]
    by_cases hinherit : seed.traits.inheritHeading = true
    · simp only [hinherit, if_true]
      exact Bundle.find?_add_of_find? hadd _ _
    · simp only [hinherit]
      rw [if_neg Bool.false_ne_true, Bundle.find?_write htidy _ _ rfl, if_neg (by decide), hadd]

theorem tidy_enter (tidy : bundle.Tidy) : (seed.enter bundle).Tidy :=
  ((((tidy.write Key.iterations (.int seed.ceiling) rfl).write Key.generation (.int 0) rfl).write
    Key.sentence (.sentence seed.grammar.1) rfl).write Key.registry (.registry seed.registry)
    rfl).write Key.rules (.rules seed.grammar.2) rfl

/-- A plant begins in generation 0. -/
theorem find?_generation_chain (tidy : bundle.Tidy) :
    (seed.chain position bundle).bundle.find? Key.generation = some (.int 0) := by
  have h1 := tidy.write Key.iterations (.int seed.ceiling) rfl
  have h2 := h1.write Key.generation (.int 0) rfl
  have h3 := h2.write Key.sentence (.sentence seed.grammar.1) rfl
  have h4 := h3.write Key.registry (.registry seed.registry) rfl
  rw [chain_eq]
  refine find?_orient (tidy_enter tidy) ?_ (by decide)
  unfold enter
  rw [Bundle.find?_write h4 _ _ rfl, if_neg (by decide), Bundle.find?_write h3 _ _ rfl,
    if_neg (by decide), Bundle.find?_write h2 _ _ rfl, if_neg (by decide), Bundle.find?_write h1 _ _ rfl,
    if_pos rfl]

/-- **A seed's chain follows the seed**, whatever plant its bundle comes from. -/
theorem follows_chain (tidy : bundle.Tidy) : (seed.chain position bundle).Follows seed := by
  have h1 := tidy.write Key.iterations (.int seed.ceiling) rfl
  have h2 := h1.write Key.generation (.int 0) rfl
  have h3 := h2.write Key.sentence (.sentence seed.grammar.1) rfl
  have h4 := h3.write Key.registry (.registry seed.registry) rfl
  have h5 : (seed.enter bundle).Tidy := tidy_enter tidy
  have hgeneration : (seed.chain position bundle).bundle.find? Key.generation = some (.int 0) :=
    find?_generation_chain tidy
  rw [chain_eq] at hgeneration ⊢
  refine ⟨rfl, rfl, tidy_orient h5, find?_orient h5 ?_ (by decide), find?_orient h5 ?_ (by decide),
    find?_orient h5 ?_ (by decide), ⟨seed.grammar.1, find?_orient h5 ?_ (by decide)⟩,
    ⟨0, hgeneration⟩, exists_position_orient h5, exists_heading_orient h5⟩
  · rw [enter, Bundle.find?_write h4 _ _ rfl, if_neg (by decide), Bundle.find?_write h3 _ _ rfl,
      if_pos rfl]
  · rw [enter, Bundle.find?_write h4 _ _ rfl, if_pos rfl]
  · rw [enter, Bundle.find?_write h4 _ _ rfl, if_neg (by decide), Bundle.find?_write h3 _ _ rfl,
      if_neg (by decide), Bundle.find?_write h2 _ _ rfl, if_neg (by decide), Bundle.find?_write h1 _ _ rfl,
      if_neg (by decide), Bundle.find?_write tidy _ _ rfl, if_pos rfl]
  · rw [enter, Bundle.find?_write h4 _ _ rfl, if_neg (by decide), Bundle.find?_write h3 _ _ rfl,
      if_neg (by decide), Bundle.find?_write h2 _ _ rfl, if_pos rfl]

theorem generation_chain (tidy : bundle.Tidy) :
    (seed.chain position bundle).bundle.generation = 0 :=
  Bundle.generation_of_find? (find?_generation_chain tidy)

/-- Names that no seed writes. -/
def Foreign (key : String) : Prop :=
  key ∉ [Key.iterations, Key.generation, Key.sentence, Key.registry, Key.rules, Key.position,
    Key.heading]

instance (key : String) : Decidable (Foreign key) := inferInstanceAs (Decidable (key ∉ _))

/-- A seed leaves the other entries alone. -/
theorem find?_chain (tidy : bundle.Tidy) (position : Vec3) {key : String} (h : Foreign key) :
    (seed.chain position bundle).bundle.find? key = bundle.find? key := by
  simp only [Foreign, List.mem_cons, List.not_mem_nil, or_false, not_or] at h
  obtain ⟨hiterations, hgeneration, hsentence, hregistry, hrules, hposition, hheading⟩ := h
  have h1 := tidy.write Key.iterations (.int seed.ceiling) rfl
  have h2 := h1.write Key.generation (.int 0) rfl
  have h3 := h2.write Key.sentence (.sentence seed.grammar.1) rfl
  have h4 := h3.write Key.registry (.registry seed.registry) rfl
  have h5 := h4.write Key.rules (.rules seed.grammar.2) rfl
  have hentered : (seed.enter bundle).find? key = bundle.find? key := by
    simp only [enter]
    rw [Bundle.find?_write h4 _ _ rfl, if_neg hrules, Bundle.find?_write h3 _ _ rfl,
      if_neg hregistry, Bundle.find?_write h2 _ _ rfl, if_neg hsentence,
      Bundle.find?_write h1 _ _ rfl, if_neg hgeneration, Bundle.find?_write tidy _ _ rfl,
      if_neg hiterations]
  have h6 : ((seed.enter bundle).add Key.position (.vec3 position)).2.Tidy :=
    h5.add Key.position (.vec3 position) rfl
  have hplaced : ((seed.enter bundle).add Key.position (.vec3 position)).2.find? key =
      bundle.find? key := by
    rw [Bundle.find?_add, if_neg (fun hnew => hposition hnew.1), hentered]
  rw [chain_eq]
  simp only [orient]
  by_cases hinherit : seed.traits.inheritHeading = true
  · rw [if_pos hinherit, Bundle.find?_add, if_neg (fun hnew => hheading hnew.1), hplaced]
  · rw [if_neg hinherit, Bundle.find?_write h6 _ _ rfl, if_neg hheading, hplaced]

end Seed

/-! ## Going on to the next generation -/

variable {chain renewed : Chain H} {usual : Nat}

/-- The last generation that a chain may reach, which is the usual one if it names none. -/
def Chain.ceiling (usual : Nat) (chain : Chain H) : Int :=
  (chain.bundle.int? Key.iterations).getD usual

/-- The chain in its next generation, be that past the last one or not. -/
def Chain.next (chain : Chain H) : Chain H where
  core := { chain.core with sentence := chain.core.rules.apply chain.core.sentence }
  bundle := (chain.bundle.write Key.sentence
    (.sentence (chain.core.rules.apply chain.core.sentence))).write Key.generation
      (.int (chain.bundle.generation + 1))

/-- The next generation changes nothing under other names. -/
theorem Chain.find?_next (chain : Chain H) {key : String} (hsentence : key ≠ Key.sentence)
    (hgeneration : key ≠ Key.generation) :
    chain.next.bundle.find? key = chain.bundle.find? key := by
  rw [next, Bundle.find?_write_of_ne hgeneration, Bundle.find?_write_of_ne hsentence]

theorem Chain.ceiling_next (usual : Nat) (chain : Chain H) :
    chain.next.ceiling usual = chain.ceiling usual := by
  have hfind : chain.next.bundle.find? Key.iterations = chain.bundle.find? Key.iterations :=
    chain.find?_next (by decide) (by decide)
  rw [ceiling, ceiling, Bundle.int?, Bundle.int?, hfind]

/-- **A chain goes on to its next generation unless that is past the last one.** -/
theorem Chain.renew?_eq (usual : Nat) (chain : Chain H) :
    chain.renew? usual =
      if chain.ceiling usual < chain.bundle.generation + 1 then none else some chain.next := by
  have hcount : ((chain.bundle.write Key.sentence
      (.sentence (chain.core.rules.apply chain.core.sentence))).int? Key.generation).getD 0 =
        chain.bundle.generation := by
    rw [Bundle.int?_write_of_ne (by decide)]
    rfl
  have hceiling : (chain.next.bundle.int? Key.iterations).getD usual = chain.ceiling usual :=
    chain.ceiling_next usual
  rw [next] at hceiling
  simp only [renew?, hcount, hceiling]
  rfl

theorem Chain.Follows.ceiling_eq (h : chain.Follows seed) (usual : Nat) :
    chain.ceiling usual = seed.ceiling := by
  rw [ceiling, Bundle.int?_of_find? h.bundle.iterations, Option.getD_some]

/-- How a chain of a seed's plant goes on to the next generation, if its seed allows one. -/
theorem Chain.Follows.renew?_eq (h : chain.Follows seed) (usual : Nat) :
    chain.renew? usual =
      if seed.ceiling < chain.bundle.generation + 1 then none
      else some
        { core := { chain.core with sentence := seed.grammar.2.apply chain.core.sentence }
          bundle := (chain.bundle.write Key.sentence
            (.sentence (seed.grammar.2.apply chain.core.sentence))).write Key.generation
              (.int (chain.bundle.generation + 1)) } := by
  rw [Chain.renew?_eq, h.ceiling_eq, next, h.rules]

/-- **A renewed chain follows the same seed**, with the next generation of its sentence. -/
theorem Chain.Follows.renew (h : chain.Follows seed) (hrenew : chain.renew? usual = some renewed) :
    renewed.Follows seed ∧
      renewed.core.sentence = seed.grammar.2.apply chain.core.sentence ∧
      renewed.bundle.generation = chain.bundle.generation + 1 ∧
      renewed.bundle.generation ≤ seed.ceiling := by
  rw [h.renew?_eq] at hrenew
  by_cases hlast : seed.ceiling < chain.bundle.generation + 1
  · rw [if_pos hlast] at hrenew
    cases hrenew
  · rw [if_neg hlast] at hrenew
    cases hrenew
    have hread := h.bundle.write Key.sentence
      (.sentence (seed.grammar.2.apply chain.core.sentence)) rfl (by decide)
    have hnext := hread.write Key.generation (.int (chain.bundle.generation + 1)) rfl (by decide)
    have hfind := Bundle.find?_write hread.tidy Key.generation
      (.int (chain.bundle.generation + 1)) rfl Key.generation
    rw [if_pos rfl] at hfind
    have hgeneration := Bundle.generation_of_find? hfind
    refine ⟨⟨h.registry, h.rules, hnext⟩, rfl, hgeneration, ?_⟩
    rw [hgeneration]
    omega

/-- A chain that is not renewed is in the last generation. -/
theorem Chain.Follows.ceiling_le (h : chain.Follows seed) (hrenew : chain.renew? usual = none) :
    seed.ceiling ≤ chain.bundle.generation := by
  rw [h.renew?_eq] at hrenew
  by_cases hlast : seed.ceiling < chain.bundle.generation + 1
  · omega
  · rw [if_neg hlast] at hrenew
    cases hrenew

end PlantGrowth
