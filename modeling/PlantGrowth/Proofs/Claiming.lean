import PlantGrowth.Proofs.Baking
import Mathlib.Logic.Relation

/-!
# Claiming and registering identifiers

While one prototype is being grown others are asked for, claimed and registered, and nobody checks
again who claimed what. What growth relies on instead is proved here for any calls on a store, also
such as growth never makes: an identifier is first absent, then claimed and then ready, and it never
goes back.

* `PrefabStore.Does`: all that a call can do.
* `PrefabStore.find?_afterAll`: the calls move each identifier on by itself, whatever is done to the
  others (`PrefabStore.Call.move`).
* `PrefabStore.Records`: what a store keeps of the calls that succeeded; every call keeps it so.
* `PrefabStore.goes_one_way`: the rules, after any calls on a store that was empty.
-/

namespace PlantGrowth

/-! ## Counting the values of a dictionary -/

namespace Dictionary

variable {β : Type}

/-- A value that is written counts from then on, and the one that was there before no longer does. -/
theorem countP_place (p : β → Bool) (key : String) (value : β) (entries : List (String × β)) :
    (place key value entries).countP (p ·.2) + (entries.lookup key).toList.countP p =
      entries.countP (p ·.2) + [value].countP p := by
  induction entries with
  | nil => simp [place]
  | cons entry rest ih =>
    obtain ⟨other, old⟩ := entry
    by_cases hkey : other = key
    · subst hkey
      simp only [place, if_true, List.lookup_cons_self, Option.toList_some, List.countP_cons,
        List.countP_nil]
      omega
    · have hlookup : ((other, old) :: rest).lookup key = rest.lookup key := by
        rw [List.lookup_cons, beq_eq_false_iff_ne.mpr (Ne.symm hkey)]
      rw [place, if_neg hkey, hlookup, List.countP_cons, List.countP_cons, Nat.add_right_comm, ih,
        Nat.add_right_comm]

end Dictionary

namespace PrefabStore

/-! ## Calls -/

/-- A call on a store, with its arguments. -/
inductive Call where
  | lookup (identifier : String)
  | claim (identifier : String)
  | register (identifier : String) (root : NodeId)
  | prototype (identifier : String)
  | isGrowing
  deriving DecidableEq

namespace Call

/-- Is it a look-up? -/
def isLookup : Call → Bool
  | .lookup _ => true
  | _ => false

/-- Is it a claim? -/
def isClaim : Call → Bool
  | .claim _ => true
  | _ => false

/-- Is it a registration? -/
def isRegister : Call → Bool
  | .register .. => true
  | _ => false

/-- The root that a call registers under an identifier. -/
def root? (identifier : String) : Call → Option NodeId
  | .register other root => if other = identifier then some root else none
  | _ => none

/-- How far an identifier is after a call. -/
def move (identifier : String) : Call → Option PrefabState → Option PrefabState
  | .claim other, none => if other = identifier then some .claimed else none
  | .register other root, some .claimed =>
    if other = identifier then some (.ready root) else some .claimed
  | _, state => state

end Call

/-- The store after a call. -/
def after (store : PrefabStore) : Call → PrefabStore
  | .lookup identifier => (store.lookup identifier).2
  | .claim identifier => (store.claim identifier).2
  | .register identifier root => (store.register identifier root).2
  | .prototype _ => store
  | .isGrowing => store

/-- Does a call do what it is made for? A look-up finds a prototype, a claim takes an identifier and a
registration gives it a root; the other calls only ask. -/
def succeeds (store : PrefabStore) : Call → Bool
  | .lookup identifier =>
    match (store.lookup identifier).1 with
    | .hit _ => true
    | _ => false
  | .claim identifier => (store.claim identifier).1
  | .register identifier root => (store.register identifier root).1.isOk
  | .prototype _ => false
  | .isGrowing => false

/-- The store after calls, one after the other. -/
def afterAll (store : PrefabStore) (calls : List Call) : PrefabStore := calls.foldl after store

/-- The calls that succeed, in their order. -/
def successes (store : PrefabStore) : List Call → List Call
  | [] => []
  | call :: rest => (if store.succeeds call then [call] else []) ++ (store.after call).successes rest

variable {store later : PrefabStore} {call : Call} {succeeded : Bool} {identifier : String}
  {root : NodeId} {calls log : List Call}

/-- All that a call can do, whether it succeeds, and the store after it. -/
inductive Does (store : PrefabStore) : Call → Bool → PrefabStore → Prop where
  | hit {identifier : String} {root : NodeId} (h : store.find? identifier = some (.ready root)) :
      Does store (.lookup identifier) true { store with hits := store.hits + 1 }
  | miss {identifier : String} (h : ∀ root, store.find? identifier ≠ some (.ready root)) :
      Does store (.lookup identifier) false store
  | claim {identifier : String} (h : store.find? identifier = none) :
      Does store (.claim identifier) true
        { store with entries := store.entries.insert identifier .claimed }
  | taken {identifier : String} (h : store.find? identifier ≠ none) :
      Does store (.claim identifier) false store
  | register {identifier : String} {root : NodeId} (h : store.find? identifier = some .claimed) :
      Does store (.register identifier root) true
        { store with entries := store.entries.insert identifier (.ready root) }
  | refuse {identifier : String} {root : NodeId} (h : store.find? identifier ≠ some .claimed) :
      Does store (.register identifier root) false store
  | prototype (identifier : String) : Does store (.prototype identifier) false store
  | isGrowing : Does store .isGrowing false store

theorem does (store : PrefabStore) (call : Call) :
    store.Does call (store.succeeds call) (store.after call) := by
  cases call with
  | lookup identifier =>
    rw [succeeds, after, lookup]
    cases hfind : store.find? identifier with
    | none => exact .miss (by simp [hfind])
    | some state =>
      cases state with
      | claimed => exact .miss (by simp [hfind])
      | ready root => exact .hit hfind
  | claim identifier =>
    rw [succeeds, after, claim]
    cases hfind : store.find? identifier with
    | none => exact .claim hfind
    | some state => exact .taken (by simp [hfind])
  | register identifier root =>
    rw [succeeds, after, register]
    cases hfind : store.find? identifier with
    | none => exact .refuse (by simp [hfind])
    | some state =>
      cases state with
      | claimed => exact .register hfind
      | ready old => exact .refuse (by simp [hfind])
  | prototype identifier => exact .prototype identifier
  | isGrowing => exact .isGrowing

/-- A call that does not succeed changes nothing. -/
theorem Does.eq_of_failed (h : store.Does call false later) : later = store := by
  cases h <;> rfl

/-- Nothing but a claim or a registration changes the entries. -/
theorem Does.entries_eq (h : store.Does call succeeded later) (hclaim : call.isClaim = false)
    (hregister : call.isRegister = false) : later.entries = store.entries := by
  cases h with
  | claim => cases hclaim
  | register => cases hregister
  | _ => rfl

theorem claim_eq_true_iff :
    (store.claim identifier).1 = true ↔ store.find? identifier = none := by
  unfold claim
  split
  next h => simp [h]
  next h => simp [h]

theorem register_eq_ok_iff :
    (store.register identifier root).1 = .ok () ↔ store.find? identifier = some .claimed := by
  unfold register
  split
  next h => simp [h]
  next h => simp [h]
  next h => simp [h]

theorem prototype?_eq_some_iff :
    store.prototype? identifier = some root ↔ store.find? identifier = some (.ready root) := by
  unfold prototype?
  split
  next h => simp [h]
  next h => simpa using h root

/-! ## One identifier -/

namespace Call

theorem move_claim_self : (claim identifier).move identifier none = some .claimed := if_pos rfl

theorem move_claim_of_ne {other : String} (hne : other ≠ identifier) (state : Option PrefabState) :
    (claim other).move identifier state = state := by
  cases state with
  | none => exact if_neg hne
  | some state => rfl

theorem move_register_self (root : NodeId) :
    (register identifier root).move identifier (some .claimed) = some (.ready root) := if_pos rfl

theorem move_register_of_ne {other : String} (hne : other ≠ identifier) (root : NodeId)
    (state : Option PrefabState) : (register other root).move identifier state = state := by
  cases state with
  | none => rfl
  | some state =>
    cases state with
    | claimed => exact if_neg hne
    | ready old => rfl

end Call

theorem find?_write (store : PrefabStore) (identifier other : String) (state : PrefabState) :
    ({ store with entries := store.entries.insert identifier state } : PrefabStore).find? other =
      if other = identifier then some state else store.find? other :=
  Dictionary.find?_insert ..

/-- **A call moves each identifier on by itself.** -/
theorem Does.find?_eq (h : store.Does call succeeded later) (identifier : String) :
    later.find? identifier = call.move identifier (store.find? identifier) := by
  cases h with
  | hit => rfl
  | miss => rfl
  | @claim other hnone =>
    rw [find?_write]
    by_cases heq : identifier = other
    · subst heq
      rw [if_pos rfl, hnone, Call.move_claim_self]
    · rw [if_neg heq, Call.move_claim_of_ne (Ne.symm heq)]
  | @taken other hsome =>
    by_cases heq : identifier = other
    · subst heq
      obtain ⟨state, hstate⟩ := Option.ne_none_iff_exists'.mp hsome
      rw [hstate]
      rfl
    · rw [Call.move_claim_of_ne (Ne.symm heq)]
  | @register other root hclaimed =>
    rw [find?_write]
    by_cases heq : identifier = other
    · subst heq
      rw [if_pos rfl, hclaimed, Call.move_register_self]
    · rw [if_neg heq, Call.move_register_of_ne (Ne.symm heq)]
  | @refuse other root hother =>
    by_cases heq : identifier = other
    · subst heq
      cases hstate : store.find? identifier with
      | none => rfl
      | some state =>
        cases state with
        | claimed => exact absurd hstate hother
        | ready old => rfl
    · rw [Call.move_register_of_ne (Ne.symm heq)]
  | prototype => rfl
  | isGrowing => rfl

/-- How far an identifier is after calls. -/
def Call.moveAll (identifier : String) (calls : List Call) (state : Option PrefabState) :
    Option PrefabState :=
  calls.foldl (fun state call => call.move identifier state) state

/-- **What becomes of an identifier can be told without the store.** -/
theorem find?_afterAll (calls : List Call) (store : PrefabStore) (identifier : String) :
    (store.afterAll calls).find? identifier =
      Call.moveAll identifier calls (store.find? identifier) := by
  induction calls generalizing store with
  | nil => rfl
  | cons call rest ih =>
    rw [afterAll, List.foldl_cons, ← afterAll, ih, (store.does call).find?_eq]
    rfl

/-- An identifier goes on by one. -/
inductive Onward : Option PrefabState → Option PrefabState → Prop where
  | claimed : Onward none (some .claimed)
  | ready (root : NodeId) : Onward (some .claimed) (some (.ready root))

/-- The one-way road from absent over claimed to ready. -/
abbrev Leads : Option PrefabState → Option PrefabState → Prop := Relation.ReflTransGen Onward

namespace Call

variable {state : Option PrefabState}

theorem leads_move (call : Call) (identifier : String) (state : Option PrefabState) :
    Leads state (call.move identifier state) := by
  unfold move
  split
  · split
    · exact .single .claimed
    · exact .refl
  · split
    · exact .single (.ready _)
    · exact .refl
  · exact .refl

theorem leads_moveAll (identifier : String) (calls : List Call) (state : Option PrefabState) :
    Leads state (moveAll identifier calls state) := by
  induction calls generalizing state with
  | nil => exact .refl
  | cons call rest ih => exact (call.leads_move identifier state).trans (ih _)

/-- No road leads on from a root. -/
theorem eq_of_leads_ready (h : Leads (some (.ready root)) state) : state = some (.ready root) := by
  rcases Relation.ReflTransGen.cases_head h with heq | ⟨next, hnext, -⟩
  · exact heq.symm
  · cases hnext

theorem moveAll_ready (identifier : String) (calls : List Call) (root : NodeId) :
    moveAll identifier calls (some (.ready root)) = some (.ready root) :=
  eq_of_leads_ready (leads_moveAll identifier calls _)

/-- No road leads back to where an identifier is absent. -/
theorem ne_none_of_leads {old : PrefabState} (h : Leads (some old) state) : state ≠ none := by
  rcases Relation.ReflTransGen.cases_tail h with rfl | ⟨before, -, hlast⟩
  · exact Option.some_ne_none old
  · cases hlast <;> exact Option.some_ne_none _

theorem root?_eq_some_iff {call : Call} :
    call.root? identifier = some root ↔ call = .register identifier root := by
  unfold root?
  split
  · split
    next heq => simp [heq]
    next hne => simp [hne]
  next hne => exact iff_of_false nofun fun heq => hne _ _ heq

/-- Only a claim of its own takes an identifier out of absence. -/
theorem move_none (call : Call) (identifier : String) :
    call.move identifier none = if call = .claim identifier then some .claimed else none := by
  cases call with
  | claim other =>
    by_cases heq : other = identifier
    · rw [heq, move_claim_self, if_pos rfl]
    · rw [move_claim_of_ne heq, if_neg fun h => heq (claim.inj h)]
  | _ => rfl

/-- Only a root of its own takes an identifier out of its claim. -/
theorem move_claimed (call : Call) (identifier : String) :
    call.move identifier (some .claimed) =
      (call.root? identifier).elim (some .claimed) fun root => some (.ready root) := by
  cases call with
  | register other root =>
    by_cases heq : other = identifier
    · rw [heq, move_register_self, root?_eq_some_iff.mpr rfl]
      rfl
    · rw [move_register_of_ne heq, root?, if_neg heq]
      rfl
  | _ => rfl

/-- **An identifier is absent until it is claimed.** -/
theorem moveAll_eq_none_iff :
    moveAll identifier calls none = none ↔ .claim identifier ∉ calls := by
  induction calls with
  | nil => exact iff_of_true rfl List.not_mem_nil
  | cons call rest ih =>
    show moveAll identifier rest (call.move identifier none) = none ↔ _
    rw [move_none]
    split
    next heq =>
      refine iff_of_false (ne_none_of_leads (leads_moveAll _ _ _)) fun hnot => hnot ?_
      rw [heq]
      exact List.mem_cons_self
    next hne => rw [ih, List.mem_cons, not_or, and_iff_right (Ne.symm hne)]

/-- A claimed identifier is ready as soon as a root is given for it. -/
theorem moveAll_claimed_iff :
    (∃ root, moveAll identifier calls (some .claimed) = some (.ready root)) ↔
      ∃ root, .register identifier root ∈ calls := by
  induction calls with
  | nil => simp [moveAll]
  | cons call rest ih =>
    show (∃ root, moveAll identifier rest (call.move identifier (some .claimed)) = _) ↔ _
    rw [move_claimed]
    cases hroot : call.root? identifier with
    | some root =>
      rw [Option.elim_some, moveAll_ready]
      rw [root?_eq_some_iff] at hroot
      exact iff_of_true ⟨root, rfl⟩ ⟨root, by rw [hroot]; exact List.mem_cons_self⟩
    | none =>
      have hne (root : NodeId) : .register identifier root ≠ call := by
        rintro rfl
        rw [root?_eq_some_iff.mpr rfl] at hroot
        cases hroot
      simp only [Option.elim_none, ih, List.mem_cons, hne, false_or]

/-- **An identifier is ready as soon as it was claimed and a root was then given for it.** -/
theorem moveAll_ready_iff :
    (∃ root, moveAll identifier calls none = some (.ready root)) ↔
      ∃ root, [.claim identifier, .register identifier root].Sublist calls := by
  induction calls with
  | nil => simp [moveAll]
  | cons call rest ih =>
    show (∃ root, moveAll identifier rest (call.move identifier none) = _) ↔ _
    rw [move_none]
    split
    next heq =>
      subst heq
      simp only [moveAll_claimed_iff, List.cons_sublist_cons, List.singleton_sublist]
    next hne =>
      simp only [ih, List.sublist_cons_iff, List.cons.injEq, Ne.symm hne, false_and, exists_false,
        or_false]

end Call

/-! ## What a store keeps of its calls -/

/-- The number of identifiers whose prototypes are being grown. -/
def growing (store : PrefabStore) : Nat := store.entries.entries.countP (·.2 == .claimed)

theorem isGrowing_iff_growing : store.isGrowing = true ↔ 0 < store.growing := by
  rw [isGrowing, Dictionary.anyValue, growing, List.any_eq_true, List.countP_pos_iff]

theorem growing_claim (h : store.find? identifier = none) :
    ({ store with entries := store.entries.insert identifier .claimed } : PrefabStore).growing =
      store.growing + 1 := by
  have hplace := Dictionary.countP_place (· == .claimed) identifier .claimed store.entries.entries
  rw [show store.entries.entries.lookup identifier = none from h] at hplace
  exact hplace

theorem growing_register (h : store.find? identifier = some .claimed) (root : NodeId) :
    ({ store with entries := store.entries.insert identifier (.ready root) } : PrefabStore).growing
      + 1 = store.growing := by
  have hplace := Dictionary.countP_place (· == .claimed) identifier (.ready root)
    store.entries.entries
  rw [show store.entries.entries.lookup identifier = some .claimed from h] at hplace
  exact hplace

/-- What a store keeps of the calls that succeeded. -/
structure Records (log : List Call) (store : PrefabStore) : Prop where
  claims : ∀ identifier, log.count (.claim identifier) =
    if store.find? identifier = none then 0 else 1
  roots : ∀ identifier, log.filterMap (Call.root? identifier) = (store.prototype? identifier).toList
  hits : store.hits = log.countP Call.isLookup
  growing : store.growing + log.countP Call.isRegister = log.countP Call.isClaim

theorem Records.empty : Records [] ({} : PrefabStore) := ⟨fun _ => rfl, fun _ => rfl, rfl, rfl⟩

namespace Records

variable (h : Records log store)
include h

theorem hit (identifier : String) :
    Records (log ++ [.lookup identifier]) { store with hits := store.hits + 1 } where
  claims other := by
    rw [List.count_append]
    exact h.claims other
  roots other := by
    rw [List.filterMap_append, h.roots]
    exact List.append_nil _
  hits := by
    rw [List.countP_append, ← h.hits]
    rfl
  growing := by
    rw [List.countP_append, List.countP_append]
    exact h.growing

theorem claim (hnone : store.find? identifier = none) : Records (log ++ [.claim identifier])
    { store with entries := store.entries.insert identifier .claimed } where
  claims other := by
    rw [List.count_append, h.claims, find?_write]
    by_cases heq : other = identifier
    · simp [heq, hnone]
    · simp [heq, Ne.symm heq]
  roots other := by
    rw [List.filterMap_append, h.roots, prototype?, prototype?, find?_write]
    by_cases heq : other = identifier
    · simp [heq, hnone, Call.root?]
    · simp [heq, Call.root?]
  hits := by
    rw [List.countP_append]
    exact h.hits
  growing := by
    have hgrowing := h.growing
    rw [List.countP_append, List.countP_append, growing_claim hnone,
      show [Call.claim identifier].countP Call.isRegister = 0 from rfl,
      show [Call.claim identifier].countP Call.isClaim = 1 from rfl]
    omega

theorem register (hclaimed : store.find? identifier = some .claimed) (root : NodeId) :
    Records (log ++ [.register identifier root])
      { store with entries := store.entries.insert identifier (.ready root) } where
  claims other := by
    rw [List.count_append, h.claims, find?_write]
    by_cases heq : other = identifier
    · simp [heq, hclaimed]
    · simp [heq]
  roots other := by
    rw [List.filterMap_append, h.roots, prototype?, prototype?, find?_write]
    by_cases heq : other = identifier
    · simp [heq, hclaimed, Call.root?]
    · simp [heq, Ne.symm heq, Call.root?]
  hits := by
    rw [List.countP_append]
    exact h.hits
  growing := by
    have hgrowing := h.growing
    have hless := growing_register hclaimed root
    rw [List.countP_append, List.countP_append,
      show [Call.register identifier root].countP Call.isRegister = 1 from rfl,
      show [Call.register identifier root].countP Call.isClaim = 0 from rfl]
    omega

/-- **Every call keeps the record**, whether it succeeds or not. -/
theorem does (hdoes : store.Does call succeeded later) :
    Records (log ++ if succeeded then [call] else []) later := by
  cases hdoes with
  | hit => exact h.hit _
  | claim hnone => exact h.claim hnone
  | register hclaimed => exact h.register hclaimed _
  | _ => simpa using h

theorem afterAll (calls : List Call) :
    Records (log ++ store.successes calls) (store.afterAll calls) := by
  induction calls generalizing log store with
  | nil => simpa [successes, PrefabStore.afterAll] using h
  | cons call rest ih =>
    rw [successes, ← List.append_assoc]
    exact ih (h.does (store.does call))

end Records

/-! ## The rules -/

/-- **An identifier goes one way.** Whatever calls are made on a store that was empty, each identifier
goes from absent to claimed to ready and no other way; it is claimed by one call only, the first that
asks for it, and registered by one call only, the first that gives a root after the claim; a call that
does not succeed changes nothing, and what is found under an identifier that is ready is found there
for good. The hits are the look-ups that found something, and a prototype is being grown exactly while
there were more claims than registrations. -/
theorem goes_one_way (done : List Call) :
    let store := ({} : PrefabStore).afterAll done
    let log := ({} : PrefabStore).successes done
    (∀ identifier more,
      Leads (store.find? identifier) ((store.afterAll more).find? identifier)) ∧
    (∀ identifier,
      log.count (.claim identifier) = (if .claim identifier ∈ done then 1 else 0) ∧
      ((store.claim identifier).1 = true ↔ store.find? identifier = none)) ∧
    (∀ identifier,
      log.filterMap (Call.root? identifier) = (store.prototype? identifier).toList ∧
      ((store.prototype? identifier).isSome ↔
        ∃ root, [.claim identifier, .register identifier root].Sublist done) ∧
      ∀ root, (store.register identifier root).1 = .ok () ↔
        store.find? identifier = some .claimed) ∧
    (∀ call, (store.succeeds call = false → store.after call = store) ∧
      (call.isClaim = false → call.isRegister = false →
        (store.after call).entries = store.entries)) ∧
    (∀ identifier root, store.find? identifier = some (.ready root) → ∀ more,
      ((store.afterAll more).lookup identifier).1 = .hit root ∧
        (store.afterAll more).prototype? identifier = some root) ∧
    store.hits = log.countP Call.isLookup ∧
    (store.isGrowing = true ↔ log.countP Call.isRegister < log.countP Call.isClaim) := by
  intro store log
  have hrecords : Records log store := Records.empty.afterAll done
  have hfind (identifier : String) :
      store.find? identifier = Call.moveAll identifier done none := find?_afterAll done {} identifier
  have hleads (identifier : String) (more : List Call) :
      Leads (store.find? identifier) ((store.afterAll more).find? identifier) := by
    rw [find?_afterAll more]
    exact Call.leads_moveAll identifier more _
  refine ⟨hleads, fun identifier => ⟨?_, claim_eq_true_iff⟩,
    fun identifier => ⟨hrecords.roots identifier, ?_, fun root => register_eq_ok_iff⟩,
    fun call => ⟨fun hfailed => ?_, (store.does call).entries_eq⟩,
    fun identifier root hready more => ?_, hrecords.hits, ?_⟩
  · rw [hrecords.claims, hfind]
    by_cases hmem : .claim identifier ∈ done
    · rw [if_pos hmem, if_neg fun hnone => Call.moveAll_eq_none_iff.mp hnone hmem]
    · rw [if_neg hmem, if_pos (Call.moveAll_eq_none_iff.mpr hmem)]
  · rw [Option.isSome_iff_exists, ← Call.moveAll_ready_iff, ← hfind]
    simp only [prototype?_eq_some_iff]
  · have hdoes := store.does call
    rw [hfailed] at hdoes
    exact hdoes.eq_of_failed
  · have hready' := Call.eq_of_leads_ready (hready ▸ hleads identifier more)
    exact ⟨lookup_eq_hit_iff.mpr hready', prototype?_eq_some_iff.mpr hready'⟩
  · have hgrowing := hrecords.growing
    rw [isGrowing_iff_growing]
    omega

/-- A root is given before its claim and another one again after it, while a second identifier is
claimed in between. -/
def nursery : List Call :=
  [.register "oak" 3, .claim "oak", .lookup "oak", .claim "elm", .claim "oak", .register "oak" 7,
    .register "oak" 8, .lookup "oak", .prototype "elm", .isGrowing]

theorem nursery_one_way :
    let store := ({} : PrefabStore).afterAll nursery
    ({} : PrefabStore).successes nursery =
        [.claim "oak", .claim "elm", .register "oak" 7, .lookup "oak"] ∧
      store.find? "oak" = some (.ready 7) ∧
      ((store.afterAll nursery).lookup "oak").1 = .hit 7 ∧
      (store.afterAll nursery).prototype? "oak" = some 7 ∧
      store.succeeds (.claim "oak") = false ∧ store.after (.claim "oak") = store ∧
      store.isGrowing = true := by
  intro store
  obtain ⟨-, -, -, hfailed, hready, -, hgrowing⟩ := goes_one_way nursery
  obtain ⟨hlookup, hprototype⟩ := hready "oak" 7 rfl nursery
  exact ⟨rfl, rfl, hlookup, hprototype, rfl, (hfailed (.claim "oak")).1 rfl,
    hgrowing.mpr (by decide)⟩

end PrefabStore
end PlantGrowth
