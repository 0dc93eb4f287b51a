import PlantGrowth.Proofs.Leaves
import PlantGrowth.Proofs.Searching

/-!
# In which mode handlers are called

A node is marked as baked or not when it is made, and the handler it was made for is called at once,
in the same mode. There are two ways to come to a node. A search makes it for the symbol that it
finds, and bakes if its chain does or the prototype is a baked one. A branch makes its tip in the mode
in which it grows itself, whatever the prototype for the tip is marked as: a baked prototype is not
baked at the tip of a branch that grows live.

* `Task.MakesIn`: the two ways, with the mode of each.
* `World.Makes`: what is there when a node has been made.
* `World.spawns_perform`: no other task makes a node for a prototype.
* `World.spawned_of_comes`: every call in a run comes right after the making of its node.
* `World.baked_prototypes`: what this means for prototypes that are to be baked.
-/

namespace PlantGrowth

variable {H : Type}

/-! ## Tasks that call handlers -/

/-- Is the task to let a handler act? -/
def Task.IsCall : Task H → Prop
  | .call .. => True
  | _ => False

/-- Is the task to let a handler of the host act? -/
def Task.IsForeign : Task H → Prop
  | .call (.host _) .. => True
  | _ => False

/-- A library on its own has no handlers of a host. -/
theorem Task.not_isForeign (task : Task Empty) : ¬ task.IsForeign := by
  intro h
  cases task with
  | call handler node bundle baked =>
    cases handler with
    | host foreign => exact foreign.elim
    | _ => exact h
  | _ => exact h

theorem Task.Routine.not_isCall {task : Task H} (h : task.Routine) : ¬ task.IsCall := by
  cases h with
  | _ => exact id

/-- The mode in which a task makes a node for a prototype. -/
inductive Task.MakesIn : Task H → Char → Prototype H → Bool → Prop where
  /-- A search bakes if its chain does or the prototype is a baked one. -/
  | found {node : NodeId} {chain : Chain H} {symbol : Char} {prototype : Prototype H}
      (hfind : chain.core.registry.find? symbol = some prototype) (baked : Bool) :
      MakesIn (.search node chain baked) symbol prototype (baked || prototype.baked)
  /-- A branch makes its tip in its own mode. -/
  | tip {node : NodeId} {shape : BranchShape} {bundle : Bundle H} {core : Core H} {symbol : Char}
      {prototype : Prototype H} (hcore : bundle.core = .ok core)
      (hsymbol : shape.tipSymbol = some symbol)
      (hfind : core.registry.find? symbol = some prototype) (baked : Bool) :
      MakesIn (.call (.branch shape) node bundle baked) symbol prototype baked

/-- A node has been made for a prototype, in the given mode, and a new instance of its handler is to
be called there in the same mode. -/
structure World.Makes (w later : World H) (symbol : Char) (prototype : Prototype H) (baked : Bool)
    (call : Task H) : Prop where
  call : ∃ bundle, call = .call prototype.handler w.nodes.size bundle baked
  node : ∃ state, later.nodes.get? w.nodes.size = some state ∧ state.symbol = symbol ∧
    state.name = prototype.name ∧ state.baked = baked

/-- The task makes a node for a prototype, and sets off the call of its handler before all else, and
no other call. -/
def World.Spawns (w : World H) (task : Task H) (next : World H × List (Task H)) : Prop :=
  ∃ symbol prototype baked call others, task.MakesIn symbol prototype baked ∧
    next.2 = call :: others ∧ (∀ other ∈ others, ¬ other.IsCall) ∧
    w.Makes next.1 symbol prototype baked call

/-! ## The two ways -/

/-- The search goes on with the same registry. -/
theorem Chain.Current.registry {usual : Nat} {chain current : Chain H}
    (h : chain.Current usual current) : current.core.registry = chain.core.registry := by
  cases h with
  | same _ => rfl
  | renewed _ hrenew =>
    rw [Chain.renew?_eq] at hrenew
    split at hrenew
    · cases hrenew
    · cases hrenew
      rfl

namespace World

variable {w later : World H} {node owner : NodeId} {chain : Chain H} {symbol : Char}
  {prototype : Prototype H} {bundle : Bundle H} {baked : Bool} {tasks rest : List (Task H)}

theorem makes_dispatch (w : World H) (node : NodeId) (symbol : Char) (prototype : Prototype H)
    (s : Sentence) (bundle : Bundle H) (baked : Bool) :
    (w.dispatch node symbol prototype s bundle baked).2 = [] ∨
      ∃ call, (w.dispatch node symbol prototype s bundle baked).2 = [call] ∧
        w.Makes (w.dispatch node symbol prototype s bundle baked).1 symbol prototype
          (baked || prototype.baked) call := by
  by_cases htakes : bundle.Takes Key.sentence .sentence
  · rw [dispatch_of_takes htakes]
    obtain ⟨state, hstate, hmark⟩ := w.get?_make
      (prototype.draft symbol (w.nodes.nearestAnchor node) baked)
    exact Or.inr ⟨_, rfl, ⟨_, rfl⟩, state, hstate, congrArg Mark.symbol hmark, congrArg Mark.name hmark,
      congrArg Mark.baked hmark⟩
  · rw [dispatch_of_not_takes htakes]
    exact Or.inl rfl

/-- **A search makes a node in its chain's mode, or baked if the prototype is**; until then it goes on
with the same registry. -/
theorem makes_search (w : World H) (node : NodeId) (chain : Chain H) (baked : Bool) :
    (w.search node chain baked).2 = [] ∨
      (∃ rest, rest.core.registry = chain.core.registry ∧
        w.search node chain baked = (w, [.search node rest baked])) ∨
      ∃ symbol prototype call, chain.core.registry.find? symbol = some prototype ∧
        (w.search node chain baked).2 = [call] ∧
        w.Makes (w.search node chain baked).1 symbol prototype (baked || prototype.baked) call := by
  have hfinds := w.finds_search node chain baked
  generalize w.search node chain baked = next at hfinds ⊢
  cases hfinds with
  | last _ _ => exact Or.inl rfl
  | blank _ _ => exact Or.inl rfl
  | ended _ _ => exact Or.inl rfl
  | @exhausted current s hcurrent _ _ =>
    exact Or.inr (Or.inl ⟨{ current with core := { current.core with sentence := s } },
      hcurrent.registry, rfl⟩)
  | @found current symbol prototype s hcurrent hread =>
    obtain ⟨-, -, -, -, -, hfind, -⟩ := Sentence.exists_of_readTo_eq_found hread
    rw [hcurrent.registry] at hfind
    rcases w.makes_dispatch node symbol prototype s current.bundle baked with
      hnone | ⟨call, hcall, hmakes⟩
    · exact Or.inl hnone
    · exact Or.inr (Or.inr ⟨symbol, prototype, call, hfind, hcall, hmakes⟩)

/-- **What a search comes to**, after any number of rounds. -/
theorem makes_seeks (h : w.Seeks node chain baked (later, tasks)) :
    tasks = [] ∨ ∃ symbol prototype call, chain.core.registry.find? symbol = some prototype ∧
      tasks = [call] ∧ w.Makes later symbol prototype (baked || prototype.baked) call := by
  obtain ⟨limit, h⟩ := h
  induction limit generalizing chain with
  | zero => cases h
  | succ limit ih =>
    rw [seek_search (overflows_eq_false_of_seek h)] at h
    have hsearch := w.makes_search node chain baked
    generalize w.search node chain baked = next at h hsearch
    obtain ⟨after, found⟩ := next
    rcases hsearch with hnone | ⟨rest, hregistry, hnext⟩ | ⟨symbol, prototype, call, hfind, hcall, hmakes⟩
    · obtain rfl : found = [] := hnone
      rw [seek_of_sought sought_nil] at h
      cases h
      exact Or.inl rfl
    · rw [hnext] at h
      rw [← hregistry]
      exact ih h
    · obtain rfl : found = [call] := hcall
      obtain ⟨bundle, rfl⟩ := hmakes.call
      rw [seek_of_sought (sought_call _ _ _ _)] at h
      cases h
      exact Or.inr ⟨symbol, prototype, _, hfind, rfl, hmakes⟩

/-- **A tip is made in the mode of its branch**, whatever its prototype is marked as. -/
theorem makes_attachTip {registry : Registry H} (hfind : registry.find? symbol = some prototype)
    (w : World H) (owner : NodeId) (bundle : Bundle H) (baked : Bool) :
    ∃ call, (w.attachTip owner registry symbol bundle baked).2.2 = [call] ∧
      w.Makes (w.attachTip owner registry symbol bundle baked).2.1 symbol prototype baked call := by
  rw [attachTip, hfind]
  obtain ⟨state, hstate, hmark⟩ := w.nodes.get?_addNode_size
    { symbol, name := prototype.name, previous := some owner, ethereal := prototype.ethereal, baked
      prefab := prototype.prefab }
  exact ⟨_, rfl, ⟨_, rfl⟩, _, Arena.get?_kill hstate, congrArg Mark.symbol hmark,
    congrArg Mark.name hmark, congrArg Mark.baked hmark⟩

/-! ## Handlers that make no node -/

theorem routine_carryOnOrWarn (w : World H) (handler : String) (node : NodeId)
    (core : Except MissingEntry (Core H)) (bundle : Bundle H) :
    ∀ task ∈ (w.carryOnOrWarn handler node core bundle).tasks, task.Routine := by
  cases core with
  | ok core =>
    intro task htask
    rw [List.mem_singleton.mp htask]
    exact .carryOn node _
  | error missing => exact fun task htask => (by cases htask)

theorem routine_andDestroy {effect : Effect H} (h : ∀ task ∈ effect.tasks, task.Routine) :
    ∀ task ∈ (andDestroy node effect).tasks, task.Routine := by
  intro task htask
  rcases List.mem_append.mp htask with htask | htask
  · exact h task htask
  · rw [List.mem_singleton.mp htask]
    exact .destroy node

theorem routine_pause (w : World H) (minSeconds maxSeconds : Float) (node : NodeId)
    (bundle : Bundle H) (baked : Bool) :
    ∀ task ∈ (w.pause minSeconds maxSeconds node bundle baked).tasks, task.Routine := by
  unfold pause coreOrWarn
  intro task htask
  cases hcore : bundle.core with
  | error missing =>
    rw [hcore] at htask
    cases htask
  | ok core =>
    rw [hcore] at htask
    cases baked with
    | false => cases htask
    | true =>
      rcases List.mem_cons.mp htask with rfl | htask
      · exact .carryOn node _
      · rw [List.mem_singleton.mp htask]
        exact .destroy node

theorem routine_leaf (w : World H) (shape : LeafShape) (node : NodeId) (bundle : Bundle H)
    (baked : Bool) : ∀ task ∈ (w.leaf shape node bundle baked).tasks, task.Routine := by
  have hfinish (unfolding : Unfolding H) (later : World H) (blade : Option Blade) :
      ∀ task ∈ (unfolding.finish later blade).tasks, task.Routine := by
    intro task htask
    simp only [Unfolding.finish] at htask
    split at htask
    · rw [List.mem_singleton.mp htask]
      exact .carryOn _ _
    · cases htask
  have hunfolds := w.unfolds_leaf shape node bundle baked
  generalize w.leaf shape node bundle baked = effect at hunfolds ⊢
  cases hunfolds with
  | nothing _ _ => exact fun task htask => (by cases htask)
  | @bakes _ _ unfolding blade later _ _ => exact hfinish unfolding later blade
  | @ripe heading warnings unfolding _ =>
    exact hfinish unfolding (w.facing node heading warnings) (unfolding.outline? 1)
  | begins _ => exact fun task htask => (by cases htask)

/-- **A handler that hands its chain on sets off routine tasks.** -/
theorem routine_call [Host H] {handler : Handler H} {gone : Bool}
    (hhandler : handler.handsOn? = some gone) (w : World H) (node : NodeId) (bundle : Bundle H)
    (baked : Bool) : ∀ task ∈ (handler.call w node bundle baked).2.allTasks, task.Routine := by
  refine Effect.routine_allTasks ?_
  cases handler with
  | pause minSeconds maxSeconds => exact w.routine_pause minSeconds maxSeconds node bundle baked
  | turnRotation eulerMin eulerMax =>
    refine routine_andDestroy ?_
    cases bundle.rotation? Key.rotation with
    | none => exact routine_carryOnOrWarn _ _ _ _ _
    | some rotation => exact routine_carryOnOrWarn _ _ _ _ _
  | turnHeading axis angleMin angleMax =>
    refine routine_andDestroy ?_
    cases bundle.vec3? Key.heading with
    | none => exact routine_carryOnOrWarn _ _ _ _ _
    | some heading => exact routine_carryOnOrWarn _ _ _ _ _
  | move distanceMin distanceMax =>
    show ∀ task ∈ (w.move distanceMin distanceMax node bundle).tasks, task.Routine
    unfold move
    dsimp only
    split
    · exact routine_carryOnOrWarn _ _ _ _ _
    · exact routine_carryOnOrWarn _ _ _ _ _
  | leaf shape => exact w.routine_leaf shape node bundle baked
  | fork closing => cases hhandler
  | branch shape => cases hhandler
  | seed planted => cases hhandler
  | host foreign => cases hhandler

/-- After its tip was attended to, a branch calls no handler. -/
theorem exists_course (tipTasks : List (Task H)) (baked : Bool) {later : World H}
    {growth : Elongation H} {effect : Effect H} (heffect : effect =
      if baked then { world := later, tasks := tipTasks ++ [.carryTip growth, .ripen growth] }
      else
        { world := later
          tasks := tipTasks ++ [.carryTip growth]
          continuation := some (.branch growth) }) :
    effect.world = later ∧
      ∃ others, (∀ task ∈ others, ¬ task.IsCall) ∧ effect.allTasks = tipTasks ++ others := by
  subst heffect
  cases baked with
  | true => exact ⟨rfl, [.carryTip growth, .ripen growth], by simp [Task.IsCall], rfl⟩
  | false =>
    refine ⟨rfl, [.carryTip growth, .park (.branch growth)], by simp [Task.IsCall], ?_⟩
    exact List.append_assoc tipTasks _ _

/-- **A branch sets off no call, or that of the handler for its tip.** -/
theorem makes_branch (w : World H) (shape : BranchShape) (node : NodeId) (bundle : Bundle H)
    (baked : Bool) :
    (∀ task ∈ (w.branch shape node bundle baked).allTasks, ¬ task.IsCall) ∨
      w.Spawns (.call (.branch shape) node bundle baked)
        ((w.branch shape node bundle baked).world, (w.branch shape node bundle baked).allTasks) := by
  have hnothing : ∀ later : World H, ∀ task ∈ ({ world := later } : Effect H).allTasks, ¬ task.IsCall :=
    fun later task htask => (by cases htask)
  cases hcore : bundle.core with
  | error missing =>
    simp only [branch, coreOrWarn, hcore]
    exact Or.inl (hnothing _)
  | ok core =>
  cases hheading : bundle.vec3? Key.heading with
  | none =>
    simp only [branch, coreOrWarn, hcore, hheading]
    exact Or.inl (hnothing _)
  | some heading =>
    simp only [branch, coreOrWarn, hcore, hheading]
    split
    · exact Or.inl (hnothing w)
    · split
      · exact Or.inl (hnothing w)
      · cases hsymbol : shape.tipSymbol with
        | none =>
          obtain ⟨-, others, hothers, htasks⟩ := exists_course [] baked rfl
          refine Or.inl ?_
          rw [htasks]
          exact hothers
        | some symbol =>
          dsimp only
          obtain ⟨placed, hplaced⟩ : ∃ placed, placed = w.mapNodes (·.place node (·.face heading)) :=
            ⟨_, rfl⟩
          have hsize : placed.nodes.size = w.nodes.size := by
            rw [hplaced]
            exact Arena.size_modify _ _ _
          rw [← hplaced]
          obtain ⟨hworld, others, hothers, htasks⟩ := exists_course _ baked rfl
          rw [Spawns, hworld, htasks]
          cases hfind : core.registry.find? symbol with
          | none =>
            rw [attachTip, hfind]
            exact Or.inl hothers
          | some prototype =>
            obtain ⟨call, hcall, ⟨later, hlater⟩, hnode⟩ :=
              makes_attachTip hfind placed node bundle baked
            rw [hcall]
            rw [hsize] at hlater hnode
            exact Or.inr ⟨symbol, prototype, baked, call, others, .tip hcore hsymbol hfind baked, rfl,
              hothers, ⟨later, hlater⟩, hnode⟩

/-! ## One task -/

/-- **A task sets off no call, or makes a node for it.** Only handlers of the host are free to do
otherwise. -/
theorem spawns_perform [Host H] {task : Task H} (hhost : ¬ task.IsForeign) (w : World H) :
    (∀ other ∈ (w.perform task).2, ¬ other.IsCall) ∨ w.Spawns task (w.perform task) := by
  have hroutine : (∀ other ∈ (w.perform task).2, other.Routine) →
      (∀ other ∈ (w.perform task).2, ¬ other.IsCall) ∨ w.Spawns task (w.perform task) :=
    fun h => Or.inl fun other hother => (h other hother).not_isCall
  have hnone : (w.perform task).2 = [] →
      (∀ other ∈ (w.perform task).2, ¬ other.IsCall) ∨ w.Spawns task (w.perform task) := by
    intro h
    rw [h]
    exact Or.inl fun other hother => (by cases hother)
  cases task with
  | advance node chain baked =>
    refine Or.inl fun other hother => ?_
    rw [mem_advance hother]
    exact id
  | search node chain baked =>
    rcases w.makes_search node chain baked with
      hnil | ⟨rest, -, hrest⟩ | ⟨symbol, prototype, call, hfind, hcall, hmakes⟩
    · exact hnone hnil
    · refine Or.inl fun other hother => ?_
      rw [perform, hrest] at hother
      rw [List.mem_singleton.mp hother]
      exact id
    · exact Or.inr ⟨symbol, prototype, _, call, [], .found hfind baked, hcall,
        fun other hother => (by cases hother), hmakes⟩
  | carryOn node chain =>
    refine Or.inl fun other hother => ?_
    rw [mem_carryOn hother]
    exact id
  | destroy node => exact hnone rfl
  | park work => exact hnone rfl
  | carryTip growth => exact hnone rfl
  | publish prefab => exact hnone rfl
  | ripen growth =>
    refine hroutine fun other hother => ?_
    have hother : other ∈ (growth.ripen w).2 := hother
    simp only [Elongation.ripen, Elongation.finish] at hother
    split at hother
    · rw [List.mem_singleton.mp hother]
      exact .carryOn _ _
    · cases hother
  | call handler node bundle baked =>
    have hcall {gone : Bool} (hhandler : handler.handsOn? = some gone) :=
      hroutine (routine_call hhandler w node bundle baked)
    cases handler with
    | fork closing => exact hroutine (w.routine_fork closing node bundle)
    | branch shape => exact w.makes_branch shape node bundle baked
    | seed planted =>
      refine Or.inl fun other hother => ?_
      have hstarts := Handler.starts_call planted w node bundle baked
      rcases Effect.mem_allTasks hother with hmem | ⟨work, rfl⟩
      · rcases hstarts.tasks other hmem with ⟨position, rfl⟩ | ⟨prefab, rfl⟩
        · exact id
        · exact id
      · exact id
    | host foreign => exact absurd trivial hhost
    | _ => exact hcall rfl

/-! ## Whole runs -/

/-- A handler is called right after a node was made for it. -/
def Spawned [Host H] (w : World H) (tasks : List (Task H)) (later : World H) (call : Task H) : Prop :=
  ∃ mid task left symbol prototype baked, Comes w tasks mid (task :: left) ∧
    task.MakesIn symbol prototype baked ∧ mid.Makes later symbol prototype baked call

/-- No call waits behind other tasks, and the one that is next was just set off. -/
structure Prompt [Host H] (w : World H) (tasks : List (Task H)) (later : World H)
    (left : List (Task H)) : Prop where
  comes : Comes w tasks later left
  behind : ∀ task ∈ left.tail, ¬ task.IsCall
  next : ∀ task ∈ left.head?, task.IsCall → w.Spawned tasks later task

theorem Prompt.step [Host H] {task : Task H} (hhost : ¬ task.IsForeign)
    (goes : later.halts task = false) (h : w.Prompt tasks later (task :: rest)) :
    w.Prompt tasks (later.perform task).1 ((later.perform task).2 ++ rest) := by
  have hcomes : Comes w tasks (later.perform task).1 ((later.perform task).2 ++ rest) :=
    h.comes.trans (Comes.step rfl goes)
  rcases later.spawns_perform hhost with hnone | ⟨symbol, prototype, baked, call, others, hmakes, htasks,
    hothers, hmade⟩
  · have hall : ∀ other ∈ (later.perform task).2 ++ rest, ¬ other.IsCall := fun other hother =>
      (List.mem_append.mp hother).elim (hnone other) (h.behind other)
    exact ⟨hcomes, fun other hother => hall other (List.mem_of_mem_tail hother),
      fun other hother hcall => absurd hcall (hall other (List.mem_of_mem_head? hother))⟩
  · rw [htasks] at hcomes ⊢
    refine ⟨hcomes, fun other hother => (List.mem_append.mp hother).elim (hothers other) (h.behind other),
      fun other hother _ => ?_⟩
    obtain rfl : call = other := Option.some.inj hother
    exact ⟨later, task, rest, symbol, prototype, baked, h.comes, hmakes, hmade⟩

/-- **Whatever handler is called in a run, its node was made in the step before**, if the run begins
without calls. -/
theorem spawned_of_comes [Host H] {call : Task H} (hstart : ∀ task ∈ tasks, ¬ task.IsCall)
    (hhost : ∀ mid task left, Comes w tasks mid (task :: left) → ¬ task.IsForeign)
    (h : Comes w tasks later (call :: rest)) (hcall : call.IsCall) : w.Spawned tasks later call := by
  have hprompt : w.Prompt tasks later (call :: rest) :=
    h.invariant (P := w.Prompt tasks) (fun mid task left goes hmid => hmid.step (hhost mid task left hmid.comes) goes)
      ⟨Comes.refl w tasks, fun task htask => hstart task (List.mem_of_mem_tail htask),
        fun task htask hcall => absurd hcall (hstart task (List.mem_of_mem_head? htask))⟩
  exact hprompt.next call rfl hcall

/-- **The mode in which a baked prototype is used.** A search bakes it, whatever the chain does. At the
tip of a branch it is baked exactly if the branch is. In a run there is no other place for it, so that
it is live at the tip of a live branch only. -/
theorem baked_prototypes [Host H] (w : World H) :
    (∀ node chain mode later tasks, w.Seeks node chain mode (later, tasks) → tasks = [] ∨
      ∃ symbol prototype baked call, chain.core.registry.find? symbol = some prototype ∧
        tasks = [call] ∧ w.Makes later symbol prototype baked call ∧
        (prototype.baked = true → baked = true) ∧ (prototype.baked = false → baked = mode)) ∧
    (∀ owner registry symbol prototype bundle mode, registry.find? symbol = some prototype →
      ∃ call, (w.attachTip owner registry symbol bundle mode).2.2 = [call] ∧
        w.Makes (w.attachTip owner registry symbol bundle mode).2.1 symbol prototype mode call) ∧
    ∀ tasks, (∀ task ∈ tasks, ¬ task.IsCall) →
      (∀ mid task left, Comes w tasks mid (task :: left) → ¬ task.IsForeign) →
      ∀ later call rest, Comes w tasks later (call :: rest) → call.IsCall →
        ∃ mid task left symbol prototype baked, Comes w tasks mid (task :: left) ∧
          task.MakesIn symbol prototype baked ∧ mid.Makes later symbol prototype baked call ∧
          (prototype.baked = true → baked = true ∨ ∃ owner shape bundle,
            task = .call (.branch shape) owner bundle false ∧ shape.tipSymbol = some symbol) := by
  refine ⟨fun node chain mode later tasks h => ?_, fun owner registry symbol prototype bundle mode h =>
    makes_attachTip h w owner bundle mode, fun tasks hstart hhost later call rest h hcall => ?_⟩
  · rcases makes_seeks h with hnone | ⟨symbol, prototype, call, hfind, htasks, hmakes⟩
    · exact Or.inl hnone
    · refine Or.inr ⟨symbol, prototype, _, call, hfind, htasks, hmakes, fun hbaked => ?_, fun hlive => ?_⟩
      · rw [hbaked, Bool.or_true]
      · rw [hlive, Bool.or_false]
  · obtain ⟨mid, task, left, symbol, prototype, baked, hcomes, hmakes, hmade⟩ :=
      spawned_of_comes hstart hhost h hcall
    refine ⟨mid, task, left, symbol, prototype, baked, hcomes, hmakes, hmade, fun hbaked => ?_⟩
    cases hmakes with
    | found hfind mode =>
      rw [hbaked, Bool.or_true]
      exact Or.inl rfl
    | tip hcore hsymbol hfind =>
      cases baked with
      | true => exact Or.inl rfl
      | false => exact Or.inr ⟨_, _, _, rfl, hsymbol⟩

/-- A pause that is to be baked. -/
def firm : Prototype Empty := { lull with baked := true }

/-- A registry with a pause that is to be baked. -/
def hard : Registry Empty := SymbolTable.empty.insert 'F' firm

/-- A chain that does not bake, in front of a pause that is to be baked. -/
def rouse : Chain Empty where
  core := { sentence := .ofString "F", registry := hard, rules := {} }
  bundle := .empty

/-- A chain that does not bake comes to a baked pause. -/
theorem firm_bakes : ∃ later call, stump.Seeks 0 rouse false (later, [call]) ∧
    stump.Makes later 'F' firm true call := by
  obtain ⟨later, call, hseeks⟩ : ∃ later call, stump.Seeks 0 rouse false (later, [call]) :=
    ⟨_, _, 2, rfl⟩
  refine ⟨later, call, hseeks, ?_⟩
  obtain hnone | ⟨symbol, prototype, baked, other, hfind, htasks, hmakes, hbaked, -⟩ :=
    (baked_prototypes stump).1 0 rouse false later [call] hseeks
  · cases hnone
  · cases htasks
    have hbound : (if symbol = 'F' then some firm else none) = some prototype := by
      rw [← hfind]
      exact (SymbolTable.find?_insert SymbolTable.empty 'F' symbol firm).symm
    split at hbound
    · cases hbound
      subst symbol
      rwa [hbaked rfl] at hmakes
    · cases hbound

/-- At the tip of a live branch a baked prototype is not baked. -/
theorem firm_lives : firm.baked = true ∧ hard.find? 'F' = some firm ∧
    ∃ later : World Empty, stump.attachTip 0 hard 'F' .empty false =
        (some 1, later, [.call firm.handler 1 .empty false]) ∧
      (later.nodes.get? 1).map (·.baked) = some false :=
  ⟨rfl, rfl, _, rfl, rfl⟩

end World

end PlantGrowth
