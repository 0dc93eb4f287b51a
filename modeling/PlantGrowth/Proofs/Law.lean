import PlantGrowth.Proofs.Calls
import PlantGrowth.Proofs.Course
import PlantGrowth.Proofs.Reading

/-!
# Laws of sentences

While a plant grows its sentences are read on, cut apart and rewritten, in many chains at once. A
*law* says what holds of them: of a sentence that waits to be read on, and of one that a handler acts
with. It is sound if the few operations on sentences keep it. A sound law then holds of every chain
in every garden, live or baked, through plants within plants (`Law.Sound.invariant`).

## Where the calls are

A handler is called right after its node was made, so of the tasks that are still to be done only
the first one can be a call. Therefore nothing has to be said about how the nodes of later calls fare
in the meantime.
-/

namespace PlantGrowth

/-- What holds of the sentences of the plants in a garden. -/
structure Law where
  /-- The seeds whose plants grow in the garden. -/
  grows : Seed Empty → Prop
  /-- What holds of a sentence that waits to be read on. -/
  reads : Seed Empty → Sentence → Prop
  /-- What holds of the sentence when the handler of a symbol acts. -/
  acts : Seed Empty → Char → Sentence → Prop

/-- The operations on sentences keep the law. -/
structure Law.Sound (law : Law) : Prop where
  start : ∀ {seed}, law.grows seed → law.reads seed seed.grammar.1
  within : ∀ {seed inner symbol prototype}, law.grows seed →
    seed.registry.find? symbol = some prototype → prototype.handler = .seed inner →
    law.grows inner
  renew : ∀ {seed s}, law.grows seed → law.reads seed s → law.reads seed (seed.grammar.2.apply s)
  found : ∀ {seed s symbol prototype later}, law.grows seed → law.reads seed s →
    s.readTo seed.registry s.unread = .found symbol prototype later → law.acts seed symbol later
  exhausted : ∀ {seed s later}, law.grows seed → law.reads seed s →
    s.readTo seed.registry s.unread = .exhausted later → law.reads seed later
  handOn : ∀ {seed s symbol prototype}, law.grows seed →
    seed.registry.find? symbol = some prototype →
    (∀ closing, prototype.handler ≠ .fork closing) → law.acts seed symbol s → law.reads seed s
  fork : ∀ {seed s symbol prototype closing interior residue}, law.grows seed →
    seed.registry.find? symbol = some prototype → prototype.handler = .fork closing →
    law.acts seed symbol s → s.takeBranch symbol closing = (.ok interior, residue) →
    law.reads seed residue ∧ law.reads seed interior
  tip : ∀ {seed s symbol prototype shape tip other}, law.grows seed →
    seed.registry.find? symbol = some prototype → prototype.handler = .branch shape →
    shape.tipSymbol = some tip → seed.registry.find? tip = some other →
    law.acts seed symbol s → law.acts seed tip s

/-! ## Tasks and continuations under a law -/

variable {law : Law}

/-- The chain is one of a seed's plant, and its sentence keeps to the law. -/
def Chain.Obeys (law : Law) (chain : Chain Empty) : Prop :=
  ∃ seed, law.grows seed ∧ chain.Follows seed ∧ law.reads seed chain.core.sentence

/-- The chain that waits, if any, keeps to the law. -/
def Continuation.Obeys (law : Law) (work : Continuation Empty) : Prop :=
  ∀ chain, work.chain? = some chain → chain.Obeys law

/-- A task that is no call, with a chain that keeps to the law. -/
def Task.Obeys (law : Law) : Task Empty → Prop
  | .advance _ chain _ => chain.Obeys law
  | .search _ chain _ => chain.Obeys law
  | .call .. => False
  | .carryOn _ chain => chain.Obeys law
  | .destroy _ => True
  | .park work => work.Obeys law
  | .carryTip growth => (Continuation.branch growth).Obeys law
  | .ripen growth => (Continuation.branch growth).Obeys law
  | .publish _ => True

/-- A call that keeps to the law: of the handler that is bound to the node's symbol, or of the
seed that everything grows from. -/
inductive Law.Calls (law : Law) (w : World Empty) (node : NodeId) (bundle : Bundle Empty) :
    Handler Empty → Prop where
  | bound {seed : Seed Empty} {symbol : Char} {prototype : Prototype Empty} {s : Sentence}
      {state : Node} (grows : law.grows seed) (follows : bundle.Follows seed)
      (sentence : bundle.find? Key.sentence = some (.sentence s))
      (find : seed.registry.find? symbol = some prototype) (acts : law.acts seed symbol s)
      (hnode : w.nodes.get? node = some state) (hsymbol : state.symbol = symbol) :
      Calls law w node bundle prototype.handler
  | root {seed : Seed Empty} (grows : law.grows seed) (tidy : bundle.Tidy) :
      Calls law w node bundle (.seed seed)

/-- The first task keeps to the law. -/
def Law.Heads (law : Law) (w : World Empty) (task : Task Empty) : Prop :=
  task.Obeys law ∨ ∃ handler node bundle baked, task = .call handler node bundle baked ∧
    law.Calls w node bundle handler

/-- The tasks keep to the law; only the first one may be a call. -/
def Law.Stage (law : Law) (w : World Empty) : List (Task Empty) → Prop
  | [] => True
  | task :: rest => law.Heads w task ∧ ∀ other ∈ rest, other.Obeys law

theorem Law.Stage.of_forall {w : World Empty} {tasks : List (Task Empty)}
    (h : ∀ task ∈ tasks, task.Obeys law) : law.Stage w tasks := by
  cases tasks with
  | nil => trivial
  | cons task rest =>
    exact ⟨Or.inl (h task List.mem_cons_self), fun other hother =>
      h other (List.mem_cons_of_mem task hother)⟩

theorem Law.Stage.append {w : World Empty} {tasks rest : List (Task Empty)}
    (h : law.Stage w tasks) (hrest : ∀ task ∈ rest, task.Obeys law) :
    law.Stage w (tasks ++ rest) := by
  cases tasks with
  | nil => exact Law.Stage.of_forall hrest
  | cons task others =>
    refine ⟨h.1, fun other hother => ?_⟩
    rcases List.mem_append.mp hother with hmem | hmem
    · exact h.2 other hmem
    · exact hrest other hmem

/-- What is parked keeps to the law if what was parked before does. -/
def Law.Parks (law : Law) (w later : World Empty) : Prop :=
  (∀ work ∈ w.parked.toList, work.Obeys law) → ∀ work ∈ later.parked.toList, work.Obeys law

theorem World.Calm.parks {w later : World Empty} (h : w.Calm later) : law.Parks w later := by
  intro hw work hwork
  rcases h.parked work hwork with hold | ⟨scaling, rfl⟩
  · exact hw work hold
  · intro chain hchain
    cases hchain

theorem Law.Parks.park {w : World Empty} {work : Continuation Empty} (h : work.Obeys law) :
    law.Parks w (w.park work) := by
  intro hw other hother
  rw [World.park, Array.toList_push] at hother
  rcases List.mem_append.mp hother with hold | hnew
  · exact hw other hold
  · rw [List.mem_singleton.mp hnew]
    exact h

/-- A chain that follows one that keeps to the law, with the same core. -/
theorem Chain.Obeys.leads {chain later : Chain Empty} (h : chain.Obeys law)
    (hleads : chain.Leads later) : later.Obeys law := by
  obtain ⟨seed, hgrows, hfollows, hreads⟩ := h
  obtain ⟨hcore, hbundle⟩ := hleads
  refine ⟨seed, hgrows, ⟨?_, ?_, (hbundle seed hfollows.bundle).follows⟩, ?_⟩
  · rw [hcore, hfollows.registry]
  · rw [hcore, hfollows.rules]
  · rw [hcore]
    exact hreads

/-! ## One task -/

/-- The new tasks and what is parked keep to the law, after a step. -/
def Law.Kept (law : Law) (w : World Empty) (next : World Empty × List (Task Empty)) : Prop :=
  law.Stage next.1 next.2 ∧ law.Parks w next.1

namespace Law.Sound

variable {w : World Empty} {node : NodeId} {chain : Chain Empty} {baked : Bool}

theorem kept_carryOn (h : chain.Obeys law) : law.Kept w (w.carryOn node chain) := by
  have hadvance : law.Kept w (w, [.advance node chain true]) := by
    refine ⟨Law.Stage.of_forall fun task htask => ?_, (World.Calm.refl w).parks⟩
    rw [List.mem_singleton.mp htask]
    exact h
  have hpark : law.Kept w (w.parkNext node chain, []) := by
    refine ⟨trivial, Law.Parks.park fun other hother => ?_⟩
    rw [← Option.some.inj hother]
    exact h
  rcases w.carryOn_cases node chain with ⟨heq, -⟩ | ⟨heq, -⟩
  · rw [heq]
    exact hadvance
  · rw [heq]
    exact hpark

theorem kept_advance (h : chain.Obeys law) : law.Kept w (w.advance node chain baked) := by
  rcases w.advance_cases node chain baked with ⟨-, heq⟩ | ⟨-, heq⟩
  · rw [heq]
    exact ⟨trivial, (World.Calm.refl w).parks⟩
  · rw [heq]
    refine ⟨Law.Stage.of_forall fun task htask => ?_, (World.Calm.refl w).parks⟩
    rw [List.mem_singleton.mp htask]
    exact h

/-- A dispatch calls the handler of the symbol that was found. -/
theorem kept_dispatch {seed : Seed Empty} {bundle : Bundle Empty} {s : Sentence} {symbol : Char}
    {prototype : Prototype Empty} (hgrows : law.grows seed) (hbundle : bundle.Follows seed)
    (hfind : seed.registry.find? symbol = some prototype) (hacts : law.acts seed symbol s) :
    law.Kept w (w.dispatch node symbol prototype s bundle baked) := by
  obtain ⟨hlater, hsentence⟩ := hbundle.dispatch s
  obtain ⟨made, hmade, hmark⟩ := w.get?_make
    (prototype.draft symbol (w.nodes.nearestAnchor node) baked)
  rw [World.dispatch_eq hbundle.tidy]
  refine ⟨⟨Or.inr ⟨_, _, _, _, rfl, ?_⟩, fun other hother => (by cases hother)⟩,
    (World.Calm.of_eq rfl rfl).parks⟩
  exact Law.Calls.bound hgrows hlater.follows hsentence hfind hacts hmade
    (congrArg Mark.symbol hmark)

theorem obeys_of_current (sound : law.Sound) {usual : Nat} {current : Chain Empty}
    (h : chain.Obeys law) (hcurrent : chain.Current usual current) : current.Obeys law := by
  cases hcurrent with
  | same _ => exact h
  | renewed _ hrenew =>
    obtain ⟨seed, hgrows, hfollows, hreads⟩ := h
    obtain ⟨hrenewed, hsentence, -, -⟩ := hfollows.renew hrenew
    refine ⟨seed, hgrows, hrenewed, ?_⟩
    rw [hsentence]
    exact sound.renew hgrows hreads

/-- **What is found is bound in the plant**, and a node is made for it. -/
theorem dispatch_of_found (sound : law.Sound) {current : Chain Empty} {symbol : Char}
    {prototype : Prototype Empty} {s : Sentence} (h : chain.Obeys law)
    (hcurrent : chain.Current w.settings.maxGenerations current)
    (hreading : current.core.sentence.readTo current.core.registry current.core.sentence.unread =
      .found symbol prototype s) (node : NodeId) (baked : Bool) :
    ∃ seed, law.grows seed ∧ current.bundle.Follows seed ∧
      seed.registry.find? symbol = some prototype ∧ law.acts seed symbol s ∧
      w.dispatch node symbol prototype s current.bundle baked =
        (w.make (prototype.draft symbol (w.nodes.nearestAnchor node) baked),
          [.call prototype.handler w.nodes.size (current.bundle.write Key.sentence (.sentence s))
            (baked || prototype.baked)]) := by
  obtain ⟨seed, hgrows, hfollows, hreads⟩ := sound.obeys_of_current h hcurrent
  rw [hfollows.registry] at hreading
  obtain ⟨-, -, -, -, -, hfind, -⟩ := Sentence.exists_of_readTo_eq_found hreading
  exact ⟨seed, hgrows, hfollows.bundle, hfind, sound.found hgrows hreads hreading,
    World.dispatch_eq hfollows.bundle.tidy w node symbol prototype s baked⟩

theorem kept_search (sound : law.Sound) (h : chain.Obeys law) :
    law.Kept w (w.search node chain baked) := by
  have hnothing : law.Kept w (w, []) := ⟨trivial, (World.Calm.refl w).parks⟩
  have hfinds := w.finds_search node chain baked
  generalize w.search node chain baked = next at hfinds ⊢
  cases hfinds with
  | last _ _ => exact hnothing
  | blank _ _ => exact hnothing
  | ended _ _ => exact hnothing
  | found hcurrent hreading =>
    obtain ⟨seed, hgrows, hbundle, hfind, hacts, -⟩ :=
      sound.dispatch_of_found h hcurrent hreading node baked
    exact kept_dispatch hgrows hbundle hfind hacts
  | exhausted hcurrent _ hreading =>
    obtain ⟨seed, hgrows, hfollows, hreads⟩ := sound.obeys_of_current h hcurrent
    rw [hfollows.registry] at hreading
    refine ⟨Law.Stage.of_forall fun task htask => ?_, (World.Calm.refl w).parks⟩
    rw [List.mem_singleton.mp htask]
    exact ⟨seed, hgrows, ⟨hfollows.registry, hfollows.rules, hfollows.bundle⟩,
      sound.exhausted hgrows hreads hreading⟩

/-! ### Calls -/

theorem obeys_core {seed : Seed Empty} {bundle : Bundle Empty} {s : Sentence}
    (hgrows : law.grows seed) (hfollows : bundle.Follows seed) (hreads : law.reads seed s) :
    ({ core := seed.core s, bundle } : Chain Empty).Obeys law :=
  ⟨seed, hgrows, Seed.follows_core hfollows s, hreads⟩

theorem obeys_passing (gone : Bool) (node : NodeId) :
    ∀ task ∈ (Task.passing gone node : List (Task Empty)), task.Obeys law := by
  intro task htask
  cases gone with
  | true =>
    rw [List.mem_singleton.mp htask]
    trivial
  | false => cases htask

/-- An effect's tasks come before the one that parks what is left for later. -/
theorem kept_effect {effect : Effect Empty} (htasks : law.Stage effect.world effect.tasks)
    (hcontinuation : ∀ work, effect.continuation = some work → work.Obeys law)
    (hparks : law.Parks w effect.world) : law.Kept w (effect.world, effect.allTasks) := by
  refine ⟨?_, hparks⟩
  rw [Effect.allTasks]
  cases hwork : effect.continuation with
  | none => exact htasks
  | some work =>
    refine htasks.append fun task htask => ?_
    rw [List.mem_singleton.mp htask]
    exact hcontinuation work hwork

theorem kept_handsOn {seed : Seed Empty} {bundle : Bundle Empty} {s : Sentence} {gone : Bool}
    {effect : Effect Empty} (hgrows : law.grows seed) (hfollows : bundle.Follows seed)
    (hreads : law.reads seed s) (h : effect.HandsOn seed s gone w node bundle baked) :
    law.Kept w (effect.world, effect.allTasks) := by
  obtain ⟨hquiet, ⟨later, hsucceeds, hnone, htasks⟩ | ⟨-, htasks, work, hwork, hkeeps⟩⟩ := h
  · refine kept_effect ?_ (fun work hwork => (by rw [hnone] at hwork; cases hwork))
      hquiet.calm.parks
    rw [htasks]
    exact ⟨Or.inl (obeys_core hgrows hsucceeds.follows hreads), obeys_passing gone node⟩
  · refine kept_effect ?_ (fun other hother => ?_) hquiet.calm.parks
    · rw [htasks]
      trivial
    · obtain rfl : work = other := Option.some.inj (hwork.symm.trans hother)
      intro chain hchain
      rw [← Option.some.inj (hkeeps.chain?_eq.symm.trans hchain)]
      exact obeys_core hgrows hfollows hreads

theorem kept_fork (sound : law.Sound) {seed : Seed Empty} {bundle : Bundle Empty} {s : Sentence}
    {symbol closing : Char} {prototype : Prototype Empty} {state : Node} (hgrows : law.grows seed)
    (hfollows : bundle.Follows seed) (hs : bundle.find? Key.sentence = some (.sentence s))
    (hfind : seed.registry.find? symbol = some prototype)
    (hhandler : prototype.handler = .fork closing) (hacts : law.acts seed symbol s)
    (hnode : w.nodes.get? node = some state) (hsymbol : state.symbol = symbol) :
    law.Kept w ((w.fork closing node bundle).world, (w.fork closing node bundle).allTasks) := by
  have hopening : (w.nodes.get? node).map (·.symbol) = some symbol := by
    rw [hnode, Option.map_some, hsymbol]
  have hparked : ∀ later : World Empty, later.parked = w.parked → law.Parks w later := by
    intro later hlater hw
    rwa [hlater]
  rw [World.fork_eq hfollows hs closing hopening]
  rcases hcut : s.takeBranch symbol closing with ⟨interior | interior, residue⟩
  · exact kept_effect trivial (fun work hwork => (by cases hwork)) (hparked _ rfl)
  · obtain ⟨hresidue, hinterior⟩ := sound.fork hgrows hfind hhandler hacts hcut
    refine kept_effect ?_ (fun work hwork => (by cases hwork)) (hparked _ rfl)
    refine ⟨Or.inl (obeys_core hgrows hfollows hresidue), fun task htask => ?_⟩
    rcases List.mem_cons.mp htask with rfl | htask
    · exact obeys_core hgrows hfollows hinterior
    · rw [List.mem_singleton.mp htask]
      trivial

theorem kept_branch (sound : law.Sound) {seed : Seed Empty} {bundle : Bundle Empty} {s : Sentence}
    {symbol : Char} {shape : BranchShape} {prototype : Prototype Empty} (hgrows : law.grows seed)
    (hfollows : bundle.Follows seed) (hs : bundle.find? Key.sentence = some (.sentence s))
    (hfind : seed.registry.find? symbol = some prototype)
    (hhandler : prototype.handler = .branch shape) (hacts : law.acts seed symbol s) :
    law.Kept w ((w.branch shape node bundle baked).world,
      (w.branch shape node bundle baked).allTasks) := by
  rcases World.branch_cases_of_follows hfollows hs shape w node baked with
    ⟨-, hnothing⟩ | ⟨-, growth, tipTasks, hbranches⟩
  · rw [hnothing]
    exact kept_effect trivial (fun work hwork => (by cases hwork)) (World.Calm.refl w).parks
  · have hreads : law.reads seed s := by
      refine sound.handOn hgrows hfind (fun closing h => ?_) hacts
      rw [hhandler] at h
      cases h
    have hgrowth : (Continuation.branch growth).Obeys law := by
      intro chain hchain
      rw [← Option.some.inj (hbranches.work.symm.trans hchain)]
      exact obeys_core hgrows hfollows hreads
    have htip : law.Stage (w.branch shape node bundle baked).world tipTasks := by
      cases hbranches.tip with
      | none _ => trivial
      | call hsymbol hother hnode hstate _ =>
        refine ⟨Or.inr ⟨_, _, _, _, rfl, ?_⟩, fun other hmem => (by cases hmem)⟩
        exact Law.Calls.bound hgrows hfollows hs hother
          (sound.tip hgrows hfind hhandler hsymbol hother hacts) hnode hstate
    refine kept_effect ?_ (fun work hwork => ?_) hbranches.calm.parks
    · rw [hbranches.tasks]
      refine htip.append fun task htask => ?_
      cases baked with
      | true =>
        rcases List.mem_cons.mp htask with rfl | htask
        · exact hgrowth
        · rw [List.mem_singleton.mp htask]
          exact hgrowth
      | false =>
        rw [List.mem_singleton.mp htask]
        exact hgrowth
    · rw [hbranches.continuation] at hwork
      cases baked with
      | true => cases hwork
      | false =>
        cases hwork
        exact hgrowth

theorem kept_seed (sound : law.Sound) {planted : Seed Empty} {bundle : Bundle Empty}
    (hgrows : law.grows planted) (tidy : bundle.Tidy) :
    law.Kept w (((Handler.seed planted).call w node bundle baked).2.world,
      ((Handler.seed planted).call w node bundle baked).2.allTasks) := by
  have hstarts := Handler.starts_call planted w node bundle baked
  refine kept_effect (Law.Stage.of_forall fun task htask => ?_) (fun work hwork => ?_)
    hstarts.calm.parks
  · rcases hstarts.tasks task htask with ⟨position, rfl⟩ | ⟨prefab, rfl⟩
    · exact ⟨planted, hgrows, Seed.follows_chain tidy, sound.start hgrows⟩
    · trivial
  · rw [hstarts.continuation] at hwork
    cases hwork

/-- **A call that keeps to the law sets off tasks that keep to it.** -/
theorem kept_call (sound : law.Sound) {handler : Handler Empty} {bundle : Bundle Empty}
    (h : law.Calls w node bundle handler) :
    law.Kept w (w.perform (.call handler node bundle baked)) := by
  show law.Kept w ((handler.call w node bundle baked).2.world,
    (handler.call w node bundle baked).2.allTasks)
  cases h with
  | root hgrows tidy => exact sound.kept_seed hgrows tidy
  | @bound seed symbol prototype s state hgrows hfollows hs hfind hacts hnode hsymbol =>
    rcases prototype.handler.handsOn_or with
      ⟨gone, hgone⟩ | ⟨closing, hhandler⟩ | ⟨shape, hhandler⟩ | ⟨planted, hhandler⟩
    · have hreads : law.reads seed s := by
        refine sound.handOn hgrows hfind (fun closing hfork => ?_) hacts
        rw [hfork] at hgone
        cases hgone
      exact kept_handsOn hgrows hfollows hreads
        (Handler.handsOn_call hgone hfollows hs (Arena.contains_of_get? hnode) baked)
    · rw [hhandler]
      exact sound.kept_fork hgrows hfollows hs hfind hhandler hacts hnode hsymbol
    · rw [hhandler]
      exact sound.kept_branch hgrows hfollows hs hfind hhandler hacts
    · rw [hhandler]
      exact sound.kept_seed (sound.within hgrows hfind hhandler) hfollows.tidy

/-! ### Any task -/

/-- **One step keeps the law.** -/
theorem kept_perform (sound : law.Sound) {task : Task Empty} (h : law.Heads w task) :
    law.Kept w (w.perform task) := by
  rcases h with h | ⟨handler, node, bundle, baked, rfl, hcall⟩
  · cases task with
    | advance predecessor chain baked => exact kept_advance h
    | search predecessor chain baked => exact sound.kept_search h
    | call handler node bundle baked => exact h.elim
    | carryOn node chain => exact kept_carryOn h
    | destroy node => exact ⟨trivial, (World.Calm.of_eq rfl rfl).parks⟩
    | park work => exact ⟨trivial, Law.Parks.park h⟩
    | carryTip growth => exact ⟨trivial, (growth.quiet_carryTip w).calm.parks⟩
    | ripen growth =>
      refine ⟨Law.Stage.of_forall fun task htask => ?_, (growth.quiet_ripen w).calm.parks⟩
      obtain ⟨chain, later, hwork, hleads, rfl⟩ := growth.exists_of_mem_ripen w htask
      exact (h chain hwork).leads hleads
    | publish prefab => exact ⟨trivial, (World.calm_publish w prefab).parks⟩
  · exact sound.kept_call hcall

theorem forkFailures_carryOn (node : NodeId) (chain : Chain Empty) :
    (w.carryOn node chain).1.forkFailures = w.forkFailures := by
  rcases w.carryOn_cases node chain with ⟨heq, -⟩ | ⟨heq, -⟩
  · rw [heq]
  · rw [heq]
    rfl

theorem forkFailures_search (sound : law.Sound) (h : chain.Obeys law) :
    (w.search node chain baked).1.forkFailures = w.forkFailures := by
  have hfinds := w.finds_search node chain baked
  generalize w.search node chain baked = next at hfinds ⊢
  cases hfinds with
  | last _ _ => rfl
  | blank _ _ => rfl
  | ended _ _ => rfl
  | found hcurrent hreading =>
    obtain ⟨-, -, -, -, -, heq⟩ := sound.dispatch_of_found h hcurrent hreading node baked
    rw [heq]
    rfl
  | exhausted _ _ _ => rfl

theorem forkFailures_call {handler : Handler Empty} {bundle : Bundle Empty}
    (h : law.Calls w node bundle handler) (hfork : ∀ closing, handler ≠ .fork closing) :
    (handler.call w node bundle baked).2.world.forkFailures = w.forkFailures := by
  cases h with
  | root _ _ => exact (Handler.starts_call _ w node bundle baked).calm.forkFailures
  | @bound seed symbol prototype s state _ hfollows hs _ _ hnode _ =>
    rcases prototype.handler.handsOn_or with
      ⟨gone, hgone⟩ | ⟨closing, hhandler⟩ | ⟨shape, hhandler⟩ | ⟨planted, hhandler⟩
    · exact (Handler.handsOn_call hgone hfollows hs
        (Arena.contains_of_get? hnode) baked).1.forkFailures
    · exact absurd hhandler (hfork closing)
    · rw [hhandler]
      show (w.branch shape node bundle baked).world.forkFailures = w.forkFailures
      rcases World.branch_cases_of_follows hfollows hs shape w node baked with
        ⟨-, hnothing⟩ | ⟨-, growth, tipTasks, hbranches⟩
      · rw [hnothing]
      · exact hbranches.calm.forkFailures
    · rw [hhandler]
      exact (Handler.starts_call planted w node bundle baked).calm.forkFailures

/-- **No fork fails but in a call of a fork.** -/
theorem forkFailures_perform (sound : law.Sound) {task : Task Empty} (h : law.Heads w task)
    (hfork : ∀ closing node bundle baked, task ≠ .call (.fork closing) node bundle baked) :
    (w.perform task).1.forkFailures = w.forkFailures := by
  rcases h with h | ⟨handler, node, bundle, baked, rfl, hcall⟩
  · cases task with
    | advance predecessor chain baked =>
      show (w.advance predecessor chain baked).1.forkFailures = _
      rw [World.fst_advance]
    | search predecessor chain baked => exact sound.forkFailures_search h
    | call handler node bundle baked => exact h.elim
    | carryOn node chain => exact forkFailures_carryOn node chain
    | destroy node => rfl
    | park work => rfl
    | carryTip growth => exact (growth.quiet_carryTip w).forkFailures
    | ripen growth => exact (growth.quiet_ripen w).forkFailures
    | publish prefab => exact (World.calm_publish w prefab).forkFailures
  · refine forkFailures_call hcall fun closing heq => ?_
    rw [heq] at hfork
    exact hfork closing node bundle baked rfl

/-! ### Any continuation -/

theorem kept_resume {work : Continuation Empty} (h : work.Obeys law) :
    law.Kept w ((work.resume w).world, (work.resume w).tasks) ∧
      (work.resume w).continuation.Obeys law := by
  refine ⟨⟨Law.Stage.of_forall fun task htask => ?_, (work.quiet_resume w).calm.parks⟩,
    fun chain hchain => h chain (work.chain?_of_resume w hchain)⟩
  rcases work.exists_of_mem_resume w htask with
    ⟨node, rfl⟩ | ⟨node, chain, later, -, hwork, hleads, ⟨baked, rfl⟩ | rfl⟩
  · trivial
  · exact (h chain hwork).leads hleads
  · exact (h chain hwork).leads hleads

end Law.Sound

/-! ## The whole course -/

/-- The tasks, what is parked and what waits all keep to the law. -/
structure Law.Governs (law : Law) (w : World Empty) (tasks : List (Task Empty))
    (waiting : List (Continuation Empty)) : Prop where
  tasks : law.Stage w tasks
  parked : ∀ work ∈ w.parked.toList, work.Obeys law
  waiting : ∀ work ∈ waiting, work.Obeys law

/-- **A sound law is kept by every step of growth.** -/
theorem Law.Sound.invariant (sound : law.Sound) : Garden.Invariant law.Governs where
  perform := by
    intro w task rest waiting h
    obtain ⟨hstage, hparks⟩ := sound.kept_perform h.tasks.1
    exact ⟨hstage.append h.tasks.2, hparks h.parked, h.waiting⟩
  resume := by
    intro w work waiting h
    obtain ⟨⟨hstage, hparks⟩, hleft⟩ :=
      Law.Sound.kept_resume (w := w) (h.waiting work List.mem_cons_self)
    refine ⟨hstage, hparks h.parked, fun other hother => ?_⟩
    by_cases hpending : (work.resume w).step = .pending
    · rw [if_pos hpending] at hother
      rcases List.mem_cons.mp hother with rfl | hmem
      · exact hleft
      · exact h.waiting other (List.mem_cons_of_mem work hmem)
    · rw [if_neg hpending] at hother
      exact h.waiting other (List.mem_cons_of_mem work hother)
  reorder := by
    intro w tasks waiting other hperm h
    exact ⟨h.tasks, h.parked, fun work hwork => h.waiting work (hperm.mem_iff.mpr hwork)⟩
  unpark := by
    intro w waiting h
    refine ⟨trivial, fun work hwork => (by cases hwork), fun work hwork => ?_⟩
    rcases List.mem_append.mp hwork with hmem | hmem
    · exact h.waiting work hmem
    · exact h.parked work hmem
  elapse := by
    intro w waiting seconds h
    exact ⟨trivial, h.parked, h.waiting⟩

/-- A sound law governs the planting of a plan whose seed it is for. -/
theorem Law.governs_seedbed {plan : PlantPlan} {settings : Settings} {seed : Seed Empty}
    (hgrows : law.grows seed) :
    law.Governs (Garden.seedbed plan settings) [Garden.rootTask plan seed] [] := by
  refine ⟨⟨Or.inr ⟨_, _, _, _, rfl, Law.Calls.root hgrows Bundle.tidy_empty⟩,
    fun task htask => (by cases htask)⟩, fun work hwork => (by cases hwork),
    fun work hwork => (by cases hwork)⟩

section

variable {plan : PlantPlan} {settings : Settings}

/-- **A sound law governs every stage of growth** of a plan whose seed it is for. -/
theorem Law.Sound.governs_underway (sound : law.Sound)
    (hgrows : ∀ seed, plan.seed = .ok seed → law.grows seed) {w : World Empty}
    {tasks : List (Task Empty)} (h : Garden.Underway plan settings w tasks) :
    ∃ waiting, law.Governs w tasks waiting :=
  sound.invariant.of_underway (fun seed hseed => Law.governs_seedbed (hgrows seed hseed)) h

end
end PlantGrowth

