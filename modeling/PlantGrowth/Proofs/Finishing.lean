import PlantGrowth.Proofs.Law
import PlantGrowth.Proofs.Tips

/-!
# Growth comes to an end

Nested work is a recursion through sentences, generations, plants within plants and tips of branches.
All but the last go down: a chain in the same generation has less to read, the next generation is
nearer to the last one, and a plant within a plant has the smaller registry. Tips do not go down,
because the tip of a branch is handed the branch's own bundle.

So a run of nested work ends exactly if it never comes to a branch whose tips have tips without end
(`World.EndlessTip`). In a plan whose symbols for tips lead to no such branch, everything ends.
-/

namespace PlantGrowth

/-! ## Cursors -/

/-- The cursor of a waiting sentence stands before its first symbol or on one, and a handler acts
when it stands on one. -/
def Law.upright (grows : Seed Empty → Prop) : Law where
  grows := grows
  reads _ s := -1 ≤ s.cursor
  acts _ _ s := 0 ≤ s.cursor

theorem Law.sound_upright {grows : Seed Empty → Prop}
    (within : ∀ {seed inner symbol prototype}, grows seed →
      seed.registry.find? symbol = some prototype → prototype.handler = .seed inner →
      grows inner) : (Law.upright grows).Sound where
  start := by
    intro seed _
    exact Int.le_of_eq seed.cursor_grammar.symm
  within := within
  renew := by
    intro seed s _ _
    exact Int.le_of_eq (RuleSet.cursor_apply _ s).symm
  found := by
    intro seed s symbol prototype later _ hreads hreading
    exact Sentence.cursor_of_readTo_eq_found hreads hreading
  exhausted := by
    intro seed s later _ hreads hreading
    exact (Sentence.unread_of_readTo_eq_exhausted hreads hreading).2.1
  handOn := by
    intro seed s symbol prototype _ _ _ hacts
    have hcursor : 0 ≤ s.cursor := hacts
    show -1 ≤ s.cursor
    omega
  fork := by
    intro seed s symbol prototype closing interior residue _ _ _ hacts hcut
    obtain ⟨hresidue, hinterior, -, -⟩ := Sentence.cursor_of_takeBranch hacts hcut
    exact ⟨hresidue, Int.le_of_eq hinterior.symm⟩
  tip := by
    intro seed s symbol prototype shape tip other _ _ _ _ _ hacts
    exact hacts

namespace World

/-! ## What a task puts in its place -/

variable {chain : Chain Empty} {seed : Seed Empty} {bundle : Bundle Empty} {s : Sentence}

theorem settles_advance (h : ∀ node baked, Settles EndlessTip [.search node chain baked])
    (node : NodeId) (baked : Bool) : Settles EndlessTip [.advance node chain baked] := by
  refine settles_single fun w => ?_
  show SettlesIn EndlessTip (w.advance node chain baked).1 (w.advance node chain baked).2
  rcases w.advance_cases node chain baked with ⟨-, heq⟩ | ⟨-, heq⟩
  · rw [heq]
    exact settlesIn_nil w
  · rw [heq]
    exact h node baked w

theorem settles_carryOn (h : ∀ node baked, Settles EndlessTip [.search node chain baked])
    (node : NodeId) : Settles EndlessTip [.carryOn node chain] := by
  refine settles_single fun w => ?_
  show SettlesIn EndlessTip (w.carryOn node chain).1 (w.carryOn node chain).2
  rcases w.carryOn_cases node chain with ⟨heq, -⟩ | ⟨heq, -⟩
  · rw [heq]
    exact settles_advance h node true w
  · rw [heq]
    exact settlesIn_nil _

theorem settles_destroy (node : NodeId) :
    Settles EndlessTip ([.destroy node] : List (Task Empty)) := settles_of_done fun _ => rfl

theorem settles_park (work : Continuation Empty) : Settles EndlessTip [.park work] :=
  settles_of_done fun _ => rfl

theorem settles_passing (gone : Bool) (node : NodeId) :
    Settles EndlessTip (Task.passing gone node : List (Task Empty)) := by
  cases gone with
  | true => exact settles_destroy node
  | false => exact settles_nil

theorem settles_of_forall {tasks : List (Task Empty)}
    (h : ∀ task ∈ tasks, Settles EndlessTip [task]) : Settles EndlessTip tasks := by
  induction tasks with
  | nil => exact settles_nil
  | cons task rest ih =>
    exact settles_cons (h task List.mem_cons_self) (ih fun other hother =>
      h other (List.mem_cons_of_mem task hother))

/-- What an effect parks does not count. -/
theorem settlesIn_allTasks {w : World Empty} {effect : Effect Empty}
    (h : SettlesIn EndlessTip w effect.tasks) : SettlesIn EndlessTip w effect.allTasks := by
  rw [Effect.allTasks]
  cases effect.continuation with
  | none => exact h
  | some work => exact h.append (settles_park work)

/-- A branch that is full-grown at once hands its chain on. -/
theorem settles_ripen {growth : Elongation Empty}
    (h : ∀ before later, growth.work = some before → before.Leads later →
      Settles EndlessTip [.carryOn growth.node later]) :
    Settles EndlessTip [.ripen growth] := by
  refine settles_single fun w => ?_
  refine settles_of_forall (fun task htask => ?_) _
  obtain ⟨before, later, hwork, hleads, rfl⟩ := growth.exists_of_mem_ripen w htask
  exact h before later hwork hleads

/-! ## Calls

In this section a handler acts in a plant of which all smaller chains are known to settle: those of
the same plant and generation that have no more to read than the handler's sentence, and those of
plants within the plant. -/

/-- The chains that a handler can hand on settle. -/
def Onward (seed : Seed Empty) (bundle : Bundle Empty) (s : Sentence) : Prop :=
  ∀ chain : Chain Empty, chain.Follows seed → -1 ≤ chain.core.sentence.cursor →
    chain.bundle.generation = bundle.generation →
    chain.core.sentence.unread.length ≤ s.unread.length →
    ∀ node, Settles EndlessTip [.carryOn node chain]

/-- The chains of the plants within a plant settle. -/
def Inward (seed : Seed Empty) : Prop :=
  ∀ (inner : Seed Empty) (chain : Chain Empty), sizeOf inner.registry < sizeOf seed.registry →
    chain.Follows inner → -1 ≤ chain.core.sentence.cursor →
    ∀ node, Settles EndlessTip [.carryOn node chain]

theorem Onward.carryOn (honward : Onward seed bundle s) {later : Bundle Empty} {next : Sentence}
    (hlater : Bundle.Succeeds seed bundle later) (hcursor : -1 ≤ next.cursor)
    (hlength : next.unread.length ≤ s.unread.length) (node : NodeId) :
    Settles EndlessTip [.carryOn node { core := seed.core next, bundle := later }] :=
  honward _ (Seed.follows_core hlater.follows next) hcursor hlater.generation hlength node

theorem settles_seed {inner : Seed Empty}
    (h : ∀ chain : Chain Empty, chain.Follows inner → -1 ≤ chain.core.sentence.cursor →
      ∀ node, Settles EndlessTip [.carryOn node chain]) (tidy : bundle.Tidy) (node : NodeId)
    (baked : Bool) : Settles EndlessTip [.call (.seed inner) node bundle baked] := by
  refine settles_single fun w => ?_
  have hstarts := Handler.starts_call inner w node bundle baked
  refine settlesIn_allTasks (settles_of_forall (fun task htask => ?_) _)
  rcases hstarts.tasks task htask with ⟨position, rfl⟩ | ⟨prefab, rfl⟩
  · exact h _ (Seed.follows_chain tidy) (Int.le_of_eq inner.cursor_grammar.symm) node
  · exact settles_of_done fun _ => rfl

/-- A handler that hands its chain on settles. -/
theorem settlesIn_handsOn (honward : Onward seed bundle s) (hcursor : 0 ≤ s.cursor) {gone : Bool}
    {effect : Effect Empty} {w : World Empty} {node : NodeId} {baked : Bool}
    (h : effect.HandsOn seed s gone w node bundle baked) :
    SettlesIn EndlessTip effect.world effect.allTasks := by
  refine settlesIn_allTasks ?_
  obtain ⟨-, ⟨later, hlater, -, htasks⟩ | ⟨-, htasks, -⟩⟩ := h
  · rw [htasks]
    exact settles_cons (honward.carryOn hlater (by omega) (Nat.le_refl _) node)
      (settles_passing gone node) _
  · rw [htasks]
    exact settlesIn_nil _

/-- A fork settles: its residue and its interior have no more to read than its sentence. -/
theorem settlesIn_fork (honward : Onward seed bundle s) (hfollows : bundle.Follows seed)
    (hs : bundle.find? Key.sentence = some (.sentence s)) (hcursor : 0 ≤ s.cursor)
    {w : World Empty} {node : NodeId} {state : Node} (hnode : w.nodes.get? node = some state)
    (closing : Char) :
    SettlesIn EndlessTip (w.fork closing node bundle).world
      (w.fork closing node bundle).allTasks := by
  have hopening : (w.nodes.get? node).map (·.symbol) = some state.symbol := by
    rw [hnode, Option.map_some]
  refine settlesIn_allTasks ?_
  rw [World.fork_eq hfollows hs closing hopening]
  rcases hcut : s.takeBranch state.symbol closing with ⟨cause | interior, residue⟩
  · exact settlesIn_nil _
  · obtain ⟨hresidue, hinterior, hrest, hpart⟩ := Sentence.cursor_of_takeBranch hcursor hcut
    have hstart : -1 ≤ interior.cursor := Int.le_of_eq hinterior.symm
    exact settles_cons (honward.carryOn hfollows.succeeds hresidue hrest node)
      (settles_cons (honward.carryOn hfollows.succeeds hstart hpart node) (settles_destroy node)) w

/-- **A handler that is no branch settles.** -/
theorem settlesIn_call_of_not_branch (honward : Onward seed bundle s) (hinward : Inward seed)
    (hfollows : bundle.Follows seed) (hs : bundle.find? Key.sentence = some (.sentence s))
    (hcursor : 0 ≤ s.cursor) {symbol : Char} {prototype : Prototype Empty}
    (hfind : seed.registry.find? symbol = some prototype)
    (hbranch : prototype.handler.branch? = none) {w : World Empty} {node : NodeId} {state : Node}
    (hnode : w.nodes.get? node = some state) (baked : Bool) :
    SettlesIn EndlessTip w [.call prototype.handler node bundle baked] := by
  rcases prototype.handler.handsOn_or with
    ⟨gone, hgone⟩ | ⟨closing, hhandler⟩ | ⟨shape, hhandler⟩ | ⟨inner, hhandler⟩
  · have hcontains := Arena.contains_of_get? hnode
    refine settlesIn_cons ?_ settles_nil
    exact settlesIn_handsOn honward hcursor (Handler.handsOn_call hgone hfollows hs hcontains baked)
  · rw [hhandler]
    exact settlesIn_cons (settlesIn_fork honward hfollows hs hcursor hnode closing) settles_nil
  · rw [hhandler] at hbranch
    cases hbranch
  · have hsmaller := Seed.sizeOf_registry_lt hfind hhandler
    rw [hhandler]
    exact settles_seed (fun chain hchain hstart => hinward inner chain hsmaller hchain hstart)
      hfollows.tidy node baked w

/-- A branch settles once its tip is attended to: it hands on a chain with its sentence. -/
theorem settles_growth (honward : Onward seed bundle s) (hfollows : bundle.Follows seed)
    (hcursor : 0 ≤ s.cursor) {w : World Empty} {shape : BranchShape} {node : NodeId} {baked : Bool}
    {growth : Elongation Empty} {tipTasks : List (Task Empty)} {effect : Effect Empty}
    (h : w.Branches (seed.core s) shape node bundle baked growth tipTasks effect) :
    Settles EndlessTip (if baked then [.carryTip growth, .ripen growth] else [.carryTip growth]) := by
  have hcarry : Settles EndlessTip [.carryTip growth] := settles_of_done fun _ => rfl
  have hripen : Settles EndlessTip [.ripen growth] := by
    refine settles_ripen fun before later hwork hleads => ?_
    obtain rfl := Option.some.inj (h.work.symm.trans hwork)
    obtain ⟨core, later⟩ := later
    obtain ⟨hcore, hbundle⟩ := hleads
    obtain rfl : core = seed.core s := hcore
    exact honward.carryOn (hbundle seed hfollows) (by omega) (Nat.le_refl _) growth.node
  cases baked with
  | true => exact settles_cons hcarry hripen
  | false => exact hcarry

/-- **A branch whose tips end settles**: an induction on the tips of tips. -/
theorem settlesIn_branch (honward : Onward seed bundle s) (hinward : Inward seed)
    (hfollows : bundle.Follows seed) (hs : bundle.find? Key.sentence = some (.sentence s))
    (hcursor : 0 ≤ s.cursor) {shape : BranchShape} (htips : bundle.TipsEnd shape)
    (w : World Empty) (node : NodeId) (baked : Bool) :
    SettlesIn EndlessTip w [.call (.branch shape) node bundle baked] := by
  induction htips generalizing w node with
  | @intro shape _ ih =>
    refine settlesIn_cons ?_ settles_nil
    show SettlesIn EndlessTip (w.branch shape node bundle baked).world
      (w.branch shape node bundle baked).allTasks
    rcases World.branch_cases_of_follows hfollows hs shape w node baked with
      ⟨-, hnothing⟩ | ⟨hstunts, growth, tipTasks, hbranches⟩
    · rw [hnothing]
      exact settlesIn_nil w
    · have htip : SettlesIn EndlessTip (w.branch shape node bundle baked).world tipTasks := by
        cases hbranches.tip with
        | none _ => exact settlesIn_nil _
        | @call symbol prototype tip state hsymbol hfind hstate _ _ =>
          cases hnext : prototype.handler.branch? with
          | none =>
            exact settlesIn_call_of_not_branch honward hinward hfollows hs hcursor hfind hnext
              hstate baked
          | some next =>
            -- the tip reads the same bundle, so only the chain of tips gets shorter
            rw [Handler.eq_branch_of_branch? hnext]
            refine ih next ?_ _ tip
            obtain ⟨heading, hheading⟩ := hfollows.heading
            have hfound : seed.registry.find? symbol = some prototype := hfind
            simp only [Bundle.tipBranch?, hfollows.core_eq hs, Bundle.vec3?_of_find? hheading,
              hstunts, Bool.false_eq_true, if_false, hsymbol, Option.bind_some, hfound, hnext]
      have heffect : SettlesIn EndlessTip (w.branch shape node bundle baked).world
          (w.branch shape node bundle baked).tasks := by
        rw [hbranches.tasks]
        exact htip.append (settles_growth honward hfollows hcursor hbranches)
      exact settlesIn_allTasks heffect

/-- **Every handler settles.** -/
theorem settlesIn_call (honward : Onward seed bundle s) (hinward : Inward seed)
    (hfollows : bundle.Follows seed) (hs : bundle.find? Key.sentence = some (.sentence s))
    (hcursor : 0 ≤ s.cursor) {symbol : Char} {prototype : Prototype Empty}
    (hfind : seed.registry.find? symbol = some prototype) {w : World Empty} {node : NodeId}
    {state : Node} (hnode : w.nodes.get? node = some state) (baked : Bool) :
    SettlesIn EndlessTip w [.call prototype.handler node bundle baked] := by
  cases hbranch : prototype.handler.branch? with
  | none =>
    exact settlesIn_call_of_not_branch honward hinward hfollows hs hcursor hfind hbranch hnode baked
  | some shape =>
    rw [Handler.eq_branch_of_branch? hbranch]
    by_cases htips : bundle.TipsEnd shape
    · exact settlesIn_branch honward hinward hfollows hs hcursor htips w node baked
    · exact Or.inr ⟨w, _, [], Comes.refl _ _, Stuck.kind (EndlessTip.intro hnode htips)⟩

/-! ## Chains -/

theorem settlesIn_dispatch (honward : Onward seed bundle s) (hinward : Inward seed)
    (hfollows : bundle.Follows seed) (hcursor : 0 ≤ s.cursor) {symbol : Char}
    {prototype : Prototype Empty} (hfind : seed.registry.find? symbol = some prototype)
    (w : World Empty) (node : NodeId) (baked : Bool) :
    SettlesIn EndlessTip (w.dispatch node symbol prototype s bundle baked).1
      (w.dispatch node symbol prototype s bundle baked).2 := by
  obtain ⟨hlater, hsentence⟩ := hfollows.dispatch s
  obtain ⟨made, hmade, -⟩ := w.get?_make
    (prototype.draft symbol (w.nodes.nearestAnchor node) baked)
  have honward' : Onward seed (bundle.write Key.sentence (.sentence s)) s := by
    intro chain hchain hstart hgeneration
    rw [hlater.generation] at hgeneration
    exact honward chain hchain hstart hgeneration
  rw [World.dispatch_eq hfollows.tidy]
  exact settlesIn_call honward' hinward hlater.follows hsentence hcursor hfind hmade _

/-- **The chains of a plant settle if those of the plants within it do.** An induction on the
generations that are left, and on the symbols that are left in this one. -/
theorem settles_search_of_inward (hinward : Inward seed) (chain : Chain Empty)
    (hfollows : chain.Follows seed) (hcursor : -1 ≤ chain.core.sentence.cursor) (node : NodeId)
    (baked : Bool) : Settles EndlessTip [.search node chain baked] := by
  induction hgap : (seed.ceiling - chain.bundle.generation).toNat
    using Nat.strongRecOn generalizing chain node baked with
  | _ gap ihgap =>
  induction hlength : chain.core.sentence.unread.length
    using Nat.strongRecOn generalizing chain node baked with
  | _ length ihlength =>
  have hbelow : ∀ usual current, chain.Current usual current → current.Follows seed ∧
      -1 ≤ current.core.sentence.cursor ∧ ∀ later : Chain Empty, later.Follows seed →
        -1 ≤ later.core.sentence.cursor → later.bundle.generation = current.bundle.generation →
        later.core.sentence.unread.length < current.core.sentence.unread.length →
        ∀ node baked, Settles EndlessTip [.search node later baked] := by
    intro usual current hcurrent
    cases hcurrent with
    | same _ =>
      refine ⟨hfollows, hcursor, fun later hlater hstart hgeneration hless node baked => ?_⟩
      rw [hlength] at hless
      refine ihlength _ hless later hlater hstart node baked ?_ rfl
      rw [hgeneration, hgap]
    | renewed _ hrenew =>
      -- a renewed chain is nearer to the last generation, however much it has to read
      obtain ⟨hcurrent, hsentence, hnext, hlast⟩ := hfollows.renew hrenew
      refine ⟨hcurrent, ?_, fun later hlater hstart hgeneration _ node baked => ?_⟩
      · rw [hsentence]
        exact Int.le_of_eq (RuleSet.cursor_apply _ _).symm
      · refine ihgap _ ?_ later hlater hstart node baked rfl
        omega
  refine settles_single fun w => ?_
  show SettlesIn EndlessTip (w.search node chain baked).1 (w.search node chain baked).2
  have hfinds := w.finds_search node chain baked
  generalize w.search node chain baked = next at hfinds ⊢
  cases hfinds with
  | last _ _ => exact settlesIn_nil w
  | blank _ _ => exact settlesIn_nil w
  | ended _ _ => exact settlesIn_nil w
  | @found current symbol prototype s hcurrent hreading =>
    obtain ⟨hcurrent, hstart, hsettles⟩ := hbelow _ current hcurrent
    rw [hcurrent.registry] at hreading
    obtain ⟨-, -, -, -, -, hfind, -⟩ := Sentence.exists_of_readTo_eq_found hreading
    obtain ⟨skipped, hunread, -⟩ := Sentence.unread_of_readTo_eq_found hstart hreading
    have hless : s.unread.length < current.core.sentence.unread.length := by
      rw [hunread, List.length_append, List.length_cons]
      omega
    have honward : Onward seed current.bundle s := by
      intro later hlater hcursor hgeneration hle
      exact settles_carryOn (hsettles later hlater hcursor hgeneration (by omega))
    exact settlesIn_dispatch honward hinward hcurrent.bundle
      (Sentence.cursor_of_readTo_eq_found hstart hreading) hfind w node baked
  | @exhausted current s hcurrent hsome hreading =>
    obtain ⟨hcurrent, hstart, hsettles⟩ := hbelow _ current hcurrent
    rw [hcurrent.registry] at hreading
    obtain ⟨hunread, hcursor, -⟩ := Sentence.unread_of_readTo_eq_exhausted hstart hreading
    refine hsettles { current with core := { current.core with sentence := s } }
      ⟨hcurrent.registry, hcurrent.rules, hcurrent.bundle⟩ hcursor rfl ?_ node baked w
    show s.unread.length < _
    rw [hunread, List.length_nil]
    exact List.length_pos_iff.mpr hsome

/-- **All chains settle.** An induction on the plants within plants. -/
theorem settles_search (seed : Seed Empty) (chain : Chain Empty) (hfollows : chain.Follows seed)
    (hcursor : -1 ≤ chain.core.sentence.cursor) (node : NodeId) (baked : Bool) :
    Settles EndlessTip [.search node chain baked] := by
  induction hsize : sizeOf seed.registry
    using Nat.strongRecOn generalizing seed chain node baked with
  | _ size ih =>
  refine settles_search_of_inward (fun inner later hless hlater hstart => ?_) chain hfollows hcursor
    node baked
  rw [hsize] at hless
  exact settles_carryOn fun node baked => ih _ hless inner later hlater hstart node baked rfl

/-! ## Any stage -/

variable {grows : Seed Empty → Prop}

theorem settles_chain (hfollows : chain.Follows seed)
    (hcursor : -1 ≤ chain.core.sentence.cursor) (node : NodeId) :
    Settles EndlessTip [.carryOn node chain] :=
  settles_carryOn (settles_search seed chain hfollows hcursor) node

theorem settles_of_obeys {task : Task Empty} (h : task.Obeys (Law.upright grows)) :
    Settles EndlessTip [task] := by
  cases task with
  | advance predecessor chain baked =>
    obtain ⟨seed, -, hfollows, hcursor⟩ := h
    exact settles_advance (settles_search seed chain hfollows hcursor) predecessor baked
  | search predecessor chain baked =>
    obtain ⟨seed, -, hfollows, hcursor⟩ := h
    exact settles_search seed chain hfollows hcursor predecessor baked
  | call handler node bundle baked => exact h.elim
  | carryOn node chain =>
    obtain ⟨seed, -, hfollows, hcursor⟩ := h
    exact settles_chain hfollows hcursor node
  | destroy node => exact settles_destroy node
  | park work => exact settles_park work
  | carryTip growth => exact settles_of_done fun _ => rfl
  | ripen growth =>
    refine settles_ripen fun before later hwork hleads => ?_
    obtain ⟨seed, -, hfollows, hcursor⟩ := Chain.Obeys.leads (h before hwork) hleads
    exact settles_chain hfollows hcursor growth.node
  | publish prefab => exact settles_of_done fun _ => rfl

/-- **Every stage of growth settles.** -/
theorem settlesIn_of_stage {w : World Empty} {tasks : List (Task Empty)}
    (h : (Law.upright grows).Stage w tasks) : SettlesIn EndlessTip w tasks := by
  cases tasks with
  | nil => exact settlesIn_nil w
  | cons task rest =>
    obtain ⟨hhead, hrest⟩ := h
    have hsettles : Settles EndlessTip rest :=
      settles_of_forall fun task htask => settles_of_obeys (hrest task htask)
    suffices hfirst : SettlesIn EndlessTip w [task] from hfirst.append hsettles
    rcases hhead with hobeys | ⟨handler, node, bundle, baked, rfl, hcall⟩
    · exact settles_of_obeys hobeys w
    · cases hcall with
      | root _ tidy =>
        exact settles_seed (fun chain hfollows hcursor => settles_chain hfollows hcursor) tidy node
          baked w
      | bound _ hfollows hs hfind hcursor hnode _ =>
        exact settlesIn_call (fun chain hchain hstart _ _ => settles_chain hchain hstart)
          (fun inner chain _ hchain hstart => settles_chain hchain hstart) hfollows hs hcursor hfind
          hnode baked

end World
end PlantGrowth
