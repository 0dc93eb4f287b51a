import PlantGrowth.Proofs.Iterative
import PlantGrowth.Proofs.Live
import PlantGrowth.Proofs.Moments
import PlantGrowth.Proofs.Planting
import PlantGrowth.Proofs.Returning
import PlantGrowth.Proofs.Visiting

/-!
# The rounds of an iterative plant

An iterative plant has one chain, and the chain is in one place: the first of the tasks has it, or the
one continuation that waits, and what else is to be done is to destroy nodes (`Cycle.Bears`). Each
symbol that it reads becomes the next node. So the symbols of the nodes and the ones that the chain
still reads are together those of all generations, at every moment (`Cycle.Grows`), and when nothing
is left to do the nodes are the whole of it (`Garden.reads_every_generation`).

That the handler at each node saw the generation of its symbol is told by the moments at which the
handlers acted, so these are kept as well (`Garden.Sweeps`).
-/

namespace PlantGrowth

/-! ## Nodes -/

/-- The node of a symbol that was read. -/
structure Cycle.Shows (cycle : Cycle) (glyph : Glyph) (mark : Mark) : Prop where
  symbol : mark.symbol = glyph.symbol
  ethereal : mark.ethereal = cycle.ethereal glyph.symbol
  alive : mark.dead = false
  baked : mark.baked = cycle.root.baked
  present : mark.ethereal = false → mark.destroyed = false

/-- The nodes are the root and those of the symbols read so far, in their order. -/
structure Cycle.Holds (cycle : Cycle) (w : World Empty) (made : List Glyph) : Prop where
  length : w.nodes.marks.length = made.length + 1
  root : w.nodes.marks[0]? = some cycle.root
  node : ∀ k glyph, made[k]? = some glyph →
    ∃ mark, w.nodes.marks[k + 1]? = some mark ∧ cycle.Shows glyph mark

section Holds

variable {cycle : Cycle} {made : List Glyph} {w later : World Empty} {node : NodeId} {glyph : Glyph}

theorem Cycle.Holds.of_marks (h : cycle.Holds w made) (hmarks : later.nodes.marks = w.nodes.marks) :
    cycle.Holds later made := by
  refine ⟨?_, ?_, ?_⟩
  · rw [hmarks, h.length]
  · rw [hmarks, h.root]
  · rw [hmarks]
    exact h.node

/-- A node that the chain goes on from. -/
theorem Cycle.Holds.exists_node (hproper : cycle.Proper) (h : cycle.Holds w made)
    (hle : node ≤ made.length) :
    ∃ state, w.nodes.get? node = some state ∧ state.dead = false ∧
      state.baked = cycle.root.baked := by
  cases node with
  | zero =>
    obtain ⟨state, hstate, hmark⟩ := Arena.exists_of_getElem?_marks h.root
    exact ⟨state, hstate, (congrArg Mark.dead hmark).trans hproper.alive, congrArg Mark.baked hmark⟩
  | succ k =>
    obtain ⟨mark, hmark, hshows⟩ := h.node k _ (List.getElem?_eq_getElem hle)
    obtain ⟨state, hstate, rfl⟩ := Arena.exists_of_getElem?_marks hmark
    exact ⟨state, hstate, hshows.alive, hshows.baked⟩

/-- The node of the next symbol. -/
theorem Cycle.Holds.make (h : cycle.Holds w made) {draft : NodeDraft}
    (hshows : cycle.Shows glyph draft.mark) : cycle.Holds (w.make draft) (made ++ [glyph]) := by
  refine ⟨?_, ?_, fun k other hother => ?_⟩
  · rw [World.marks_make, List.length_append, List.length_append, h.length]
    rfl
  · rw [World.marks_make]
    exact getElem?_append_of_eq_some h.root _
  · rw [World.marks_make]
    rcases eq_of_getElem?_concat hother with hold | ⟨rfl, rfl⟩
    · obtain ⟨mark, hmark, hshown⟩ := h.node k other hold
      exact ⟨mark, getElem?_append_of_eq_some hmark _, hshown⟩
    · exact ⟨draft.mark, by rw [← h.length, List.getElem?_concat_length], hshows⟩

/-- An ethereal node may be destroyed. -/
theorem Cycle.Holds.destroy (h : cycle.Holds w made) {k : Nat} (hmade : made[k]? = some glyph)
    (hethereal : cycle.ethereal glyph.symbol = true) : cycle.Holds (w.destroy (k + 1)) made := by
  have hget : ∀ id, id ≠ k + 1 → (w.destroy (k + 1)).nodes.marks[id]? = w.nodes.marks[id]? :=
    fun id hne => Arena.getElem?_marks_destroy_of_ne hne
  refine ⟨?_, ?_, fun j other hother => ?_⟩
  · show (w.nodes.destroy (k + 1)).marks.length = made.length + 1
    rw [Arena.marks_destroy, List.length_modify, h.length]
  · rw [hget 0 (Nat.succ_ne_zero k).symm, h.root]
  · obtain ⟨mark, hmark, hshows⟩ := h.node j other hother
    by_cases heq : j = k
    · subst heq
      obtain rfl : glyph = other := Option.some.inj (hmade.symm.trans hother)
      refine ⟨{ mark with destroyed := true }, Arena.getElem?_marks_destroy_self hmark, ?_⟩
      refine ⟨hshows.symbol, hshows.ethereal, hshows.alive, hshows.baked, fun hsolid => ?_⟩
      have hnot : mark.ethereal = false := hsolid
      rw [hshows.ethereal, hethereal] at hnot
      cases hnot
    · exact ⟨mark, by rw [hget _ fun hsucc => heq (Nat.succ.inj hsucc), hmark], hshows⟩

/-- The symbols of the nodes. -/
theorem Cycle.Holds.map_symbol (h : cycle.Holds w made) :
    w.nodes.marks.map Mark.symbol = cycle.root.symbol :: made.map Glyph.symbol := by
  refine List.ext_getElem? fun id => ?_
  rw [List.getElem?_map]
  cases id with
  | zero =>
    rw [h.root]
    rfl
  | succ k =>
    rw [List.getElem?_cons_succ, List.getElem?_map]
    cases hmade : made[k]? with
    | some glyph =>
      obtain ⟨mark, hmark, hshows⟩ := h.node k glyph hmade
      rw [hmark, Option.map_some, hshows.symbol]
      rfl
    | none =>
      have hlength := h.length
      rw [List.getElem?_eq_none_iff] at hmade
      rw [List.getElem?_eq_none_iff.mpr (by omega)]
      rfl

end Holds

/-! ## Where the chain is -/

/-- The handler of a symbol acts at a node, and sees the symbol's generation. -/
inductive Glyph.Acts (seed : Seed Empty) (glyph : Glyph) (node : NodeId) : Task Empty → Prop where
  | call {prototype : Prototype Empty} {bundle : Bundle Empty} {baked : Bool}
      (find : seed.registry.find? glyph.symbol = some prototype)
      (generation : bundle.find? Key.generation = some (.int glyph.generation)) :
      Acts seed glyph node (.call prototype.handler node bundle baked)

/-- A task that destroys an ethereal node. -/
inductive Cycle.Fades (cycle : Cycle) (made : List Glyph) : Task Empty → Prop where
  | destroy {k : Nat} {glyph : Glyph} (hmade : made[k]? = some glyph)
      (hethereal : cycle.ethereal glyph.symbol = true) : Fades cycle made (.destroy (k + 1))

/-- The continuation that has the chain, and what the chain still reads. -/
inductive Cycle.Waits (cycle : Cycle) (made : List Glyph) : Continuation Empty → List Glyph → Prop where
  | dispatch {next : NextDispatch Empty} {chain : Chain Empty} {owed : List Glyph}
      (hwork : next.work = some chain) (hle : next.predecessor ≤ made.length)
      (h : cycle.Carries chain owed) : Waits cycle made (.dispatch next) owed
  | keeps {work : Continuation Empty} {chain : Chain Empty} {k : Nat} {glyph : Glyph}
      {owed : List Glyph} (hmade : made[k]? = some glyph)
      (hkeeps : work.Keeps chain (k + 1) (cycle.ethereal glyph.symbol))
      (h : cycle.Carries chain owed) : Waits cycle made work owed

/-- The task that has the chain, and what the chain still reads. -/
inductive Cycle.Owes (cycle : Cycle) (made : List Glyph) : Task Empty → List Glyph → Prop where
  | advance {node : NodeId} {chain : Chain Empty} {baked : Bool} {owed : List Glyph}
      (hbaked : baked = cycle.root.baked) (hle : node ≤ made.length)
      (h : cycle.Carries chain owed) : Owes cycle made (.advance node chain baked) owed
  | search {node : NodeId} {chain : Chain Empty} {baked : Bool} {owed : List Glyph}
      (hbaked : baked = cycle.root.baked) (hle : node ≤ made.length)
      (h : cycle.Carries chain owed) : Owes cycle made (.search node chain baked) owed
  | carryOn {node : NodeId} {chain : Chain Empty} {owed : List Glyph} (hle : node ≤ made.length)
      (h : cycle.Carries chain owed) : Owes cycle made (.carryOn node chain) owed
  | call {k : Nat} {glyph : Glyph} {prototype : Prototype Empty} {s : Sentence}
      {bundle : Bundle Empty} {baked : Bool} {owed : List Glyph} (hmade : made[k]? = some glyph)
      (find : cycle.seed.registry.find? glyph.symbol = some prototype)
      (sentence : bundle.find? Key.sentence = some (.sentence s))
      (generation : bundle.find? Key.generation = some (.int glyph.generation))
      (hbaked : baked = cycle.root.baked)
      (h : cycle.Carries { core := cycle.seed.core s, bundle } owed) :
      Owes cycle made (.call prototype.handler (k + 1) bundle baked) owed
  | park {work : Continuation Empty} {owed : List Glyph} (hlive : cycle.root.baked = false)
      (h : cycle.Waits made work owed) : Owes cycle made (.park work) owed

/-- The chain is in one place, or it has come to its end. Besides, only nodes are destroyed. -/
inductive Cycle.Bears (cycle : Cycle) (made : List Glyph) :
    List (Task Empty) → List (Continuation Empty) → List Glyph → Prop where
  | task {task : Task Empty} {rest : List (Task Empty)} {owed : List Glyph}
      (h : cycle.Owes made task owed) (hrest : ∀ other ∈ rest, cycle.Fades made other) :
      Bears cycle made (task :: rest) [] owed
  | work {work : Continuation Empty} {rest : List (Task Empty)} {owed : List Glyph}
      (hlive : cycle.root.baked = false) (h : cycle.Waits made work owed)
      (hrest : ∀ other ∈ rest, cycle.Fades made other) : Bears cycle made rest [work] owed
  | ended {rest : List (Task Empty)} (hrest : ∀ other ∈ rest, cycle.Fades made other) :
      Bears cycle made rest [] []

section Bears

variable {cycle : Cycle} {made owed : List Glyph} {tasks rest : List (Task Empty)}
  {works : List (Continuation Empty)} {task : Task Empty}

theorem Cycle.Fades.append (h : cycle.Fades made task) (new : List Glyph) :
    cycle.Fades (made ++ new) task := by
  cases h with
  | destroy hmade hethereal => exact Fades.destroy (getElem?_append_of_eq_some hmade new) hethereal

/-- The end of a node after it has handed the chain on. -/
theorem Cycle.fades_of_mem_passing {k : Nat} {glyph : Glyph} (hmade : made[k]? = some glyph)
    (h : task ∈ Task.passing (cycle.ethereal glyph.symbol) (k + 1)) : cycle.Fades made task := by
  cases hethereal : cycle.ethereal glyph.symbol with
  | true =>
    rw [hethereal] at h
    rw [List.mem_singleton.mp h]
    exact Fades.destroy hmade hethereal
  | false =>
    rw [hethereal] at h
    cases h

theorem Cycle.Bears.append (h : cycle.Bears made tasks works owed)
    (hrest : ∀ other ∈ rest, cycle.Fades made other) :
    cycle.Bears made (tasks ++ rest) works owed := by
  cases h with
  | task howes hothers =>
    exact Bears.task howes (List.forall_mem_append.mpr ⟨hothers, hrest⟩)
  | work hlive hwaits hothers =>
    exact Bears.work hlive hwaits (List.forall_mem_append.mpr ⟨hothers, hrest⟩)
  | ended hothers => exact Bears.ended (List.forall_mem_append.mpr ⟨hothers, hrest⟩)

/-- The continuations stay the same in another order, as there is at most one. -/
theorem Cycle.Bears.perm {others : List (Continuation Empty)} (h : cycle.Bears made tasks works owed)
    (hperm : works.Perm others) : cycle.Bears made tasks others owed := by
  have hsame : others = works := by
    cases h with
    | task _ _ => exact hperm.symm.eq_nil
    | work _ _ _ => exact List.perm_singleton.mp hperm.symm
    | ended _ => exact hperm.symm.eq_nil
  rwa [hsame]

/-- With nothing to do the chain has come to its end. -/
theorem Cycle.Bears.eq_nil (h : cycle.Bears made [] [] owed) : owed = [] := by
  cases h with
  | ended _ => rfl

/-- In a baked plant the chain never waits. -/
theorem Cycle.Bears.eq_nil_of_baked (h : cycle.Bears made tasks works owed)
    (hbaked : cycle.root.baked = true) : works = [] := by
  cases h with
  | task _ _ => rfl
  | work hlive _ _ => cases hlive.symm.trans hbaked
  | ended _ => rfl

end Bears

/-! ## Steps -/

/-- What doing the task that has the chain comes to: the chain is elsewhere, or the next symbol was
read and its handler acts next. -/
inductive Cycle.Steps (cycle : Cycle) (made : List Glyph) (next : World Empty × List (Task Empty)) :
    List Glyph → Prop where
  | goesOn {owed : List Glyph} (holds : cycle.Holds next.1 made)
      (bears : cycle.Bears made next.2 next.1.parked.toList owed) : Steps cycle made next owed
  | reads {glyph : Glyph} {owed : List Glyph} {call : Task Empty}
      (holds : cycle.Holds next.1 (made ++ [glyph])) (parked : next.1.parked.toList = [])
      (tasks : next.2 = [call]) (acts : glyph.Acts cycle.seed (made.length + 1) call)
      (owes : cycle.Owes (made ++ [glyph]) call owed) : Steps cycle made next (glyph :: owed)

section Steps

variable {cycle : Cycle} {made owed : List Glyph} {w later : World Empty} {node : NodeId}
  {chain : Chain Empty} {baked : Bool} {task : Task Empty}

/-- A step that puts one task in the place of another. -/
theorem Cycle.Owes.steps (hholds : cycle.Holds w made) (hparked : w.parked.toList = [])
    (h : cycle.Owes made task owed) : cycle.Steps made (w, [task]) owed := by
  refine Steps.goesOn hholds ?_
  rw [hparked]
  exact Bears.task h fun other hother => (by cases hother)

/-- A step that parks the chain. -/
theorem Cycle.Waits.steps {work : Continuation Empty} (hholds : cycle.Holds w made)
    (hparked : w.parked.toList = []) (hlive : cycle.root.baked = false)
    (h : cycle.Waits made work owed) : cycle.Steps made (w.park work, []) owed := by
  refine Steps.goesOn (hholds.of_marks rfl) ?_
  show cycle.Bears made [] (w.parked.push work).toList owed
  rw [Array.toList_push, hparked]
  exact Bears.work hlive h fun other hother => (by cases hother)

theorem Cycle.Carries.steps_carryOn (hproper : cycle.Proper) (hholds : cycle.Holds w made)
    (hparked : w.parked.toList = []) (hle : node ≤ made.length) (h : cycle.Carries chain owed) :
    cycle.Steps made (w.carryOn node chain) owed := by
  obtain ⟨state, hnode, -, hbaked⟩ := hholds.exists_node hproper hle
  rw [World.carryOn_eq hnode]
  cases hmode : state.baked with
  | true =>
    rw [if_pos rfl]
    exact (Owes.advance (hmode.symm.trans hbaked) hle h).steps hholds hparked
  | false =>
    rw [if_neg Bool.false_ne_true]
    exact (Waits.dispatch rfl hle h).steps hholds hparked (hbaked.symm.trans hmode)

/-- **A search reads the next symbol**, and its node is made. -/
theorem Cycle.Carries.steps_search (hproper : cycle.Proper) (hholds : cycle.Holds w made)
    (hparked : w.parked.toList = []) (hbaked : baked = cycle.root.baked) (hle : node ≤ made.length)
    (h : cycle.Carries chain owed) : cycle.Steps made (w.search node chain baked) owed := by
  cases h.searches hproper w node baked with
  | done hnext =>
    rw [hnext]
    refine Steps.goesOn hholds ?_
    rw [hparked]
    exact Bears.ended fun other hother => (by cases hother)
  | onward hnext hcarries =>
    rw [hnext]
    exact (Owes.search hbaked hle hcarries).steps hholds hparked
  | @found glyph prototype s bundle _ hnext hfind hsentence hgeneration hcarries =>
    have hmade : (made ++ [glyph])[made.length]? = some glyph := List.getElem?_concat_length
    have hsize : w.nodes.size = made.length + 1 := by
      rw [← Arena.length_marks, hholds.length]
    have hmode : (baked || prototype.baked) = cycle.root.baked := by
      rw [hproper.live glyph.symbol prototype hfind, Bool.or_false, hbaked]
    have hshows : cycle.Shows glyph
        (prototype.draft glyph.symbol (w.nodes.nearestAnchor node) baked).mark := by
      refine ⟨rfl, ?_, rfl, hmode, fun _ => rfl⟩
      rw [Cycle.ethereal, hfind]
      rfl
    rw [hnext, hsize]
    exact Steps.reads (hholds.make hshows) hparked rfl (Glyph.Acts.call hfind hgeneration)
      (Owes.call hmade hfind hsentence hgeneration hmode hcarries)

/-- **A handler that hands the chain on** does so at once or leaves it to a continuation. -/
theorem Cycle.Carries.steps_handsOn {k : Nat} {glyph : Glyph} {s : Sentence} {bundle : Bundle Empty}
    {effect : Effect Empty} (hholds : cycle.Holds w made) (hparked : w.parked.toList = [])
    (hmade : made[k]? = some glyph) (hbaked : baked = cycle.root.baked)
    (h : cycle.Carries { core := cycle.seed.core s, bundle } owed)
    (heffect : effect.HandsOn cycle.seed s (cycle.ethereal glyph.symbol) w (k + 1) bundle baked) :
    cycle.Steps made (effect.world, effect.allTasks) owed := by
  obtain ⟨hlt, -⟩ := List.getElem?_eq_some_iff.mp hmade
  obtain ⟨hquiet, ⟨later, hlater, hnone, htasks⟩ | ⟨hlive, htasks, work, hwork, hkeeps⟩⟩ := heffect
  · refine Steps.goesOn (hholds.of_marks hquiet.marks) ?_
    rw [hquiet.parked, hparked, Effect.allTasks, hnone]
    simp only [htasks]
    exact Bears.task (Owes.carryOn hlt (h.succeeds hlater))
      fun other hother => Cycle.fades_of_mem_passing hmade hother
  · have hpark : effect.allTasks = [.park work] := by
      rw [Effect.allTasks, hwork, htasks]
      rfl
    rw [hpark]
    refine Owes.steps (hholds.of_marks hquiet.marks) ?_ ?_
    · rw [hquiet.parked, hparked]
    · exact Owes.park (hbaked.symm.trans hlive) (Waits.keeps hmade hkeeps h)

theorem Cycle.Owes.perform (hproper : cycle.Proper) (hholds : cycle.Holds w made)
    (hparked : w.parked.toList = []) (h : cycle.Owes made task owed) :
    cycle.Steps made (w.perform task) owed := by
  cases h with
  | advance hbaked hle h =>
    obtain ⟨state, hnode, halive, -⟩ := hholds.exists_node hproper hle
    show cycle.Steps made (w.advance _ _ _) owed
    rw [World.advance_eq hnode halive]
    exact (Owes.search hbaked hle h).steps hholds hparked
  | search hbaked hle h => exact h.steps_search hproper hholds hparked hbaked hle
  | carryOn hle h => exact h.steps_carryOn hproper hholds hparked hle
  | @call k glyph prototype s bundle baked _ hmade hfind hsentence _ hbaked h =>
    have hethereal : cycle.ethereal glyph.symbol = prototype.ethereal := by
      rw [Cycle.ethereal, hfind]
      rfl
    have hhands := hproper.handsOn glyph.symbol prototype hfind
    have hcontains : w.nodes.contains (k + 1) = true := by
      obtain ⟨mark, hmark, -⟩ := hholds.node k glyph hmade
      obtain ⟨state, hstate, -⟩ := Arena.exists_of_getElem?_marks hmark
      exact Arena.contains_of_get? hstate
    rw [← hethereal] at hhands
    exact h.steps_handsOn hholds hparked hmade hbaked
      (Handler.handsOn_call hhands h.follows.bundle hsentence hcontains baked)
  | park hlive h => exact h.steps hholds hparked hlive

/-- A node that is to be destroyed is, and the chain stays where it is. -/
theorem Cycle.Fades.perform (hholds : cycle.Holds w made) (h : cycle.Fades made task) :
    cycle.Holds (w.perform task).1 made ∧ (w.perform task).1.parked = w.parked ∧
      (w.perform task).2 = [] := by
  cases h with
  | destroy hmade hethereal => exact ⟨hholds.destroy hmade hethereal, rfl, rfl⟩

/-- **The continuation that has the chain goes on having it or hands it on.** -/
theorem Cycle.Waits.resume {work : Continuation Empty} (hholds : cycle.Holds w made)
    (hlive : cycle.root.baked = false) (h : cycle.Waits made work owed) :
    cycle.Bears made (work.resume w).tasks
      (if (work.resume w).step = .pending then [(work.resume w).continuation] else []) owed := by
  cases h with
  | @dispatch next chain _ hwork hle h =>
    rw [Continuation.resume_dispatch hwork]
    exact Bears.task (Owes.advance hlive.symm hle h) fun other hother => (by cases hother)
  | @keeps _ chain k glyph _ hmade hkeeps h =>
    obtain ⟨hlt, -⟩ := List.getElem?_eq_some_iff.mp hmade
    obtain ⟨mark, hmark, hshows⟩ := hholds.node k glyph hmade
    obtain ⟨state, hstate, rfl⟩ := Arena.exists_of_getElem?_marks hmark
    have hpresent : cycle.ethereal glyph.symbol = false → state.destroyed = false :=
      fun hsolid => hshows.present (hshows.ethereal.trans hsolid)
    obtain ⟨-, ⟨hstep, htasks, hlater⟩ | ⟨hstep, task, later, hleads, htask, htasks⟩⟩ :=
      hkeeps.resume hstate hpresent
    · rw [if_pos hstep, htasks]
      exact Bears.work hlive (Waits.keeps hmade hlater h) fun other hother => (by cases hother)
    · have hhead : cycle.Owes made task owed := by
        rcases htask with rfl | rfl
        · exact Owes.advance hlive.symm hlt (h.leads hleads)
        · exact Owes.carryOn hlt (h.leads hleads)
      rw [if_neg (by rw [hstep]; exact Step.noConfusion), htasks]
      exact Bears.task hhead fun other hother => Cycle.fades_of_mem_passing hmade hother

end Steps

/-! ## The growth of an iterative plant -/

/-- The symbols of the nodes and those that the chain still reads are all that there are, of a world
with tasks and waiting continuations. -/
structure Cycle.Grows (cycle : Cycle) (made : List Glyph) (w : World Empty)
    (tasks : List (Task Empty)) (waiting : List (Continuation Empty)) : Prop where
  holds : cycle.Holds w made
  bears : ∃ owed, cycle.Bears made tasks (w.parked.toList ++ waiting) owed ∧
    made ++ owed = cycle.rounds 0

namespace Cycle.Grows

variable {cycle : Cycle} {made : List Glyph} {w : World Empty} {task : Task Empty}
  {tasks rest : List (Task Empty)} {work : Continuation Empty}
  {waiting other : List (Continuation Empty)} {handler : Handler Empty} {node : NodeId}
  {bundle : Bundle Empty} {baked : Bool}

/-- **Doing a task reads nothing, or the next symbol**, whose handler acts next. -/
theorem perform (hproper : cycle.Proper) (h : cycle.Grows made w (task :: rest) waiting) :
    cycle.Grows made (w.perform task).1 ((w.perform task).2 ++ rest) waiting ∨
      ∃ glyph call, (w.perform task).2 = [call] ∧ glyph.Acts cycle.seed (made.length + 1) call ∧
        cycle.Grows (made ++ [glyph]) (w.perform task).1 ((w.perform task).2 ++ rest) waiting := by
  obtain ⟨owed, hbears, htotal⟩ := h.bears
  have hfades : cycle.Fades made task →
      cycle.Bears made rest (w.parked.toList ++ waiting) owed →
        cycle.Grows made (w.perform task).1 ((w.perform task).2 ++ rest) waiting := by
    intro hhead hrest
    obtain ⟨hholds, hparked, htasks⟩ := hhead.perform h.holds
    rw [htasks]
    refine ⟨hholds, owed, ?_, htotal⟩
    rw [hparked]
    exact hrest
  generalize hworks : w.parked.toList ++ waiting = works at hbears hfades
  cases hbears with
  | task howes hrest =>
    obtain ⟨hparked, rfl⟩ := List.append_eq_nil_iff.mp hworks
    cases howes.perform hproper h.holds hparked with
    | goesOn hholds hbears =>
      refine Or.inl ⟨hholds, owed, ?_, htotal⟩
      rw [List.append_nil]
      exact hbears.append hrest
    | @reads glyph left call hholds hnone htasks hacts hcall =>
      refine Or.inr ⟨glyph, call, htasks, hacts, hholds, left, ?_, ?_⟩
      · rw [hnone, htasks]
        exact Bears.task hcall fun other hother => (hrest other hother).append [glyph]
      · rw [← htotal, List.append_assoc]
        rfl
  | work hlive hwaits hrest =>
    obtain ⟨hhead, hothers⟩ := List.forall_mem_cons.mp hrest
    exact Or.inl (hfades hhead (Bears.work hlive hwaits hothers))
  | ended hrest =>
    obtain ⟨hhead, hothers⟩ := List.forall_mem_cons.mp hrest
    exact Or.inl (hfades hhead (Bears.ended hothers))

theorem resume (h : cycle.Grows made w [] (work :: waiting)) :
    cycle.Grows made (work.resume w).world (work.resume w).tasks
      (if (work.resume w).step = .pending then (work.resume w).continuation :: waiting
        else waiting) := by
  obtain ⟨owed, hbears, htotal⟩ := h.bears
  have hquiet := work.quiet_resume w
  generalize hworks : w.parked.toList ++ work :: waiting = works at hbears
  cases hbears with
  | @work other _ _ hlive hwaits _ =>
    rcases List.append_eq_singleton_iff.mp hworks with ⟨hparked, hqueue⟩ | ⟨-, hqueue⟩
    · obtain ⟨rfl, rfl⟩ := List.cons.inj hqueue
      refine ⟨h.holds.of_marks hquiet.marks, owed, ?_, htotal⟩
      rw [hquiet.parked, hparked, List.nil_append]
      exact hwaits.resume h.holds hlive
    · cases hqueue
  | ended _ =>
    obtain ⟨-, hqueue⟩ := List.append_eq_nil_iff.mp hworks
    cases hqueue

theorem reorder (h : cycle.Grows made w tasks waiting) (hperm : waiting.Perm other) :
    cycle.Grows made w tasks other := by
  obtain ⟨owed, hbears, htotal⟩ := h.bears
  exact ⟨h.holds, owed, hbears.perm (hperm.append_left _), htotal⟩

theorem unpark (h : cycle.Grows made w [] waiting) :
    cycle.Grows made w.unpark.2 [] (waiting ++ w.unpark.1) := by
  obtain ⟨owed, hbears, htotal⟩ := h.bears
  exact ⟨h.holds.of_marks rfl, owed, hbears.perm List.perm_append_comm, htotal⟩

theorem elapse (h : cycle.Grows made w [] waiting) (seconds : Float) :
    cycle.Grows made (w.elapse seconds) [] waiting :=
  ⟨h.holds.of_marks rfl, h.bears⟩

/-- What was read is the beginning of all that there is to read. -/
theorem getElem?_rounds (h : cycle.Grows made w tasks waiting) {k : Nat} {glyph : Glyph}
    (hmade : made[k]? = some glyph) : (cycle.rounds 0)[k]? = some glyph := by
  obtain ⟨owed, -, htotal⟩ := h.bears
  rw [← htotal]
  exact getElem?_append_of_eq_some hmade owed

/-- **When nothing is left to do, everything was read.** -/
theorem eq_rounds (h : cycle.Grows made w [] []) (hparked : w.parked.toList = []) :
    made = cycle.rounds 0 := by
  obtain ⟨owed, hbears, htotal⟩ := h.bears
  rw [hparked] at hbears
  rw [hbears.eq_nil, List.append_nil] at htotal
  exact htotal

/-- In a baked plant nothing waits. -/
theorem eq_nil_of_baked (h : cycle.Grows made w tasks waiting) (hbaked : cycle.root.baked = true) :
    w.parked.toList = [] ∧ waiting = [] := by
  obtain ⟨owed, hbears, -⟩ := h.bears
  exact List.append_eq_nil_iff.mp (hbears.eq_nil_of_baked hbaked)

/-- A call that is made next is that of the handler of a symbol, with the symbol's generation. It bakes
if the root does. -/
theorem acts_of_call (h : cycle.Grows made w (.call handler node bundle baked :: rest) waiting) :
    (∃ (k : Nat) (glyph : Glyph), node = k + 1 ∧ (cycle.rounds 0)[k]? = some glyph ∧
      glyph.Acts cycle.seed node (.call handler node bundle baked)) ∧ baked = cycle.root.baked := by
  obtain ⟨owed, hbears, -⟩ := h.bears
  generalize w.parked.toList ++ waiting = works at hbears
  have hfades : ¬ cycle.Fades made (.call handler node bundle baked) := nofun
  cases hbears with
  | task howes _ =>
    cases howes with
    | call hmade hfind _ hgeneration hbaked _ =>
      exact ⟨⟨_, _, rfl, h.getElem?_rounds hmade, Glyph.Acts.call hfind hgeneration⟩, hbaked⟩
  | work _ _ hrest => exact absurd (hrest _ List.mem_cons_self) hfades
  | ended hrest => exact absurd (hrest _ List.mem_cons_self) hfades

end Cycle.Grows

/-! ## Gardens -/

namespace Garden

/-- The next task is a call of the handler of a symbol at a node, which sees the symbol's generation.
-/
def Moment.Reads (m : Moment) (seed : Seed Empty) (node : NodeId) (glyph : Glyph) : Prop :=
  ∃ task rest, m.tasks = task :: rest ∧ glyph.Acts seed node task

/-- The symbols that were read so far, each with the moment at which its handler acted. The course
begins at `start`. -/
structure Sweeps (cycle : Cycle) (start : Moment) (made : List Glyph) (w : World Empty)
    (tasks : List (Task Empty)) (waiting : List (Continuation Empty)) : Prop where
  grows : cycle.Grows made w tasks waiting
  leads : start.Leads ⟨w, tasks, waiting⟩
  acted : ∀ (k : Nat) glyph, made[k]? = some glyph →
    ∃ m, start.Leads m ∧ m.Leads ⟨w, tasks, waiting⟩ ∧ m.Reads cycle.seed (k + 1) glyph

/-- The garden has all that the plan reads. -/
structure HasRead (plan : PlantPlan) (seed : Seed Empty) (settings : Settings) (rules : RuleSet)
    (last : Nat) (garden : Garden) : Prop where
  /-- The nodes after the root carry the bound symbols of the generations, in this order. -/
  symbols : garden.world.nodes.nodes.toList.tail.map Node.symbol =
    (plan.glyphs rules last).map Glyph.symbol
  /-- The handler at each node has acted, and saw the generation of the node's symbol. -/
  acted : ∀ (k : Nat) glyph, (plan.glyphs rules last)[k]? = some glyph →
    ∃ m, (Moment.start plan seed settings).Leads m ∧ m.Leads garden.moment ∧
      m.Reads seed (k + 1) glyph

section

variable {cycle : Cycle} {start : Moment} {made : List Glyph} {w later : World Empty}
  {tasks others : List (Task Empty)} {waiting other : List (Continuation Empty)}

/-- What was read stays read. -/
theorem Sweeps.onward (h : Sweeps cycle start made w tasks waiting)
    (hleads : (Moment.mk w tasks waiting).Leads ⟨later, others, other⟩)
    (hgrows : cycle.Grows made later others other) : Sweeps cycle start made later others other where
  grows := hgrows
  leads := h.leads.trans hleads
  acted := by
    intro k glyph hmade
    obtain ⟨m, hm, hbefore, hreads⟩ := h.acted k glyph hmade
    exact ⟨m, hm, hbefore.trans hleads, hreads⟩

/-- **Doing a task keeps what was read**, and may add a symbol. -/
theorem Sweeps.perform (hproper : cycle.Proper) {task : Task Empty} {rest : List (Task Empty)}
    (h : Sweeps cycle start made w (task :: rest) waiting) :
    ∃ made, Sweeps cycle start made (w.perform task).1 ((w.perform task).2 ++ rest) waiting := by
  have hleads : (Moment.mk w (task :: rest) waiting).Leads
      ⟨(w.perform task).1, (w.perform task).2 ++ rest, waiting⟩ := Moment.Leads.refl.perform
  rcases h.grows.perform hproper with hgrows | ⟨glyph, call, hcall, hacts, hgrows⟩
  · exact ⟨made, h.onward hleads hgrows⟩
  · refine ⟨made ++ [glyph], hgrows, h.leads.trans hleads, fun k next hnext => ?_⟩
    rcases eq_of_getElem?_concat hnext with hold | ⟨rfl, rfl⟩
    · obtain ⟨m, hm, hbefore, hreads⟩ := h.acted k next hold
      exact ⟨m, hm, hbefore.trans hleads, hreads⟩
    · -- the symbol that was just read: its handler acts at this very moment
      refine ⟨_, h.leads.trans hleads, .refl, call, rest, ?_, hacts⟩
      rw [hcall]
      rfl

end

section

variable {plan : PlantPlan} {settings : Settings} {seed : Seed Empty} {rules : RuleSet} {last : Nat}
  {garden : Garden} {m : Moment}

/-- A stage of the growth of an iterative plan: the root has not been called yet, or the chain is on
its way. -/
def Rounds (plan : PlantPlan) (settings : Settings) (seed : Seed Empty) (last : Nat)
    (w : World Empty) (tasks : List (Task Empty)) (waiting : List (Continuation Empty)) : Prop :=
  (∃ made, Sweeps (plan.cycle seed last) (Moment.start plan seed settings) made w tasks waiting) ∨
    (w = seedbed plan settings ∧ tasks = [rootTask plan seed] ∧ waiting = [])

/-- At the start everything is still to be read by the chain that begins at the root. -/
theorem grows_start (plan : PlantPlan) (seed : Seed Empty) (last : Nat) (settings : Settings)
    (position : Vec3) :
    (plan.cycle seed last).Grows [] (seedbed plan settings)
      [.carryOn 0 (seed.chain position .empty)] [] := by
  have hmarks := marks_seedbed plan settings
  have hfollows : (seed.chain position .empty).Follows seed := Seed.follows_chain Bundle.tidy_empty
  have hcursor : (seed.chain position .empty).core.sentence.cursor = -1 := seed.cursor_grammar
  have hall : (plan.cycle seed last).ahead 0 (seed.chain position .empty).core.sentence =
      (plan.cycle seed last).rounds 0 := Cycle.ahead_of_cursor hcursor rfl (Nat.zero_le _)
  have hcarries : (plan.cycle seed last).Carries (seed.chain position .empty)
      ((plan.cycle seed last).rounds 0) := by
    rw [← hall]
    exact Cycle.Carries.intro hfollows (Int.le_of_eq hcursor.symm)
      (Seed.generation_chain Bundle.tidy_empty) (Nat.zero_le _) rfl
  refine ⟨⟨?_, ?_, fun k glyph hmade => (by cases hmade)⟩, _,
    Cycle.Bears.task (Cycle.Owes.carryOn (Nat.le_refl 0) hcarries)
      fun other hother => (by cases hother), rfl⟩
  · rw [hmarks]
    rfl
  · rw [hmarks]
    rfl

/-- **Every step of growth keeps the chain on its way.** -/
theorem rounds_invariant (h : plan.Iterative rules last) (hok : plan.seed = .ok seed)
    (settings : Settings) : Invariant (Rounds plan settings seed last) where
  perform := by
    rintro w task rest waiting (⟨made, hsweeps⟩ | ⟨rfl, htasks, rfl⟩)
    · exact Or.inl (hsweeps.perform (h.proper_cycle hok))
    · cases htasks
      have hleads : (Moment.start plan seed settings).Leads _ := Moment.Leads.refl.perform
      obtain ⟨position, hroot⟩ := perform_rootTask hok h.unshared settings
      rw [hroot] at hleads ⊢
      exact Or.inl ⟨[], grows_start plan seed last settings position, hleads,
        fun k glyph hmade => (by cases hmade)⟩
  resume := by
    rintro w work waiting (⟨made, hsweeps⟩ | ⟨-, htasks, -⟩)
    · exact Or.inl ⟨made, hsweeps.onward Moment.Leads.refl.resume hsweeps.grows.resume⟩
    · cases htasks
  reorder := by
    rintro w tasks waiting other hperm (⟨made, hsweeps⟩ | ⟨rfl, rfl, rfl⟩)
    · exact Or.inl ⟨made, hsweeps.onward (Moment.Leads.refl.reorder hperm)
        (hsweeps.grows.reorder hperm)⟩
    · exact Or.inr ⟨rfl, rfl, hperm.symm.eq_nil⟩
  unpark := by
    rintro w waiting (⟨made, hsweeps⟩ | ⟨-, htasks, -⟩)
    · exact Or.inl ⟨made, hsweeps.onward Moment.Leads.refl.unpark hsweeps.grows.unpark⟩
    · cases htasks
  elapse := by
    rintro w waiting seconds (⟨made, hsweeps⟩ | ⟨-, htasks, -⟩)
    · exact Or.inl ⟨made, hsweeps.onward (Moment.Leads.refl.elapse seconds)
        (hsweeps.grows.elapse seconds)⟩
    · cases htasks

theorem rounds_of_leads (h : plan.Iterative rules last) (hok : plan.seed = .ok seed)
    (hm : (Moment.start plan seed settings).Leads m) :
    Rounds plan settings seed last m.world m.tasks m.waiting :=
  (rounds_invariant h hok settings).of_leads hm (Or.inr ⟨rfl, rfl, rfl⟩)

theorem exists_sweeps (h : plan.Iterative rules last) (hok : plan.seed = .ok seed)
    (hreached : Reached plan settings garden) :
    ∃ made, Sweeps (plan.cycle seed last) (Moment.start plan seed settings) made garden.world []
      garden.scheduler.queue := by
  rcases rounds_of_leads h hok (hreached.leads hok) with hsweeps | ⟨-, htasks, -⟩
  · exact hsweeps
  · cases htasks

/-- A garden that is idle has read everything. -/
theorem hasRead_of_idle (h : plan.Iterative rules last) (hok : plan.seed = .ok seed)
    (hreached : Reached plan settings garden) (hidle : garden.isIdle = true) :
    HasRead plan seed settings rules last garden := by
  obtain ⟨made, hsweeps⟩ := exists_sweeps h hok hreached
  obtain ⟨hqueue, hparked⟩ := List.append_eq_nil_iff.mp (isIdle_iff.mp hidle)
  have hall : made = plan.glyphs rules last := by
    have hgrows := hsweeps.grows
    rw [hqueue] at hgrows
    rw [hgrows.eq_rounds hparked, h.rounds_cycle hok]
  subst hall
  refine ⟨?_, hsweeps.acted⟩
  have hsymbols := congrArg List.tail hsweeps.grows.holds.map_symbol
  rw [List.tail_cons, Arena.marks, List.map_map, ← List.map_tail] at hsymbols
  exact hsymbols

/-- A baked garden is idle. -/
theorem isIdle_of_baked (h : plan.Iterative rules last) (hok : plan.seed = .ok seed)
    (hbaked : plan.traits.baked = true) (hreached : Reached plan settings garden) :
    garden.isIdle = true := by
  obtain ⟨made, hsweeps⟩ := exists_sweeps h hok hreached
  obtain ⟨hparked, hqueue⟩ := hsweeps.grows.eq_nil_of_baked hbaked
  exact isIdle_iff.mpr (List.append_eq_nil_iff.mpr ⟨hqueue, hparked⟩)

/-- **Nothing halts in the garden of an iterative plan** that can count its generations and whose symbols
are all narrow. -/
theorem neverHalts_of_iterative (h : plan.Iterative rules last) (hok : plan.seed = .ok seed)
    (hlast : (last : Int) < Int64.maxValue.toInt)
    (hnarrow : ∀ glyph ∈ plan.glyphs rules last, seed.Narrow plan.traits.baked glyph.symbol) :
    NeverHalts plan settings := by
  have hproper := h.proper_cycle hok
  refine neverHalts_of_calls hok h.unshared (hproper.ceiling ▸ hlast) ?_ ?_
  · intro symbol prototype hfind planted hplanted
    have hhands := hproper.handsOn symbol prototype hfind
    rw [hplanted] at hhands
    cases hhands
  · intro w handler node bundle baked rest hunderway
    have hstart : ∀ other, plan.seed = .ok other →
        Rounds plan settings seed last (seedbed plan settings) [rootTask plan other] [] := by
      intro other hother
      obtain rfl : seed = other := Except.ok.inj (hok.symm.trans hother)
      exact Or.inr ⟨rfl, rfl, rfl⟩
    obtain ⟨waiting, ⟨made, hsweeps⟩ | ⟨hworld, htasks, -⟩⟩ :=
      (rounds_invariant h hok settings).of_underway hstart hunderway
    · obtain ⟨⟨k, glyph, -, hglyph, hacts⟩, hbaked⟩ := hsweeps.grows.acts_of_call
      rw [h.rounds_cycle hok] at hglyph
      cases hacts with
      | call hfind _ =>
        rw [hbaked]
        exact Or.inr (hnarrow glyph (List.mem_of_getElem? hglyph) _ hfind)
    · exact Or.inl ⟨hworld, (List.cons.inj htasks).1⟩

/-- **An iterative plant reads every generation in turn.** When its garden is idle, and a baked one is
as soon as it is planted, the nodes after the root carry the bound symbols of all generations up to
the last one. A baked one can be planted if its generations can be counted and the symbols that it reads
are narrow. No handler ever acts but the root's and that of a symbol, which sees the generation of the
symbol. -/
theorem reads_every_generation (h : plan.Iterative rules last) (hok : plan.seed = .ok seed)
    (settings : Settings) :
    (∀ garden, Reached plan settings garden → garden.isIdle = true →
      HasRead plan seed settings rules last garden) ∧
    (plan.traits.baked = true →
      ((last : Int) < Int64.maxValue.toInt →
        (∀ glyph ∈ plan.glyphs rules last, seed.Narrow true glyph.symbol) →
          ∃ limit garden, build limit plan settings = .ok (some garden)) ∧
        ∀ limit garden, build limit plan settings = .ok (some garden) →
          garden.isIdle = true ∧ HasRead plan seed settings rules last garden) ∧
    ∀ m, (Moment.start plan seed settings).Leads m →
      ∀ handler node bundle baked rest, m.tasks = .call handler node bundle baked :: rest →
        m = Moment.start plan seed settings ∨
          ∃ (k : Nat) (glyph : Glyph), node = k + 1 ∧ (plan.glyphs rules last)[k]? = some glyph ∧
            m.Reads seed node glyph := by
  refine ⟨fun garden hreached hidle => hasRead_of_idle h hok hreached hidle, fun hbaked => ⟨?_, ?_⟩, ?_⟩
  · intro hlast hnarrow
    rw [← hbaked] at hnarrow
    exact exists_build h.tipsEnd (neverHalts_of_iterative h hok hlast hnarrow) hok
  · intro limit garden hbuild
    have hreached := Reached.planted hbuild
    have hidle := isIdle_of_baked h hok hbaked hreached
    exact ⟨hidle, hasRead_of_idle h hok hreached hidle⟩
  · rintro ⟨w, tasks, waiting⟩ hm handler node bundle baked rest htasks
    obtain rfl : tasks = _ := htasks
    rcases rounds_of_leads h hok hm with ⟨made, hsweeps⟩ | ⟨hworld, hroot, hwaiting⟩
    · obtain ⟨⟨k, glyph, hnode, hglyph, hacts⟩, -⟩ := hsweeps.grows.acts_of_call
      rw [h.rounds_cycle hok] at hglyph
      exact Or.inr ⟨k, glyph, hnode, hglyph, _, rest, rfl, hacts⟩
    · exact Or.inl (by rw [Moment.start, ← hworld, ← hroot, ← hwaiting])

end

/-- A plant that pauses in both of its generations, and unfolds a leaf in the second one. Nothing is
bound to `X`. -/
def stepping : PlantPlan where
  traits := { start := "PX", mode := .alongTheWay, iterations := 1, rules := .map ⟨[('X', "XL")]⟩ }
  handlers := ⟨[('P', .pause 5 5), ('L', .leaf none {})]⟩

theorem iterative_stepping (baked : Bool) :
    (stepping.baking baked).Iterative { table := ⟨[('X', "XL")]⟩ } 1 := by
  refine ⟨rfl, rfl, rfl, fun symbol handler hfind => ?_, rfl, ?_⟩
  · rcases List.mem_pair.mp (SymbolTable.mem_of_find? hfind) with heq | heq
    · cases heq
      rfl
    · cases heq
      rfl
  · show ∀ generation ≤ 1, sentinel ∉ stepping.rewriting { table := ⟨[('X', "XL")]⟩ } generation
    decide

set_option maxRecDepth 4000 in
/-- Live, the plant waits for its second pause after three ticks, for the leaf after five, and for
nothing after eight. -/
theorem exists_ticks_stepping : ∃ garden paused unfolding live first second third,
    build 20 (stepping.baking false) { tickSeconds := 4 } = .ok (some garden) ∧
    ticks 20 3 garden = some (first, paused) ∧ ticks 20 2 paused = some (second, unfolding) ∧
    ticks 20 3 unfolding = some (third, live) ∧
    (paused.world.dispatched = 2 ∧
      paused.scheduler.queue.map Continuation.label = ["pause"]) ∧
    unfolding.scheduler.queue.map Continuation.label = ["leaf"] ∧ live.isIdle = true :=
  ⟨_, _, _, _, _, _, _, rfl, rfl, rfl, rfl, ⟨rfl, rfl⟩, rfl, rfl⟩

theorem stepping_hasRead : ∃ (seed : Seed Empty) (rules : RuleSet),
    stepping.glyphs rules 1 = [⟨'P', 0⟩, ⟨'P', 1⟩, ⟨'L', 1⟩] ∧
    (∃ limit garden, build limit (stepping.baking true) {} = .ok (some garden) ∧
      garden.isIdle = true ∧ HasRead (stepping.baking true) seed {} rules 1 garden) ∧
    (∃ paused, Reached (stepping.baking false) { tickSeconds := 4 } paused ∧
      paused.scheduler.queue.map Continuation.label = ["pause"]) ∧
    (∃ unfolding, Reached (stepping.baking false) { tickSeconds := 4 } unfolding ∧
      unfolding.scheduler.queue.map Continuation.label = ["leaf"]) ∧
    ∃ garden, Reached (stepping.baking false) { tickSeconds := 4 } garden ∧ garden.isIdle = true ∧
      HasRead (stepping.baking false) seed { tickSeconds := 4 } rules 1 garden := by
  obtain ⟨seed, hseed, hnarrow⟩ : ∃ seed : Seed Empty, stepping.seed = .ok seed ∧
      ∀ entry ∈ seed.registry.entries, ∀ bounds ∈ entry.2.handler.bounds true, bounds.far = false :=
    ⟨_, rfl, by decide +kernel⟩
  have hglyphs : stepping.glyphs { table := ⟨[('X', "XL")]⟩ } 1 = [⟨'P', 0⟩, ⟨'P', 1⟩, ⟨'L', 1⟩] := by
    decide
  obtain ⟨hplanted, hall⟩ := (reads_every_generation (iterative_stepping true) hseed {}).2.1 rfl
  obtain ⟨limit, garden, hbuild⟩ :=
    hplanted (by decide) fun glyph _ => Seed.narrow_of_entries hnarrow glyph.symbol
  obtain ⟨planted, paused, unfolding, live, _, _, _, hplanting, hpaused, hunfolding, hlive, hwaits,
    hleaf, hidle⟩ := exists_ticks_stepping
  have hfirst := (Reached.planted hplanting).of_ticks hpaused
  have hsecond := hfirst.of_ticks hunfolding
  have hreached := hsecond.of_ticks hlive
  exact ⟨seed, _, hglyphs, ⟨limit, garden, hbuild, hall limit garden hbuild⟩,
    ⟨paused, hfirst, hwaits.2⟩, ⟨unfolding, hsecond, hleaf⟩, live, hreached, hidle,
    (reads_every_generation (iterative_stepping false) hseed { tickSeconds := 4 }).1 live hreached
      hidle⟩

/-- A baked plant that moves in both of its generations, any distance in any direction. -/
def drift : PlantPlan where
  traits := { start := "T", mode := .alongTheWay, iterations := 1, baked := true }
  handlers := ⟨[('T', .move (-huge) huge)]⟩

/-- **The plan is iterative and has no faults, and it is never planted.** -/
theorem build_drift : drift.Iterative {} 1 ∧ (∃ seed : Seed Empty, drift.seed = .ok seed) ∧
    ∀ limit settings, build limit drift settings = .ok none := by
  obtain ⟨seed, hseed, hfind, hunread⟩ : ∃ seed : Seed Empty, drift.seed = .ok seed ∧
      seed.registry.find? 'T' = some (.named "translate" (.move (-huge) huge)) ∧
      seed.grammar.1.unread = ['T'] := ⟨_, rfl, rfl, by decide⟩
  refine ⟨⟨rfl, rfl, rfl, fun symbol handler hfind => ?_, rfl, ?_⟩, ⟨seed, hseed⟩,
    fun limit settings => ?_⟩
  · cases List.mem_singleton.mp (SymbolTable.mem_of_find? hfind)
    rfl
  · show ∀ generation ≤ 1, sentinel ∉ drift.rewriting {} generation
    decide
  · exact build_of_far hseed rfl rfl hunread (by decide) hfind (fun planted heq => by cases heq)
      ⟨_, List.mem_singleton.mpr rfl, by decide +kernel⟩ limit settings

end Garden
end PlantGrowth
