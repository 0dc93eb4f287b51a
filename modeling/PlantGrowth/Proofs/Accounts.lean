import PlantGrowth.Proofs.Planting
import PlantGrowth.Proofs.Searching
import PlantGrowth.Proofs.Visiting

/-!
# An account of the visits

The walk over a bracketed sentence is not done by one loop. While the plant grows, what is left of it
is spread over the tasks and over the continuations that wait, each with a part of the sentence of
its own; a live plant takes them up in the order of a queue. What holds at every moment is an
account: the visits that were made so far, and the ones that each task and each continuation still
*owes*, are together all visits of the walk.

## How parts of the account are told

A task holds a chain whose sentence has unread symbols, but not their positions in the sentence that
the plant began with. So a task owes visits if there are positions for its unread symbols, and an
anchor for the node that it goes on from, so that the walk over them makes these visits
(`Bed.Carries`).

## One step

`Bed.Step` says how the account changes when one task is done or one continuation is resumed: what
was owed for it is made, or owed by what comes in its place. In a baked plant the order is kept too.
The nodes that are on their way to being destroyed are followed as well, so that at the end all
ethereal ones are gone.
-/

namespace PlantGrowth

/-! ## What is owed -/

/-- All that the elements of a list owe, in their order. -/
inductive Owing {α : Type} (R : α → List Visit → Prop) : List α → List Visit → Prop where
  | nil : Owing R [] []
  | cons {a : α} {rest : List α} {owed more : List Visit} (h : R a owed)
      (hrest : Owing R rest more) : Owing R (a :: rest) (owed ++ more)

namespace Owing

variable {α : Type} {R S : α → List Visit → Prop} {first rest : List α} {a : α}
  {owed more : List Visit}

theorem single (h : R a owed) : Owing R [a] owed := by
  have hcons := Owing.cons h (Owing.nil (R := R))
  rwa [List.append_nil] at hcons

theorem imp (h : Owing R first owed) (himp : ∀ a owed, R a owed → S a owed) :
    Owing S first owed := by
  induction h with
  | nil => exact Owing.nil
  | cons hhead _ ih => exact Owing.cons (himp _ _ hhead) ih

theorem append (h : Owing R first owed) (hrest : Owing R rest more) :
    Owing R (first ++ rest) (owed ++ more) := by
  induction h with
  | nil => exact hrest
  | cons hhead _ ih =>
    rw [List.append_assoc]
    exact Owing.cons hhead ih

/-- In another order the same is owed. -/
theorem perm (h : Owing R first owed) (hperm : first.Perm rest) :
    ∃ more, Owing R rest more ∧ owed.Perm more := by
  induction hperm generalizing owed with
  | nil => exact ⟨owed, h, List.Perm.refl owed⟩
  | cons a _ ih =>
    cases h with
    | @cons _ _ own others hhead hrest =>
      obtain ⟨more, hmore, hsame⟩ := ih hrest
      exact ⟨own ++ more, Owing.cons hhead hmore, hsame.append_left own⟩
  | swap a b l =>
    cases h with
    | @cons _ _ own others hhead hrest =>
      cases hrest with
      | @cons _ _ next last hnext hlast =>
        refine ⟨next ++ (own ++ last), Owing.cons hnext (Owing.cons hhead hlast), ?_⟩
        rw [← List.append_assoc, ← List.append_assoc]
        exact List.perm_append_comm.append_right last
  | trans _ _ ih ih' =>
    obtain ⟨between, hbetween, hfirst⟩ := ih h
    obtain ⟨more, hmore, hsecond⟩ := ih' hbetween
    exact ⟨more, hmore, hfirst.trans hsecond⟩

end Owing

/-- A chain that goes on after a node, and the visits it still makes. -/
inductive Bed.Carries (bed : Bed) (made : List Visit) (node : NodeId) (chain : Chain Empty) :
    List Visit → Prop where
  | intro {row : List Entry} {anchor : Option Nat} (follows : chain.Follows bed.seed)
      (generation : 0 ≤ chain.bundle.generation) (cursor : -1 ≤ chain.core.sentence.cursor)
      (unread : row.map Prod.fst = chain.core.sentence.unread) (whole : bed.signs.Whole row)
      (proper : sentinel ∉ chain.core.sentence.unread)
      (leaves : bed.signs.Leaves made node anchor) :
      Carries bed made node chain (bed.signs.visits anchor row)

/-- The call of the handler of a visit that was just made, and the visits that follow it. -/
inductive Bed.Calls (bed : Bed) (made : List Visit) (bundle : Bundle Empty) :
    Handler Empty → NodeId → List Visit → Prop where
  | intro {k : Nat} {visit : Visit} {prototype : Prototype Empty} {s : Sentence}
      {row : List Entry} {owed : List Visit} (visited : made[k]? = some visit)
      (find : bed.seed.registry.find? visit.symbol = some prototype)
      (follows : bundle.Follows bed.seed) (generation : 0 ≤ bundle.generation)
      (sentence : bundle.find? Key.sentence = some (.sentence s)) (cursor : 0 ≤ s.cursor)
      (unread : row.map Prod.fst = s.unread) (whole : bed.signs.Whole (visit.entry :: row))
      (proper : sentinel ∉ s.unread)
      (visits : bed.signs.visits visit.anchor (visit.entry :: row) = visit :: owed) :
      Calls bed made bundle prototype.handler (k + 1) owed

/-- A continuation that waits, and the visits it still makes. -/
inductive Bed.Waits (bed : Bed) (made : List Visit) : Continuation Empty → List Visit → Prop where
  | dispatch {next : NextDispatch Empty} {chain : Chain Empty} {owed : List Visit}
      (hwork : next.work = some chain) (h : bed.Carries made next.predecessor chain owed) :
      Waits bed made (.dispatch next) owed
  | keeps {work : Continuation Empty} {chain : Chain Empty} {node : NodeId} {gone : Bool}
      {owed : List Visit} (hkeeps : work.Keeps chain node gone)
      (hmakes : bed.signs.Makes made node gone) (h : bed.Carries made node chain owed) :
      Waits bed made work owed

/-- A task that is to be done, and the visits it makes. -/
inductive Bed.Owes (bed : Bed) (made : List Visit) : Task Empty → List Visit → Prop where
  | advance {node : NodeId} {chain : Chain Empty} {baked : Bool} {owed : List Visit}
      (hbaked : baked = bed.root.baked) (h : bed.Carries made node chain owed) :
      Owes bed made (.advance node chain baked) owed
  | search {node : NodeId} {chain : Chain Empty} {baked : Bool} {owed : List Visit}
      (hbaked : baked = bed.root.baked) (h : bed.Carries made node chain owed) :
      Owes bed made (.search node chain baked) owed
  | call {handler : Handler Empty} {node : NodeId} {bundle : Bundle Empty} {baked : Bool}
      {owed : List Visit} (hbaked : baked = bed.root.baked)
      (h : bed.Calls made bundle handler node owed) :
      Owes bed made (.call handler node bundle baked) owed
  | carryOn {node : NodeId} {chain : Chain Empty} {owed : List Visit}
      (h : bed.Carries made node chain owed) : Owes bed made (.carryOn node chain) owed
  | destroy {node : NodeId} (h : bed.signs.Makes made node true) : Owes bed made (.destroy node) []
  | park {work : Continuation Empty} {owed : List Visit} (hlive : bed.root.baked = false)
      (h : bed.Waits made work owed) : Owes bed made (.park work) owed

section Append

variable {bed : Bed} {made owed : List Visit} {node : NodeId} {chain later : Chain Empty}

theorem Bed.Carries.append (h : bed.Carries made node chain owed) (new : List Visit) :
    bed.Carries (made ++ new) node chain owed := by
  cases h with
  | intro hfollows hgeneration hcursor hunread hwhole hproper hleaves =>
    exact Carries.intro hfollows hgeneration hcursor hunread hwhole hproper (hleaves.append new)

theorem Bed.Waits.append {work : Continuation Empty} (h : bed.Waits made work owed)
    (new : List Visit) : bed.Waits (made ++ new) work owed := by
  cases h with
  | dispatch hwork h => exact Waits.dispatch hwork (h.append new)
  | keeps hkeeps hmakes h => exact Waits.keeps hkeeps (hmakes.append new) (h.append new)

theorem Bed.Owes.append {task : Task Empty} (h : bed.Owes made task owed) (new : List Visit) :
    bed.Owes (made ++ new) task owed := by
  cases h with
  | advance hbaked h => exact Owes.advance hbaked (h.append new)
  | search hbaked h => exact Owes.search hbaked (h.append new)
  | call hbaked h =>
    cases h with
    | intro hvisited hfind hfollows hgeneration hsentence hcursor hunread hwhole hproper hvisits =>
      exact Owes.call hbaked (Calls.intro (getElem?_append_of_eq_some hvisited new) hfind hfollows
        hgeneration hsentence hcursor hunread hwhole hproper hvisits)
  | carryOn h => exact Owes.carryOn (h.append new)
  | destroy h => exact Owes.destroy (h.append new)
  | park hlive h => exact Owes.park hlive (h.append new)

/-- A chain that follows another one with the same core makes the same visits. -/
theorem Bed.Carries.leads (h : bed.Carries made node chain owed) (hleads : chain.Leads later) :
    bed.Carries made node later owed := by
  cases h with
  | intro hfollows hgeneration hcursor hunread hwhole hproper hleaves =>
    obtain ⟨hcore, hbundle⟩ := hleads
    obtain ⟨hlater, hsame⟩ := hbundle bed.seed hfollows.bundle
    rw [← hcore] at hcursor hunread hproper
    refine Carries.intro ⟨?_, ?_, hlater⟩ ?_ hcursor hunread hwhole hproper hleaves
    · rw [hcore, hfollows.registry]
    · rw [hcore, hfollows.rules]
    · rw [hsame]
      exact hgeneration

end Append

/-! ## Nodes that come to an end -/

/-- The node that a continuation will destroy. -/
def Continuation.ends? : Continuation Empty → Option NodeId
  | .wait delay => some delay.node
  | _ => none

/-- The node that a task destroys, or a handler that it calls may. -/
def Task.ends? : Task Empty → Option NodeId
  | .call _ node _ _ => some node
  | .destroy node => some node
  | .park work => work.ends?
  | _ => none

namespace World

/-- The node is destroyed. -/
def Gone (w : World Empty) (node : NodeId) : Prop :=
  ∃ mark, w.nodes.marks[node]? = some mark ∧ mark.destroyed = true

/-- The node is destroyed or on its way to being so. -/
def Ending (w : World Empty) (tasks : List (Task Empty)) (works : List (Continuation Empty))
    (node : NodeId) : Prop :=
  w.Gone node ∨ (∃ task ∈ tasks, task.ends? = some node) ∨ ∃ work ∈ works, work.ends? = some node

variable {w later : World Empty} {node other : NodeId} {task : Task Empty}
  {tasks more : List (Task Empty)} {work : Continuation Empty}
  {works others : List (Continuation Empty)}

theorem Gone.of_marks (h : w.Gone node) (hmarks : later.nodes.marks = w.nodes.marks) :
    later.Gone node := by
  obtain ⟨mark, hmark, hgone⟩ := h
  exact ⟨mark, by rw [hmarks, hmark], hgone⟩

theorem Gone.make (h : w.Gone node) (draft : NodeDraft) : (w.make draft).Gone node := by
  obtain ⟨mark, hmark, hgone⟩ := h
  refine ⟨mark, ?_, hgone⟩
  rw [marks_make]
  exact getElem?_append_of_eq_some hmark _

theorem gone_destroy {mark : Mark} (h : w.nodes.marks[node]? = some mark) :
    (w.destroy node).Gone node :=
  ⟨_, Arena.getElem?_marks_destroy_self h, rfl⟩

theorem Gone.destroy (h : w.Gone other) : (w.destroy node).Gone other := by
  obtain ⟨mark, hmark, hgone⟩ := h
  by_cases heq : other = node
  · rw [heq] at hmark ⊢
    exact gone_destroy hmark
  · exact ⟨mark, (Arena.getElem?_marks_destroy_of_ne heq).trans hmark, hgone⟩

namespace Ending

theorem of_task (hmem : task ∈ tasks) (hends : task.ends? = some node) :
    w.Ending tasks works node := Or.inr (Or.inl ⟨task, hmem, hends⟩)

theorem of_work (hmem : work ∈ works) (hends : work.ends? = some node) :
    w.Ending tasks works node := Or.inr (Or.inr ⟨work, hmem, hends⟩)

/-- A node comes to its end as well if there is more to do. -/
theorem mono (h : w.Ending tasks works node) (hgone : w.Gone node → later.Gone node)
    (htasks : tasks ⊆ more) (hworks : works ⊆ others) : later.Ending more others node := by
  rcases h with h | ⟨task, hmem, hends⟩ | ⟨work, hmem, hends⟩
  · exact Or.inl (hgone h)
  · exact of_task (htasks hmem) hends
  · exact of_work (hworks hmem) hends

/-- A node comes to its end by the first task or otherwise. -/
theorem of_cons_task (h : w.Ending (task :: tasks) works node) :
    task.ends? = some node ∨ w.Ending tasks works node := by
  rcases h with h | ⟨other, hmem, hends⟩ | hwork
  · exact Or.inr (Or.inl h)
  · rcases List.mem_cons.mp hmem with rfl | hmem
    · exact Or.inl hends
    · exact Or.inr (of_task hmem hends)
  · exact Or.inr (Or.inr (Or.inr hwork))

/-- A node comes to its end by a given continuation or otherwise. -/
theorem of_middle_work (h : w.Ending tasks (works ++ work :: others) node) :
    work.ends? = some node ∨ w.Ending tasks (works ++ others) node := by
  rcases h with h | htask | ⟨other, hmem, hends⟩
  · exact Or.inr (Or.inl h)
  · exact Or.inr (Or.inr (Or.inl htask))
  · rcases List.mem_append.mp hmem with hmem | hmem
    · exact Or.inr (of_work (List.mem_append_left others hmem) hends)
    · rcases List.mem_cons.mp hmem with rfl | hmem
      · exact Or.inl hends
      · exact Or.inr (of_work (List.mem_append_right works hmem) hends)

/-- With nothing left to do, it has come to its end. -/
theorem gone (h : w.Ending [] [] node) : w.Gone node := by
  rcases h with h | ⟨task, hmem, -⟩ | ⟨work, hmem, -⟩
  · exact h
  · cases hmem
  · cases hmem

end Ending
end World

/-! ## Steps -/

/-- **A step keeps to the account.** What was owed for it is new, or owed by the tasks and the
continuations in its place. -/
structure Bed.Step (bed : Bed) (made new owed byTasks byWorks : List Visit) (ends : Option NodeId)
    (w later : World Empty) (tasks : List (Task Empty)) (works : List (Continuation Empty)) :
    Prop where
  holds : bed.Holds later (made ++ new)
  dispatched : later.dispatched = w.dispatched + new.length
  owes : Owing (bed.Owes (made ++ new)) tasks byTasks
  waits : Owing (bed.Waits (made ++ new)) works byWorks
  total : (new ++ (byTasks ++ byWorks)).Perm owed
  inOrder : bed.root.baked = true → new ++ byTasks = owed ∧ works = []
  gone : ∀ node, w.Gone node → later.Gone node
  ending : ∀ node, ends = some node → bed.signs.Makes made node true →
    later.Ending tasks works node
  called : ∀ node, made.length < node → node ≤ (made ++ new).length →
    ∃ handler bundle baked, .call handler node bundle baked ∈ tasks

/-- A step of a task, which may park continuations. -/
def Bed.Steps (bed : Bed) (made owed : List Visit) (ends : Option NodeId) (w : World Empty)
    (next : World Empty × List (Task Empty)) : Prop :=
  ∃ new byTasks byWorks works, bed.Step made new owed byTasks byWorks ends w next.1 next.2 works ∧
    next.1.parked.toList = w.parked.toList ++ works

section Steps

variable {bed : Bed} {made owed byTasks byWorks : List Visit} {ends : Option NodeId}
  {w later : World Empty} {node : NodeId} {chain : Chain Empty} {baked : Bool}
  {tasks : List (Task Empty)} {works : List (Continuation Empty)}

/-- A step without a visit. -/
theorem Bed.Step.of_same (hholds : bed.Holds later made) (hdispatched : later.dispatched = w.dispatched)
    (htasks : Owing (bed.Owes made) tasks byTasks) (hworks : Owing (bed.Waits made) works byWorks)
    (htotal : (byTasks ++ byWorks).Perm owed)
    (horder : bed.root.baked = true → byTasks = owed ∧ works = [])
    (hgone : ∀ node, w.Gone node → later.Gone node)
    (hending : ∀ node, ends = some node → bed.signs.Makes made node true →
      later.Ending tasks works node) :
    bed.Step made [] owed byTasks byWorks ends w later tasks works := by
  have hsame : made ++ [] = made := List.append_nil made
  refine ⟨?_, hdispatched, ?_, ?_, htotal, horder, hgone, hending, fun node hlt hle => ?_⟩
  · rwa [hsame]
  · rwa [hsame]
  · rwa [hsame]
  · rw [hsame] at hle
    exact absurd hle (Nat.not_le_of_lt hlt)

/-- A step that changes what is drawn only. -/
theorem Bed.Step.of_quiet (hholds : bed.Holds w made) (hquiet : w.Quiet later)
    (htasks : Owing (bed.Owes made) tasks byTasks) (hworks : Owing (bed.Waits made) works byWorks)
    (htotal : (byTasks ++ byWorks).Perm owed)
    (horder : bed.root.baked = true → byTasks = owed ∧ works = [])
    (hending : ∀ node, ends = some node → bed.signs.Makes made node true →
      later.Ending tasks works node) :
    bed.Step made [] owed byTasks byWorks ends w later tasks works :=
  Step.of_same (hholds.of_marks hquiet.marks) hquiet.dispatched htasks hworks htotal horder
    (fun _ hgone => hgone.of_marks hquiet.marks) hending

/-- A step that puts tasks in the place of a task and does nothing else. -/
theorem Bed.Steps.of_quiet (hholds : bed.Holds w made) (hquiet : w.Quiet later)
    (htasks : Owing (bed.Owes made) tasks owed)
    (hending : ∀ node, ends = some node → bed.signs.Makes made node true →
      later.Ending tasks [] node) :
    bed.Steps made owed ends w (later, tasks) := by
  refine ⟨[], owed, [], [], Step.of_quiet hholds hquiet htasks Owing.nil ?_ ?_ hending, ?_⟩
  · rw [List.append_nil]
  · exact fun _ => ⟨rfl, rfl⟩
  · rw [hquiet.parked, List.append_nil]

/-- A step of a task that ends no node and is replaced by others. -/
theorem Bed.Steps.replace (hholds : bed.Holds w made) (htasks : Owing (bed.Owes made) tasks owed) :
    bed.Steps made owed none w (w, tasks) := by
  refine Steps.of_quiet hholds (World.Quiet.refl w) htasks fun node hnode => ?_
  cases hnode

/-- A step that parks a continuation, in a plant that is not baked. -/
theorem Bed.Steps.park {work : Continuation Empty} (hholds : bed.Holds w made)
    (hlive : bed.root.baked = false) (hwork : bed.Waits made work owed)
    (hending : ends = work.ends?) : bed.Steps made owed ends w (w.park work, []) := by
  have hmarks : (w.park work).nodes.marks = w.nodes.marks := rfl
  refine ⟨[], [], owed, [work], Step.of_same (hholds.of_marks hmarks) rfl Owing.nil
    (Owing.single hwork) (List.Perm.refl _) ?_ ?_ ?_, Array.toList_push⟩
  · intro hbaked
    rw [hlive] at hbaked
    cases hbaked
  · exact fun node hgone => hgone.of_marks hmarks
  · intro node hnode _
    exact World.Ending.of_work (List.mem_singleton.mpr rfl) (hending.symm.trans hnode)

/-! ### Going on -/

theorem Bed.Carries.exists_leaves (h : bed.Carries made node chain owed) :
    ∃ anchor, bed.signs.Leaves made node anchor := by
  cases h with
  | intro _ _ _ _ _ _ hleaves => exact ⟨_, hleaves⟩

theorem Bed.Carries.step_carryOn (hbed : bed.Proper) (hholds : bed.Holds w made)
    (h : bed.Carries made node chain owed) : bed.Steps made owed none w (w.carryOn node chain) := by
  obtain ⟨anchor, hleaves⟩ := h.exists_leaves
  obtain ⟨state, hnode, -, hbaked⟩ := hholds.exists_node hbed hleaves
  rw [World.carryOn_eq hnode]
  cases hmode : state.baked with
  | true =>
    rw [if_pos rfl]
    rw [hmode] at hbaked
    exact Steps.replace hholds (Owing.single (Owes.advance hbaked h))
  | false =>
    rw [if_neg Bool.false_ne_true]
    rw [hmode] at hbaked
    exact Steps.park hholds hbaked.symm (Waits.dispatch rfl h) rfl

theorem Bed.Carries.step_advance (hbed : bed.Proper) (hholds : bed.Holds w made)
    (h : bed.Carries made node chain owed) (hbaked : baked = bed.root.baked) :
    bed.Steps made owed none w (w.advance node chain baked) := by
  obtain ⟨anchor, hleaves⟩ := h.exists_leaves
  obtain ⟨state, hnode, halive, -⟩ := hholds.exists_node hbed hleaves
  rw [World.advance_eq hnode halive]
  exact Steps.replace hholds (Owing.single (Owes.search hbaked h))

theorem Bed.step_destroy (hholds : bed.Holds w made) (h : bed.signs.Makes made node true) :
    bed.Steps made [] (some node) w (w.destroy node, []) := by
  refine ⟨[], [], [], [], Step.of_same (hholds.destroy h) rfl Owing.nil Owing.nil (List.Perm.refl _)
    (fun _ => ⟨rfl, rfl⟩) (fun other hgone => hgone.destroy) ?_, (List.append_nil _).symm⟩
  intro other hother hmakes
  obtain rfl : node = other := Option.some.inj hother
  obtain ⟨k, visit, rfl, hmade, -⟩ := hmakes.exists_visit
  obtain ⟨mark, hmark, -⟩ := hholds.node k visit hmade
  exact Or.inl (World.gone_destroy hmark)

/-! ### The search -/

/-- A chain that has read its sentence to the end makes no more visits. -/
theorem Bed.carries_nil {anchor : Option Nat} (hfollows : chain.Follows bed.seed)
    (hgeneration : 0 ≤ chain.bundle.generation) (hcursor : -1 ≤ chain.core.sentence.cursor)
    (hnil : chain.core.sentence.unread = []) (hleaves : bed.signs.Leaves made node anchor) :
    bed.Carries made node chain [] := by
  have hunread : ([] : List Entry).map Prod.fst = chain.core.sentence.unread := hnil.symm
  have hproper : sentinel ∉ chain.core.sentence.unread := by
    rw [hnil]
    exact List.not_mem_nil
  have hcarries := Carries.intro hfollows hgeneration hcursor hunread trivial hproper hleaves
  rwa [Signs.visits_nil] at hcarries

/-- Symbols that the search passes over are none that the walk visits. -/
theorem Signs.Agree.binds_of_skips {signs : Signs} {seed : Seed Empty} (h : signs.Agree seed)
    {row : List Entry} (hskips : Registry.Skips seed.registry (row.map Prod.fst)) :
    ∀ entry ∈ row, signs.binds entry.1 = false := by
  intro entry hmem
  obtain ⟨-, hnone⟩ := hskips entry.1 (List.mem_map_of_mem hmem)
  exact h.unbound entry.1 hnone

/-- **A dispatch makes the visit of the symbol that was found.** -/
theorem Bed.step_dispatch (hbed : bed.Proper) (hholds : bed.Holds w made) {anchor : Option Nat}
    (hleaves : bed.signs.Leaves made node anchor) (hfollows : chain.Follows bed.seed)
    (hgeneration : 0 ≤ chain.bundle.generation) (hbaked : baked = bed.root.baked) {entry : Entry}
    {rest : List Entry} {prototype : Prototype Empty} {s : Sentence}
    (hfind : bed.seed.registry.find? entry.1 = some prototype) (hcursor : 0 ≤ s.cursor)
    (hunread : rest.map Prod.fst = s.unread) (hwhole : bed.signs.Whole (entry :: rest))
    (hproper : sentinel ∉ s.unread) :
    bed.Steps made (bed.signs.visits anchor (entry :: rest)) none w
      (w.dispatch node entry.1 prototype s chain.bundle baked) := by
  obtain ⟨found, hfound, hnames⟩ := hholds.exists_nearestAnchor hbed hleaves
  obtain ⟨hlater, hsentence⟩ := hfollows.bundle.dispatch s
  obtain ⟨more, hmore⟩ :=
    Signs.exists_visits_cons (hbed.agree.binds entry.1 prototype hfind) anchor rest
  have hlive := hbed.agree.live entry.1 prototype hfind
  have hsize : w.nodes.size = made.length + 1 := by
    rw [← Arena.length_marks, hholds.length]
  obtain ⟨visit, hvisit⟩ : ∃ visit : Visit, visit = ⟨entry.1, entry.2, anchor⟩ := ⟨_, rfl⟩
  have hhere : (made ++ [visit])[made.length]? = some visit := by
    rw [List.getElem?_append_right (Nat.le_refl _), Nat.sub_self]
    rfl
  have hshows : bed.Shows made visit
      (prototype.draft entry.1 (w.nodes.nearestAnchor node) baked).mark := by
    rw [hvisit]
    refine ⟨rfl, ⟨prototype, hfind, rfl⟩, ⟨found, hfound, hnames⟩, ?_, rfl, ?_, fun _ => rfl⟩
    · exact hbed.agree.ethereal entry.1 prototype hfind
    · show (baked || prototype.baked) = bed.root.baked
      rw [hlive, Bool.or_false, hbaked]
  have hcall : bed.Calls (made ++ [visit]) (chain.bundle.write Key.sentence (.sentence s))
      prototype.handler (made.length + 1) more := by
    subst hvisit
    refine Calls.intro hhere hfind hlater.follows ?_ hsentence hcursor hunread hwhole hproper hmore
    rw [hlater.generation]
    exact hgeneration
  rw [World.dispatch_eq hfollows.bundle.tidy, hmore, ← hvisit, hsize]
  refine ⟨[visit], more, [], [], ⟨hholds.make hshows, rfl, ?_, Owing.nil, ?_, fun _ => ⟨rfl, rfl⟩,
    ?_, fun node hnode => (by cases hnode), ?_⟩, (List.append_nil _).symm⟩
  · refine Owing.single (Owes.call ?_ hcall)
    rw [hlive, Bool.or_false, hbaked]
  · rw [List.append_nil]
    exact List.Perm.refl _
  · exact fun other hgone => hgone.make _
  · intro other hlt hle
    rw [List.length_append, List.length_singleton] at hle
    obtain rfl : other = made.length + 1 := Nat.le_antisymm hle hlt
    exact ⟨_, _, _, List.mem_singleton.mpr rfl⟩

/-- **The search makes the next visit that is owed**, or there is none. -/
theorem Bed.Carries.step_search (hbed : bed.Proper) (hholds : bed.Holds w made)
    (h : bed.Carries made node chain owed) (hbaked : baked = bed.root.baked) :
    bed.Steps made owed none w (w.search node chain baked) := by
  cases h with
  | @intro row anchor hfollows hgeneration hcursor hunread hwhole hproper hleaves =>
    have hreads := World.reads_search hfollows (hbed.ceiling.trans_le hgeneration) hcursor hproper w
      node baked
    generalize w.search node chain baked = next at hreads ⊢
    cases hreads with
    | done hnil =>
      rw [hnil, List.map_eq_nil_iff] at hunread
      rw [hunread, Signs.visits_nil]
      exact Steps.replace hholds Owing.nil
    | passed hskips hlater hnil =>
      rw [← hunread] at hskips
      have hnothing : bed.signs.visits anchor (row ++ []) = bed.signs.visits anchor [] :=
        Signs.visits_append_of_skip (hbed.agree.binds_of_skips hskips) []
      rw [List.append_nil, Signs.visits_nil] at hnothing
      rw [hnothing]
      refine Steps.replace hholds (Owing.single (Owes.search hbaked ?_))
      refine Bed.carries_nil ?_ hgeneration hlater hnil hleaves
      exact ⟨hfollows.registry, hfollows.rules, hfollows.bundle⟩
    | found hsplit hskips hfind hlater =>
      rw [hsplit] at hproper
      rw [hsplit, List.map_eq_append_iff] at hunread
      obtain ⟨before, behind, rfl, rfl, hbehind⟩ := hunread
      rw [List.map_eq_cons_iff] at hbehind
      obtain ⟨entry, rest, rfl, rfl, hrest⟩ := hbehind
      have hbehindWhole := hwhole.behind before.length
      rw [List.drop_left] at hbehindWhole
      rw [Signs.visits_append_of_skip (hbed.agree.binds_of_skips hskips)]
      refine Bed.step_dispatch hbed hholds hleaves hfollows hgeneration hbaked hfind hlater hrest
        hbehindWhole fun hmem => hproper ?_
      exact List.mem_append_right _ (List.mem_cons_of_mem _ hmem)

/-! ### Calls -/

/-- A chain that is handed on after the node of a visit. -/
theorem Bed.carries_core {k : Nat} {visit : Visit} {s : Sentence} {row : List Entry}
    {bundle : Bundle Empty} (hmade : made[k]? = some visit) (hfollows : bundle.Follows bed.seed)
    (hgeneration : 0 ≤ bundle.generation) (hcursor : -1 ≤ s.cursor)
    (hunread : row.map Prod.fst = s.unread) (hwhole : bed.signs.Whole row)
    (hproper : sentinel ∉ s.unread) :
    bed.Carries made (k + 1) { core := bed.seed.core s, bundle }
      (bed.signs.visits (bed.signs.onward visit) row) :=
  Carries.intro (Seed.follows_core hfollows s) hgeneration hcursor hunread hwhole hproper
    (Signs.Leaves.node hmade)

/-- A continuation that keeps a chain destroys its node if that is ethereal. -/
theorem Continuation.Keeps.ends?_eq {work : Continuation Empty} {gone : Bool}
    (h : work.Keeps chain node gone) : work.ends? = if gone then some node else none := by
  cases h with
  | wait hnode _ => exact congrArg some hnode
  | leaf _ _ => rfl

/-- **A handler that hands its chain on leaves the rest of the walk to it.** -/
theorem Bed.step_handsOn (hholds : bed.Holds w made) {k : Nat} {visit : Visit} {s : Sentence}
    {row : List Entry} {bundle : Bundle Empty} {gone : Bool} {effect : Effect Empty}
    (hmade : made[k]? = some visit) (hgone : gone = !bed.signs.solid visit.symbol)
    (hfollows : bundle.Follows bed.seed) (hgeneration : 0 ≤ bundle.generation)
    (hcursor : 0 ≤ s.cursor) (hunread : row.map Prod.fst = s.unread)
    (hwhole : bed.signs.Whole row) (hproper : sentinel ∉ s.unread) (hbaked : baked = bed.root.baked)
    (h : effect.HandsOn bed.seed s gone w (k + 1) bundle baked) :
    bed.Steps made (bed.signs.visits (bed.signs.onward visit) row) (some (k + 1)) w
      (effect.world, effect.allTasks) := by
  have hmakes : bed.signs.Makes made (k + 1) gone := by
    rw [hgone]
    exact Signs.Makes.node hmade
  have hethereal : bed.signs.Makes made (k + 1) true → gone = true := by
    intro htrue
    obtain ⟨j, other, hsucc, hother, hsame⟩ := htrue.exists_visit
    obtain rfl : k = j := Nat.succ.inj hsucc
    rw [hgone, Option.some.inj (hmade.symm.trans hother), hsame]
  obtain ⟨hquiet, ⟨later, hlater, hnone, htasks⟩ | ⟨hlive, htasks, work, hwork, hkeeps⟩⟩ := h
  · have hcarries := Bed.carries_core hmade hlater.follows (by rw [hlater.generation]; exact hgeneration)
      (by omega : -1 ≤ s.cursor) hunread hwhole hproper
    rw [Effect.allTasks, hnone]
    simp only [htasks]
    cases gone with
    | true =>
      have howing := Owing.cons (Owes.carryOn hcarries) (Owing.single (Owes.destroy hmakes))
      rw [List.append_nil] at howing
      refine Steps.of_quiet hholds hquiet howing fun node hnode _ => ?_
      exact World.Ending.of_task (List.mem_cons_of_mem _ (List.mem_singleton.mpr rfl)) hnode
    | false =>
      refine Steps.of_quiet hholds hquiet (Owing.single (Owes.carryOn hcarries)) ?_
      intro node hnode htrue
      rw [← Option.some.inj hnode] at htrue
      cases hethereal htrue
  · have hcarries := Bed.carries_core hmade hfollows hgeneration (by omega : -1 ≤ s.cursor) hunread
      hwhole hproper
    rw [Effect.allTasks, hwork]
    simp only [htasks, List.nil_append]
    refine Steps.of_quiet hholds hquiet (Owing.single (Owes.park (hbaked.symm.trans hlive)
      (Waits.keeps hkeeps hmakes hcarries))) ?_
    intro node hnode htrue
    rw [← Option.some.inj hnode] at htrue
    obtain rfl : gone = true := hethereal htrue
    refine World.Ending.of_task (List.mem_singleton.mpr rfl) ?_
    rw [← hnode]
    exact hkeeps.ends?_eq

/-- **A fork leaves the walk behind the bracket to one chain and the interior to another**, in this
order. -/
theorem Bed.step_fork (hbed : bed.Proper) (hholds : bed.Holds w made) {k : Nat} {visit : Visit}
    {s : Sentence} {row : List Entry} {bundle : Bundle Empty} (hmade : made[k]? = some visit)
    (hbinds : bed.signs.binds visit.symbol = true) (hopening : visit.symbol = bed.signs.opening)
    (hfollows : bundle.Follows bed.seed) (hgeneration : 0 ≤ bundle.generation)
    (hs : bundle.find? Key.sentence = some (.sentence s)) (hcursor : 0 ≤ s.cursor)
    (hunread : row.map Prod.fst = s.unread) (hwhole : bed.signs.Whole (visit.entry :: row))
    (hproper : sentinel ∉ s.unread)
    (hvisits : bed.signs.visits visit.anchor (visit.entry :: row) = visit :: owed) :
    bed.Steps made owed (some (k + 1)) w
      ((w.fork bed.signs.closing (k + 1) bundle).world,
        (w.fork bed.signs.closing (k + 1) bundle).allTasks) := by
  obtain ⟨count, hgroup⟩ := hwhole.exists_group hopening
  have hclosing : Sentence.closingAfter bed.signs.opening bed.signs.closing 1 s.unread =
      some count := by
    rw [← hunread]
    exact hgroup
  have hparts : owed = bed.signs.visits (bed.signs.onward visit) (row.drop count) ++
      bed.signs.visits (bed.signs.onward visit) (row.take (count - 1)) := by
    rw [Signs.visits_group hbinds hopening hgroup] at hvisits
    exact (List.cons.inj hvisits).2.symm
  have hnode : (w.nodes.get? (k + 1)).map (·.symbol) = some bed.signs.opening := by
    obtain ⟨mark, hmark, hshows⟩ := hholds.node k visit hmade
    obtain ⟨state, hstate, rfl⟩ := Arena.exists_of_getElem?_marks hmark
    rw [hstate, Option.map_some, ← hopening, ← hshows.symbol]
    rfl
  have hmakes : bed.signs.Makes made (k + 1) true := by
    have hnot : true = !bed.signs.solid visit.symbol := by
      rw [hopening, hbed.agree.regular.ethereal]
      rfl
    rw [hnot]
    exact Signs.Makes.node hmade
  have hcut := Sentence.takeBranch_of_closingAfter hcursor hclosing
  obtain ⟨hresidueCursor, hinteriorCursor, -, -⟩ := Sentence.cursor_of_takeBranch hcursor hcut
  have hresidueUnread := Sentence.unread_residue hcursor (Sentence.closingAfter_pos hclosing)
    (Sentence.closingAfter_le_length hclosing)
  have hresidue : bed.Carries made (k + 1) { core := bed.seed.core (s.residue count), bundle }
      (bed.signs.visits (bed.signs.onward visit) (row.drop count)) := by
    refine Bed.carries_core hmade hfollows hgeneration hresidueCursor ?_ (hwhole.of_cons.behind count)
      fun hmem => hproper ?_
    · rw [hresidueUnread, List.map_drop, hunread]
    · rw [hresidueUnread] at hmem
      exact List.mem_of_mem_drop hmem
  have hinterior : bed.Carries made (k + 1)
      { core := bed.seed.core (.ofSymbols (s.unread.take (count - 1))), bundle }
      (bed.signs.visits (bed.signs.onward visit) (row.take (count - 1))) := by
    refine Bed.carries_core hmade hfollows hgeneration (Int.le_of_eq hinteriorCursor.symm) ?_
      (Signs.whole_interior hbed.agree.regular hgroup) fun hmem => hproper ?_
    · rw [Sentence.unread_ofSymbols, List.map_take, hunread]
    · rw [Sentence.unread_ofSymbols] at hmem
      exact List.mem_of_mem_take hmem
  -- the walk takes up the interior last, and so does the fork
  have howing := Owing.cons (Owes.carryOn hresidue) (Owing.cons (Owes.carryOn hinterior)
    (Owing.single (Owes.destroy hmakes)))
  rw [List.append_nil, ← hparts] at howing
  rw [World.fork_eq hfollows hs bed.signs.closing hnode, hcut]
  refine Steps.of_quiet hholds (World.Quiet.refl w) howing fun node hends _ => ?_
  have hlast : (Task.destroy (k + 1) : Task Empty).ends? = some node := hends
  refine World.Ending.of_task ?_ hlast
  exact List.mem_cons_of_mem _ (List.mem_cons_of_mem _ (List.mem_singleton.mpr rfl))

theorem Bed.Calls.step_call (hbed : bed.Proper) (hholds : bed.Holds w made) {bundle : Bundle Empty}
    {handler : Handler Empty} (h : bed.Calls made bundle handler node owed)
    (hbaked : baked = bed.root.baked) :
    bed.Steps made owed (some node) w (w.perform (.call handler node bundle baked)) := by
  cases h with
  | @intro k visit prototype s row _ hmade hfind hfollows hgeneration hs hcursor hunread hwhole hproper
      hvisits =>
    have hbinds := hbed.agree.binds visit.symbol prototype hfind
    by_cases hopening : visit.symbol = bed.signs.opening
    · rw [hopening] at hfind
      rw [hbed.agree.fork prototype hfind]
      exact Bed.step_fork hbed hholds hmade hbinds hopening hfollows hgeneration hs hcursor hunread
        hwhole hproper hvisits
    · have hhands := hbed.agree.handsOn visit.symbol prototype hfind hopening
      have hcontains : w.nodes.contains (k + 1) = true := by
        obtain ⟨mark, hmark, -⟩ := hholds.node k visit hmade
        obtain ⟨state, hstate, -⟩ := Arena.exists_of_getElem?_marks hmark
        exact Arena.contains_of_get? hstate
      have howed : owed = bed.signs.visits (bed.signs.onward visit) row := by
        rw [Signs.visits_bound hbinds hopening] at hvisits
        exact (List.cons.inj hvisits).2.symm
      rw [howed]
      exact Bed.step_handsOn hholds hmade rfl hfollows hgeneration hcursor hunread hwhole.of_cons
        hproper hbaked (Handler.handsOn_call hhands hfollows hs hcontains baked)

/-- **Every task of a bracketed plant keeps to the account.** -/
theorem Bed.Owes.step (hbed : bed.Proper) (hholds : bed.Holds w made) {task : Task Empty}
    (h : bed.Owes made task owed) : bed.Steps made owed task.ends? w (w.perform task) := by
  cases h with
  | advance hbaked h => exact h.step_advance hbed hholds hbaked
  | search hbaked h => exact h.step_search hbed hholds hbaked
  | call hbaked h => exact h.step_call hbed hholds hbaked
  | carryOn h => exact h.step_carryOn hbed hholds
  | destroy h => exact Bed.step_destroy hholds h
  | park hlive h => exact Steps.park hholds hlive h rfl

/-! ### Resuming -/

/-- **Every continuation of a live bracketed plant keeps to the account**: it goes on waiting, or it
hands its chain on. -/
theorem Bed.Waits.step (hholds : bed.Holds w made) {work : Continuation Empty}
    (h : bed.Waits made work owed) (hlive : bed.root.baked = false) :
    w.Quiet (work.resume w).world ∧ ∃ byTasks byWorks,
      bed.Step made [] owed byTasks byWorks work.ends? w (work.resume w).world (work.resume w).tasks
        (if (work.resume w).step = .pending then [(work.resume w).continuation] else []) := by
  have hnotBaked : ∀ {P : Prop}, bed.root.baked = true → P := by
    intro P hbaked
    rw [hlive] at hbaked
    cases hbaked
  cases h with
  | @dispatch next chain _ hwork h =>
    rw [Continuation.resume_dispatch hwork]
    refine ⟨World.Quiet.refl w, owed, [], ?_⟩
    refine Step.of_quiet hholds (World.Quiet.refl w) (Owing.single (Owes.advance hlive.symm h))
      Owing.nil ?_ hnotBaked fun node hnode => (by cases hnode)
    rw [List.append_nil]
  | @keeps _ chain node gone _ hkeeps hmakes h =>
    obtain ⟨k, visit, rfl, hmade, hgone⟩ := hmakes.exists_visit
    obtain ⟨mark, hmark, hshows⟩ := hholds.node k visit hmade
    obtain ⟨state, hstate, rfl⟩ := Arena.exists_of_getElem?_marks hmark
    have hpresent : gone = false → state.destroyed = false := by
      intro hsolid
      refine hshows.present ?_
      rw [hshows.ethereal, ← hgone, hsolid]
    have hends : ∀ node, work.ends? = some node → gone = true ∧ node = k + 1 := by
      intro node hnode
      rw [hkeeps.ends?_eq] at hnode
      cases gone with
      | true => exact ⟨rfl, (Option.some.inj hnode).symm⟩
      | false => cases hnode
    obtain ⟨hquiet, ⟨hstep, htasks, hlater⟩ | ⟨hstep, task, later, hleads, htask, htasks⟩⟩ :=
      hkeeps.resume hstate hpresent
    · refine ⟨hquiet, [], owed, ?_⟩
      rw [if_pos hstep, htasks]
      refine Step.of_quiet hholds hquiet Owing.nil (Owing.single (Waits.keeps hlater hmakes h))
        (List.Perm.refl _) hnotBaked fun node hnode _ => ?_
      obtain ⟨rfl, rfl⟩ := hends node hnode
      exact World.Ending.of_work (List.mem_singleton.mpr rfl) hlater.ends?_eq
    · have hcarries := h.leads hleads
      have hhead : bed.Owes made task owed := by
        rcases htask with rfl | rfl
        · exact Owes.advance hlive.symm hcarries
        · exact Owes.carryOn hcarries
      have howing : Owing (bed.Owes made) (work.resume w).tasks owed := by
        rw [htasks]
        cases gone with
        | true =>
          have hboth := Owing.cons hhead (Owing.single (Owes.destroy hmakes))
          rwa [List.append_nil] at hboth
        | false => exact Owing.single hhead
      refine ⟨hquiet, owed, [], ?_⟩
      rw [if_neg (by rw [hstep]; exact Step.noConfusion)]
      refine Step.of_quiet hholds hquiet howing Owing.nil ?_ hnotBaked fun node hnode _ => ?_
      · rw [List.append_nil]
      · obtain ⟨rfl, rfl⟩ := hends node hnode
        rw [htasks]
        exact World.Ending.of_task (List.mem_cons_of_mem _ (List.mem_singleton.mpr rfl)) rfl

end Steps
end PlantGrowth
