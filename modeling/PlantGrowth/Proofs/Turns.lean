import PlantGrowth.Proofs.Run
import PlantGrowth.Scheduler
import Mathlib.Data.List.Perm.Basic
import Mathlib.Data.List.Range

/-!
# Turns of the scheduler

What a tick does to the queue is said here for continuations of any behaviour: the parts of a host
may change the world as they like and park what they like. A tick is laid out as the list of its
*services*, one for each continuation that is resumed (`Scheduler.Turned`), and it returns exactly if
such a list exists (`Scheduler.exists_turn_iff`). All that a tick promises is read off the list.

## Tickets

Two continuations can be equal as values, so that none is lost or resumed in place of another cannot
be said of values. A *book* gives each continuation that ever comes in a ticket of its own. The
ticket follows its continuation through the queue and is put aside when the continuation is done or
dropped. Over any run each ticket that was given out then either waits, once, with its continuation,
or was put aside, once (`Scheduler.Runs.agrees`).
-/

namespace PlantGrowth

variable {H : Type}

/-! ## Serving with more steps -/

namespace Scheduler

section

variable [Host H] {limit more : Nat} {work : Continuation H} {works rest : List (Continuation H)}
  {report : TickSummary} {w : World H}

theorem serve_mono {result : Step × List (Continuation H) × World H}
    (h : serve limit work w = some result) (hle : limit ≤ more) :
    serve more work w = some result := by
  simp only [serve, Option.bind_eq_bind, Option.bind_eq_some_iff] at h ⊢
  obtain ⟨resumed, hresume, h⟩ := h
  exact ⟨resumed, World.resume_mono hresume hle, h⟩

theorem serveAll_cons :
    serveAll limit (work :: rest) report w = (serve limit work w).bind fun served =>
      (serveAll limit rest (report.count served.1) served.2.2).bind fun others =>
        some (others.1, served.2.1 ++ others.2.1, others.2.2) := rfl

theorem serveAll_mono {result : TickSummary × List (Continuation H) × World H}
    (h : serveAll limit works report w = some result) (hle : limit ≤ more) :
    serveAll more works report w = some result := by
  induction works generalizing report w result with
  | nil => exact h
  | cons work rest ih =>
    rw [serveAll_cons, Option.bind_eq_some_iff] at h ⊢
    obtain ⟨served, hserve, h⟩ := h
    refine ⟨served, serve_mono hserve hle, ?_⟩
    rw [Option.bind_eq_some_iff] at h ⊢
    obtain ⟨others, hothers, h⟩ := h
    exact ⟨others, ih hothers, h⟩

/-- Serving a longer list is serving its parts one after the other. -/
theorem serveAll_append :
    serveAll limit (works ++ rest) report w =
      (serveAll limit works report w).bind fun first =>
        (serveAll limit rest first.1 first.2.2).bind fun second =>
          some (second.1, first.2.1 ++ second.2.1, second.2.2) := by
  induction works generalizing report w with
  | nil =>
    simp only [List.nil_append, serveAll, Option.bind_some]
    cases serveAll limit rest report w <;> rfl
  | cons work works ih =>
    rw [List.cons_append, serveAll_cons, serveAll_cons, Option.bind_assoc]
    congr 1
    funext served
    rw [ih, Option.bind_assoc, Option.bind_assoc]
    congr 1
    funext first
    simp only [Option.bind_some, Option.bind_assoc, List.append_assoc]

end

end Scheduler

/-! ## Services -/

/-- The resumption of one continuation in a tick, with all nested work. -/
structure Service (H : Type) where
  work : Continuation H
  /-- The world that it was resumed in. -/
  before : World H
  step : Step
  /-- The continuation as its step left it. -/
  left : Continuation H
  /-- The world when all nested work is done, and what was enqueued on the way is parked there. -/
  done : World H

namespace Service

/-- What the step enqueued. -/
def enqueued (service : Service H) : List (Continuation H) := service.done.unpark.1

/-- What goes to the end of the queue: what the step enqueued, and then the continuation itself if it
needs another tick. -/
def back (service : Service H) : List (Continuation H) :=
  service.enqueued ++ if service.step = .pending then [service.left] else []

variable [Host H]

/-- Resuming the continuation comes to this. -/
def Happens (service : Service H) : Prop :=
  ∃ limit, service.before.resume limit service.work = some (service.step, service.left, service.done)

/-- The world that is left: nothing is parked there. A continuation that is dropped leaves a
warning. -/
def after (service : Service H) : World H :=
  match service.step with
  | .unsupported reason => service.done.unpark.2.warn (.unsupported service.left.label reason)
  | _ => service.done.unpark.2

/-- The services happen one after the other, each in the world that the one before left. -/
def Chained : World H → List (Service H) → World H → Prop
  | w, [], later => later = w
  | w, service :: rest, later => service.before = w ∧ service.Happens ∧ Chained service.after rest later

theorem parked_after (service : Service H) : service.after.parked = #[] := by
  unfold after
  cases service.step <;> rfl

/-- Nothing is parked after a service, nor if there was none and nothing was parked before. -/
theorem Chained.parked {w later : World H} {services : List (Service H)}
    (h : Chained w services later) (hw : w.parked = #[]) : later.parked = #[] := by
  induction services generalizing w with
  | nil => rw [show later = w from h, hw]
  | cons service rest ih =>
    obtain ⟨-, -, hrest⟩ := h
    exact ih hrest service.parked_after

end Service

namespace Scheduler

section

variable [Host H] {limit : Nat} {w later : World H}

/-- Serving a continuation is one service. -/
theorem serve_eq_some_iff {work : Continuation H} {step : Step} {back : List (Continuation H)} :
    serve limit work w = some (step, back, later) ↔
      ∃ service : Service H, service.work = work ∧ service.before = w ∧
        w.resume limit work = some (service.step, service.left, service.done) ∧
        step = service.step ∧ back = service.back ∧ later = service.after := by
  constructor
  · intro h
    simp only [serve, Option.bind_eq_bind, Option.bind_eq_some_iff] at h
    obtain ⟨⟨taken, left, done⟩, hresume, h⟩ := h
    refine ⟨⟨work, w, taken, left, done⟩, rfl, rfl, hresume, ?_⟩
    cases taken with
    | pending =>
      have h : (Step.pending, done.unpark.1 ++ [left], done.unpark.2) = (step, back, later) :=
        Option.some.inj h
      cases h
      exact ⟨rfl, rfl, rfl⟩
    | complete =>
      have h : (Step.complete, done.unpark.1, done.unpark.2) = (step, back, later) :=
        Option.some.inj h
      cases h
      exact ⟨rfl, (List.append_nil _).symm, rfl⟩
    | unsupported reason =>
      have h : (Step.unsupported reason, done.unpark.1,
          done.unpark.2.warn (.unsupported left.label reason)) = (step, back, later) :=
        Option.some.inj h
      cases h
      exact ⟨rfl, (List.append_nil _).symm, rfl⟩
  · rintro ⟨⟨work, w, taken, left, done⟩, rfl, rfl, hresume, rfl, rfl, rfl⟩
    simp only at hresume
    simp only [serve, hresume, Option.bind_eq_bind, Option.bind_some]
    cases step with
    | pending => rfl
    | complete => simp [Service.back, Service.enqueued, Service.after]
    | unsupported reason => simp [Service.back, Service.enqueued, Service.after]

/-- **Serving a list is a chain of services**, one for each of its continuations. -/
theorem exists_serveAll_iff {works back : List (Continuation H)} {report result : TickSummary} :
    (∃ limit, serveAll limit works report w = some (result, back, later)) ↔
      ∃ services : List (Service H), services.map (·.work) = works ∧
        Service.Chained w services later ∧ back = services.flatMap (·.back) ∧
        result = services.foldl (fun report service => report.count service.step) report := by
  induction works generalizing report w back with
  | nil =>
    simp only [serveAll, List.map_eq_nil_iff, exists_const, Option.some.injEq, Prod.mk.injEq]
    constructor
    · rintro ⟨rfl, rfl, rfl⟩
      exact ⟨[], rfl, rfl, rfl, rfl⟩
    · rintro ⟨_, rfl, hchain, rfl, rfl⟩
      exact ⟨rfl, rfl, Eq.symm hchain⟩
  | cons work rest ih =>
    constructor
    · rintro ⟨limit, h⟩
      rw [serveAll_cons, Option.bind_eq_some_iff] at h
      obtain ⟨⟨step, first, mid⟩, hserve, h⟩ := h
      obtain ⟨service, rfl, rfl, hresume, rfl, rfl, rfl⟩ := serve_eq_some_iff.mp hserve
      rw [Option.bind_eq_some_iff] at h
      obtain ⟨⟨counted, others, last⟩, hrest, h⟩ := h
      obtain ⟨rfl, rfl, rfl⟩ : counted = result ∧ service.back ++ others = back ∧ last = later := by
        simpa using h
      obtain ⟨services, rfl, hchain, rfl, rfl⟩ := ih.mp ⟨limit, hrest⟩
      exact ⟨service :: services, rfl, ⟨rfl, ⟨limit, hresume⟩, hchain⟩, rfl, rfl⟩
    · rintro ⟨services, hworks, hchain, rfl, rfl⟩
      obtain ⟨service, services, rfl, rfl, rfl⟩ := List.map_eq_cons_iff.mp hworks
      obtain ⟨rfl, ⟨m, hresume⟩, hchain⟩ := hchain
      have hserve := serve_eq_some_iff.mpr ⟨service, rfl, rfl, hresume, rfl, rfl, rfl⟩
      obtain ⟨n, hrest⟩ := ih.mpr ⟨services, rfl, hchain, rfl, rfl⟩
      refine ⟨max m n, ?_⟩
      rw [serveAll_cons, serve_mono hserve (Nat.le_max_left m n), Option.bind_some,
        serveAll_mono hrest (Nat.le_max_right m n), Option.bind_some]
      rfl

end

/-! ## A turn -/

/-- All that waits: the queue, and what the world has parked. -/
def waiting (scheduler : Scheduler H) (w : World H) : List (Continuation H) :=
  scheduler.queue ++ w.parked.toList

/-- How many services of a kind there are. -/
def tally (services : List (Service H)) (kind : Step → Bool) : Nat :=
  services.countP fun service => kind service.step

/-- A tick, laid out as the services in it. -/
structure Turned [Host H] (scheduler : Scheduler H) (w : World H) (budget : Nat)
    (services : List (Service H)) (report : TickSummary) (later : Scheduler H) (after : World H) :
    Prop where
  /-- Those that wait longest are resumed, in order, as many as the budget allows. -/
  works : services.map (·.work) = (scheduler.waiting w).take budget
  worlds : Service.Chained w.unpark.2 services after
  /-- The others move up, and behind them comes what the services send back, in order. -/
  queue : later.queue = (scheduler.waiting w).drop budget ++ services.flatMap (·.back)
  budget : later.budget = scheduler.budget
  resumed : report.resumed = services.length
  requeued : report.requeued = tally services (· = .pending)
  completed : report.completed = tally services (· = .complete)
  dropped : report.dropped = tally services (· matches .unsupported _)
  queued : report.queued = later.queue.length

/-- What a list of services counts. -/
theorem count_services (services : List (Service H)) (report : TickSummary) :
    services.foldl (fun report service => report.count service.step) report =
      { resumed := report.resumed + services.length
        requeued := report.requeued + tally services (· = .pending)
        completed := report.completed + tally services (· = .complete)
        dropped := report.dropped + tally services (· matches .unsupported _)
        queued := report.queued } := by
  induction services generalizing report with
  | nil => simp [tally]
  | cons service rest ih =>
    rw [List.foldl_cons, ih]
    cases hstep : service.step <;> simp [TickSummary.count, tally, hstep] <;> omega

section

variable [Host H] {scheduler later : Scheduler H} {w after : World H} {budget : Nat}
  {services : List (Service H)} {report : TickSummary}

/-- **A tick returns exactly if there is a chain of services for those that are due**, and then it
comes to what the chain comes to. -/
theorem exists_turn_iff :
    (∃ limit, scheduler.turn limit w budget = some (report, later, after)) ↔
      ∃ services, scheduler.Turned w budget services report later after := by
  have hturn : ∀ limit, scheduler.turn limit w budget =
      (serveAll limit ((scheduler.waiting w).take budget) {} w.unpark.2).map fun served =>
        ({ served.1 with
            queued := ((scheduler.waiting w).drop budget ++ served.2.1).length },
          { scheduler with queue := (scheduler.waiting w).drop budget ++ served.2.1 },
          served.2.2) := by
    intro limit
    show (serveAll limit ((scheduler.waiting w).take budget) {} w.unpark.2).bind _ = _
    cases serveAll limit ((scheduler.waiting w).take budget) {} w.unpark.2 <;> rfl
  constructor
  · rintro ⟨limit, h⟩
    rw [hturn, Option.map_eq_some_iff] at h
    obtain ⟨⟨counted, back, last⟩, hserved, h⟩ := h
    simp only [Prod.mk.injEq] at h
    obtain ⟨rfl, rfl, rfl⟩ := h
    obtain ⟨services, hworks, hchain, rfl, rfl⟩ := exists_serveAll_iff.mp ⟨limit, hserved⟩
    refine ⟨services, hworks, hchain, rfl, rfl, ?_, ?_, ?_, ?_, rfl⟩ <;>
      simp [count_services]
  · rintro ⟨services, h⟩
    have hall : ∃ limit, serveAll limit ((scheduler.waiting w).take budget) {} w.unpark.2 =
        some (services.foldl (fun report service => report.count service.step) {},
          services.flatMap (·.back), after) :=
      exists_serveAll_iff.mpr ⟨services, h.works, h.worlds, rfl, rfl⟩
    obtain ⟨limit, hserved⟩ := hall
    refine ⟨limit, ?_⟩
    rw [hturn, hserved, Option.map_some, count_services]
    obtain ⟨resumed, requeued, completed, dropped, queued⟩ := report
    obtain ⟨queue, steps⟩ := later
    obtain ⟨-, -, hqueue, hbudget, hresumed, hrequeued, hcompleted, hdropped, hqueued⟩ := h
    simp only at hqueue hbudget hresumed hrequeued hcompleted hdropped hqueued
    simp only [Nat.zero_add, hqueue, hbudget, hresumed, hrequeued, hcompleted, hdropped, hqueued]

namespace Turned

variable (h : scheduler.Turned w budget services report later after)
include h

/-- As many are resumed as wait, or as the budget allows. -/
theorem length_services : services.length = min budget (scheduler.waiting w).length := by
  have hlength := congrArg List.length h.works
  rwa [List.length_map, List.length_take] at hlength

/-- Every service is counted by the step it took, and no other way. -/
theorem counts : report.resumed = report.requeued + report.completed + report.dropped := by
  rw [h.resumed, h.requeued, h.completed, h.dropped]
  clear h
  induction services with
  | nil => rfl
  | cons service rest ih =>
    unfold tally at ih ⊢
    cases hstep : service.step <;> simp [hstep] at ih ⊢ <;> omega

/-- Nothing is parked when the tick is over. -/
theorem parked : after.parked = #[] := h.worlds.parked rfl

/-- **One that is not resumed moves up** by as many places as are resumed. -/
theorem getElem?_queue {i : Nat} (hi : min budget (scheduler.waiting w).length ≤ i)
    (hlt : i < (scheduler.waiting w).length) :
    later.queue[i - min budget (scheduler.waiting w).length]? = (scheduler.waiting w)[i]? := by
  have hbudget : min budget (scheduler.waiting w).length = budget := by omega
  have hmoved : i - budget < ((scheduler.waiting w).drop budget).length := by
    rw [List.length_drop]
    omega
  rw [h.queue, hbudget, List.getElem?_append_left hmoved, List.getElem?_drop]
  congr 1
  omega

end Turned

end

/-! ## Runs -/

/-- What happens to the continuations that wait. -/
inductive Event (H : Type) where
  /-- The host puts one at the end of the queue. -/
  | added (work : Continuation H)
  /-- The host changes the world and parks some there. -/
  | parked (works : List (Continuation H))
  /-- A tick resumes some. -/
  | turned (services : List (Service H))

/-- A run: ticks with any budgets, and what the host does in between. -/
inductive Runs [Host H] (scheduler : Scheduler H) (w : World H) :
    List (Event H) → Scheduler H → World H → Prop where
  | start : Runs scheduler w [] scheduler w
  | add {history : List (Event H)} {later : Scheduler H} {after : World H}
      (before : Runs scheduler w history later after) (work : Continuation H) :
      Runs scheduler w (history ++ [.added work]) (later.add work) after
  | park {history : List (Event H)} {later : Scheduler H} {after changed : World H}
      {works : List (Continuation H)} (before : Runs scheduler w history later after)
      (h : changed.parked.toList = after.parked.toList ++ works) :
      Runs scheduler w (history ++ [.parked works]) later changed
  | turn {history : List (Event H)} {later next : Scheduler H} {after last : World H}
      {budget : Nat} {services : List (Service H)} {report : TickSummary}
      (before : Runs scheduler w history later after)
      (h : later.Turned after budget services report next last) :
      Runs scheduler w (history ++ [.turned services]) next last

end Scheduler

/-- A book about a run: which tickets wait, with their continuations, and which are over. -/
structure Book (H : Type) where
  /-- Those in the queue, in order. -/
  queue : List (Nat × Continuation H)
  /-- Those that the world has parked, in order. -/
  parked : List (Nat × Continuation H)
  /-- Those of continuations that are done or dropped. -/
  finished : List Nat
  /-- The number of tickets that were given out. -/
  issued : Nat

namespace Book

/-- New tickets for continuations that come in. -/
def tickets (book : Book H) (works : List (Continuation H)) : List (Nat × Continuation H) :=
  (List.range' book.issued works.length).zip works

/-- Continuations come to the end of the queue. -/
def enqueue (book : Book H) (works : List (Continuation H)) : Book H :=
  { book with queue := book.queue ++ book.tickets works, issued := book.issued + works.length }

/-- Continuations are parked. -/
def park (book : Book H) (works : List (Continuation H)) : Book H :=
  { book with parked := book.parked ++ book.tickets works, issued := book.issued + works.length }

/-- The queue takes over what is parked. -/
def unpark (book : Book H) : Book H :=
  { book with queue := book.queue ++ book.parked, parked := [] }

/-- The ticket in front is served: it goes to the end of the queue with its continuation, behind what
was enqueued, or it is over. -/
def serve (book : Book H) (ticket : Nat) (behind : List (Nat × Continuation H))
    (service : Service H) : Book H :=
  let moved := { book with queue := behind }.enqueue service.enqueued
  if service.step = .pending then { moved with queue := moved.queue ++ [(ticket, service.left)] }
  else { moved with finished := moved.finished ++ [ticket] }

/-- Each service is of the continuation whose ticket is in front. -/
inductive Serves : Book H → List (Service H) → Book H → Prop where
  | nil (book : Book H) : Serves book [] book
  | cons {book later : Book H} {service : Service H} {rest : List (Service H)} {ticket : Nat}
      {behind : List (Nat × Continuation H)} (front : book.queue = (ticket, service.work) :: behind)
      (h : Serves (book.serve ticket behind service) rest later) :
      Serves book (service :: rest) later

/-- The book is kept while a run takes its course. -/
inductive Keeps (book : Book H) : List (Scheduler.Event H) → Book H → Prop where
  | start : Keeps book [] book
  | add {history : List (Scheduler.Event H)} {later : Book H} (before : Keeps book history later)
      (work : Continuation H) : Keeps book (history ++ [.added work]) (later.enqueue [work])
  | park {history : List (Scheduler.Event H)} {later : Book H} (before : Keeps book history later)
      (works : List (Continuation H)) : Keeps book (history ++ [.parked works]) (later.park works)
  | turn {history : List (Scheduler.Event H)} {later last : Book H}
      {services : List (Service H)} (before : Keeps book history later)
      (h : later.unpark.Serves services last) : Keeps book (history ++ [.turned services]) last

/-- Each ticket that was given out waits once or is over once. -/
def Sound (book : Book H) : Prop :=
  ((book.queue ++ book.parked).map Prod.fst ++ book.finished).Perm (List.range book.issued)

/-- The book is sound, and the continuations that wait are those with the tickets that wait. -/
structure Agrees (book : Book H) (scheduler : Scheduler H) (w : World H) : Prop where
  queue : book.queue.map Prod.snd = scheduler.queue
  parked : book.parked.map Prod.snd = w.parked.toList
  sound : book.Sound

/-- The book before anything is served: a ticket for each continuation that waits. -/
def start (scheduler : Scheduler H) (w : World H) : Book H :=
  (({ queue := [], parked := [], finished := [], issued := 0 } : Book H).enqueue scheduler.queue).park
    w.parked.toList

variable {book : Book H} {works : List (Continuation H)}

@[simp] theorem map_snd_tickets (book : Book H) (works : List (Continuation H)) :
    (book.tickets works).map Prod.snd = works := by
  unfold tickets
  exact List.map_snd_zip (by simp)

@[simp] theorem map_fst_tickets (book : Book H) (works : List (Continuation H)) :
    (book.tickets works).map Prod.fst = List.range' book.issued works.length := by
  unfold tickets
  exact List.map_fst_zip (by simp)

/-- The tickets given out, with some new ones. -/
theorem perm_range_add {held : List Nat} {issued : Nat} (h : held.Perm (List.range issued))
    (count : Nat) : (held ++ List.range' issued count).Perm (List.range (issued + count)) := by
  have hrange : List.range (issued + count) = List.range issued ++ List.range' issued count := by
    rw [List.range_eq_range', List.range_eq_range', ← List.range'_append_1, Nat.zero_add]
  rw [hrange]
  exact h.append_right _

theorem Sound.enqueue (h : book.Sound) (works : List (Continuation H)) :
    (book.enqueue works).Sound := by
  refine List.Perm.trans ?_ (perm_range_add h works.length)
  rw [List.perm_iff_count]
  intro ticket
  simp [Book.enqueue, List.count_append]
  omega

theorem Sound.park (h : book.Sound) (works : List (Continuation H)) : (book.park works).Sound := by
  refine List.Perm.trans ?_ (perm_range_add h works.length)
  rw [List.perm_iff_count]
  intro ticket
  simp [Book.park, List.count_append]
  omega

theorem Sound.unpark (h : book.Sound) : book.unpark.Sound := by
  unfold Sound Book.unpark
  rwa [List.append_nil]

theorem agrees_start (scheduler : Scheduler H) (w : World H) :
    (start scheduler w).Agrees scheduler w := by
  have hempty : ({ queue := [], parked := [], finished := [], issued := 0 } : Book H).Sound :=
    List.Perm.refl []
  refine ⟨?_, ?_, (hempty.enqueue scheduler.queue).park w.parked.toList⟩
  · simp [start, Book.enqueue, Book.park]
  · simp [start, Book.enqueue, Book.park]

section

variable {ticket : Nat} {service : Service H} {behind : List (Nat × Continuation H)}

/-- A ticket is not lost when its continuation is served. -/
theorem Sound.serve (h : book.Sound) (front : book.queue = (ticket, service.work) :: behind) :
    (book.serve ticket behind service).Sound := by
  have hall := h.enqueue service.enqueued
  unfold Sound Book.enqueue at hall
  have hissued : (book.serve ticket behind service).issued =
      book.issued + service.enqueued.length := by
    unfold Book.serve
    split
    · rfl
    · rfl
  unfold Sound
  rw [hissued]
  -- The books before and after have the same tickets; only the place of this one differs.
  refine List.Perm.trans ?_ hall
  rw [List.perm_iff_count]
  intro other
  unfold Book.serve
  split
  · simp [front, Book.enqueue, tickets, List.count_append, List.count_cons]
    omega
  · simp [front, Book.enqueue, tickets, List.count_append, List.count_cons]
    omega

/-- The continuations in the queue after a service. -/
theorem map_queue_serve :
    (book.serve ticket behind service).queue.map Prod.snd =
      behind.map Prod.snd ++ service.back := by
  unfold serve Service.back
  split
  · simp [Book.enqueue]
  · simp [Book.enqueue]

theorem parked_serve : (book.serve ticket behind service).parked = book.parked := by
  unfold serve
  split
  · rfl
  · rfl

end

/-- **The services of a tick can be entered in a sound book**, one after the other. -/
theorem exists_serves {services : List (Service H)} {rest : List (Continuation H)}
    (sound : book.Sound) (h : book.queue.map Prod.snd = services.map (·.work) ++ rest) :
    ∃ later : Book H, book.Serves services later ∧ later.Sound ∧ later.parked = book.parked ∧
      later.queue.map Prod.snd = rest ++ services.flatMap (·.back) := by
  induction services generalizing book rest with
  | nil => exact ⟨book, Serves.nil book, sound, rfl, by simpa using h⟩
  | cons service services ih =>
    rw [List.map_cons, List.cons_append, List.map_eq_cons_iff] at h
    obtain ⟨⟨ticket, work⟩, behind, hqueue, hwork, hbehind⟩ := h
    obtain rfl : work = service.work := hwork
    have hserved : (book.serve ticket behind service).queue.map Prod.snd =
        services.map (·.work) ++ (rest ++ service.back) := by
      rw [map_queue_serve, hbehind, List.append_assoc]
    obtain ⟨later, hserves, hsound, hparked, hlater⟩ := ih (sound.serve hqueue) hserved
    refine ⟨later, Serves.cons hqueue hserves, hsound, ?_, ?_⟩
    · rw [hparked, parked_serve]
    · rw [hlater, List.flatMap_cons, List.append_assoc]

end Book

namespace Scheduler

variable [Host H] {scheduler later : Scheduler H} {w after : World H} {history : List (Event H)}
  {book : Book H}

/-- **No continuation is lost or doubled in a tick.** -/
theorem Turned.agrees {budget : Nat} {services : List (Service H)} {report : TickSummary}
    (h : scheduler.Turned w budget services report later after) (hbook : book.Agrees scheduler w) :
    ∃ last : Book H, book.unpark.Serves services last ∧ last.Agrees later after := by
  have hqueue : book.unpark.queue.map Prod.snd =
      services.map (·.work) ++ (scheduler.waiting w).drop budget := by
    rw [h.works, List.take_append_drop]
    simp [Book.unpark, waiting, hbook.queue, hbook.parked]
  obtain ⟨last, hserves, hsound, hparked, hlast⟩ := Book.exists_serves hbook.sound.unpark hqueue
  refine ⟨last, hserves, ?_, ?_, hsound⟩
  · rw [hlast, h.queue]
  · rw [hparked, h.parked]
    rfl

/-- **No continuation is lost or doubled in a run.** -/
theorem Runs.agrees (h : Runs scheduler w history later after) (hbook : book.Agrees scheduler w) :
    ∃ last : Book H, book.Keeps history last ∧ last.Agrees later after := by
  induction h with
  | start => exact ⟨book, Book.Keeps.start, hbook⟩
  | add _ work ih =>
    obtain ⟨last, hkeeps, hlast⟩ := ih
    refine ⟨last.enqueue [work], hkeeps.add work, ?_, hlast.parked, hlast.sound.enqueue [work]⟩
    simp [Book.enqueue, Scheduler.add, hlast.queue]
  | @park _ _ _ _ works _ hworks ih =>
    obtain ⟨last, hkeeps, hlast⟩ := ih
    refine ⟨last.park works, hkeeps.park works, hlast.queue, ?_, hlast.sound.park works⟩
    simp [Book.park, hlast.parked, hworks]
  | turn _ hturned ih =>
    obtain ⟨mid, hkeeps, hmid⟩ := ih
    obtain ⟨last, hserves, hlast⟩ := hturned.agrees hmid
    exact ⟨last, hkeeps.turn hserves, hlast⟩

/-! ## The law -/

/-- **The law of ticks.** A tick resumes those that wait longest, as many as the budget allows, each
once and in the world that the one before left; the others move up by as many places, and behind them
comes what the steps send back. So in no run is a continuation lost or doubled. -/
theorem turn_law (scheduler : Scheduler H) (w : World H) (budget : Nat) :
    (∀ report later after,
      (∃ limit, scheduler.turn limit w budget = some (report, later, after)) ↔
        ∃ services, scheduler.Turned w budget services report later after) ∧
    (∀ services report later after, scheduler.Turned w budget services report later after →
      services.length = min budget (scheduler.waiting w).length ∧
      report.resumed = min budget (scheduler.waiting w).length ∧
      report.resumed = report.requeued + report.completed + report.dropped ∧
      report.queued = later.size ∧ after.parked = #[] ∧
      ∀ i, min budget (scheduler.waiting w).length ≤ i → i < (scheduler.waiting w).length →
        later.queue[i - min budget (scheduler.waiting w).length]? = (scheduler.waiting w)[i]?) ∧
    ∀ history later after, Runs scheduler w history later after →
      ∃ book, (Book.start scheduler w).Keeps history book ∧ book.Agrees later after := by
  refine ⟨fun report later after => exists_turn_iff, fun services report later after h => ?_,
    fun history later after h => h.agrees (Book.agrees_start scheduler w)⟩
  refine ⟨h.length_services, ?_, h.counts, h.queued, h.parked, fun i => h.getElem?_queue⟩
  rw [h.resumed, h.length_services]

end Scheduler

/-! ## A host with chores -/

/-- Continuations of a small host: one that counts down, one that parks another one, and one that
waits for what the scheduler does not know. -/
inductive Chore where
  | count (left : Nat)
  | spawn (other : Chore)
  | stall

namespace Chore

instance : Host Chore where
  call chore w _ _ _ := (chore, { world := w })
  resume chore w :=
    match chore with
    | .count 0 => (.complete, chore, w)
    | .count (left + 1) => (.pending, .count left, w)
    | .spawn other => (.complete, chore, w.park (.host other))
    | .stall => (.unsupported "wait-for-physics", chore, w)
  signal _ w _ := w
  label _ := "chore"

/-- Three chores that wait. -/
def crowd : Scheduler Chore :=
  { queue := [.host (.count 1), .host (.spawn .stall), .host .stall] }

/-- A world with a fourth one parked. -/
def yard : World Chore := (World.ofSettings {}).park (.host (.count 7))

/-- The first three are resumed, and the fourth one comes to the front of the queue; the tickets are
kept. -/
theorem turn_crowd :
    ∃ services report later after book, crowd.Turned yard 3 services report later after ∧
      report = { resumed := 3, requeued := 1, completed := 1, dropped := 1, queued := 3 } ∧
      later.queue = [.host (.count 7), .host (.count 0), .host .stall] ∧
      later.queue[3 - min 3 (crowd.waiting yard).length]? = (crowd.waiting yard)[3]? ∧
      (Book.start crowd yard).Keeps [.turned services] book ∧ book.Agrees later after := by
  obtain ⟨hturn, hserved, hruns⟩ := Scheduler.turn_law crowd yard 3
  obtain ⟨services, hturned⟩ := (hturn _ _ _).mp ⟨0, rfl⟩
  obtain ⟨-, -, -, -, -, hmoved⟩ := hserved _ _ _ _ hturned
  obtain ⟨book, hbook⟩ := hruns _ _ _ (Scheduler.Runs.start.turn hturned)
  exact ⟨services, _, _, _, book, hturned, rfl, rfl, hmoved 3 (by decide) (by decide), hbook⟩

end Chore
end PlantGrowth
