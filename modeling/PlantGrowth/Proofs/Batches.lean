import PlantGrowth.Proofs.Ethereal

/-!
# Batches of ticks

A host grows a garden a batch of ticks at a time, and how it cuts the ticks into batches is nobody's
business. A batch stops early when nothing is left to do, and whether that is so is asked before each
tick; since a garden in which nothing is left to do stays as it is, two batches stop where one of both
their sizes stops.

* `Garden.accumulate_add`: the ticks of a longer batch are those of its parts, one after the other.
* `Garden.accumulate_eq`: what a batch counts does not depend on what was counted before it.
* `Garden.Tallied`: what a batch promises about its report and about the garden it leaves.
* `Garden.batches_join`: the law of batches. It is an equation, so the two batches return if the one
  does, and the other way round.
-/

namespace PlantGrowth

namespace BatchSummary

/-- The report on two batches in a row. What still waits was counted after the last tick, which
belongs to the first batch if the second one had none. -/
def followedBy (first second : BatchSummary) : BatchSummary where
  ticks := first.ticks + second.ticks
  resumed := first.resumed + second.resumed
  dropped := first.dropped + second.dropped
  queued := if second.ticks = 0 then first.queued else second.queued
  idle := second.idle

/-- A tick in front of a batch is counted with the batch, or with what came before. -/
theorem add_followedBy (first second : BatchSummary) (tick : TickSummary) :
    (first.add tick).followedBy second =
      first.followedBy ((({} : BatchSummary).add tick).followedBy second) := by
  have hsome : ¬ 0 + 1 + second.ticks = 0 := by omega
  simp only [followedBy, add, if_neg hsome, Nat.zero_add, Nat.add_assoc]

theorem followedBy_empty (first : BatchSummary) :
    { first.followedBy {} with idle := first.idle } = first := rfl

end BatchSummary

namespace Garden

variable {limit more most m n size : Nat} {report result : BatchSummary} {garden later : Garden}

/-! ## The ticks of a batch -/

theorem accumulate_of_idle (h : garden.isIdle = true) (limit most : Nat) (report : BatchSummary) :
    accumulate limit most report garden = some (report, garden) := by
  cases most with
  | zero => rfl
  | succ most => simp only [accumulate, h, if_true]

theorem accumulate_succ (h : garden.isIdle = false) (limit most : Nat) (report : BatchSummary) :
    accumulate limit (most + 1) report garden =
      (Simulation.tick limit garden).bind fun first =>
        accumulate limit most (report.add first.1) first.2 := by
  simp only [accumulate, h, Bool.false_eq_true, if_false]
  cases Simulation.tick limit garden <;> rfl

/-- **The ticks of a longer batch are those of its parts**, one after the other. -/
theorem accumulate_add (limit m n : Nat) (report : BatchSummary) (garden : Garden) :
    accumulate limit (m + n) report garden =
      (accumulate limit m report garden).bind fun first => accumulate limit n first.1 first.2 := by
  induction m generalizing report garden with
  | zero => rw [Nat.zero_add, accumulate, Option.bind_some]
  | succ m ih =>
    cases hidle : garden.isIdle with
    | true =>
      rw [accumulate_of_idle hidle, accumulate_of_idle hidle, Option.bind_some,
        accumulate_of_idle hidle]
    | false =>
      rw [Nat.succ_add, accumulate_succ hidle, accumulate_succ hidle, Option.bind_assoc]
      exact congrArg _ (funext fun first => ih _ _)

/-- **What a batch counts does not depend on what was counted before it.** -/
theorem accumulate_eq (limit most : Nat) (report : BatchSummary) (garden : Garden) :
    accumulate limit most report garden =
      (accumulate limit most {} garden).map fun rest =>
        ({ report.followedBy rest.1 with idle := report.idle }, rest.2) := by
  induction most generalizing report garden with
  | zero => rw [accumulate, accumulate, Option.map_some, BatchSummary.followedBy_empty]
  | succ most ih =>
    cases hidle : garden.isIdle with
    | true =>
      rw [accumulate_of_idle hidle, accumulate_of_idle hidle, Option.map_some,
        BatchSummary.followedBy_empty]
    | false =>
      rw [accumulate_succ hidle, accumulate_succ hidle, Option.map_bind]
      refine congrArg _ (funext fun first => ?_)
      rw [ih, Function.comp_apply, ih (({} : BatchSummary).add first.1), Option.map_map]
      refine congrArg (Option.map · _) (funext fun rest => ?_)
      rw [Function.comp_apply, BatchSummary.add_followedBy]
      rfl

/-- The course of a batch that returns: it stops, or it ticks and goes on. -/
inductive Accumulates (limit : Nat) :
    Nat → BatchSummary → Garden → BatchSummary → Garden → Prop where
  | stop {most : Nat} {report : BatchSummary} {garden : Garden}
      (done : most = 0 ∨ garden.isIdle = true) :
      Accumulates limit most report garden report garden
  | tick {most : Nat} {report result : BatchSummary} {garden next later : Garden}
      {tick : TickSummary} (busy : garden.isIdle = false)
      (htick : Simulation.tick limit garden = some (tick, next))
      (rest : Accumulates limit most (report.add tick) next result later) :
      Accumulates limit (most + 1) report garden result later

theorem accumulates_of_accumulate
    (h : accumulate limit most report garden = some (result, later)) :
    Accumulates limit most report garden result later := by
  induction most generalizing report garden with
  | zero =>
    cases h
    exact .stop (Or.inl rfl)
  | succ most ih =>
    cases hidle : garden.isIdle with
    | true =>
      rw [accumulate_of_idle hidle] at h
      cases h
      exact .stop (Or.inr hidle)
    | false =>
      rw [accumulate_succ hidle, Option.bind_eq_some_iff] at h
      obtain ⟨⟨tick, next⟩, htick, h⟩ := h
      exact .tick hidle htick (ih h)

namespace Accumulates

/-- More steps for the nested work change nothing, once they suffice. -/
theorem accumulate_of_le (h : Accumulates limit most report garden result later)
    (hle : limit ≤ more) : accumulate more most report garden = some (result, later) := by
  induction h with
  | stop done =>
    rcases done with rfl | hidle
    · rfl
    · exact accumulate_of_idle hidle _ _ _
  | tick busy htick _ ih => rw [accumulate_succ busy, tick_mono htick hle, Option.bind_some, ih]

/-- A batch ticks at most as often as it may, and less often only if nothing is left to do. -/
theorem ticks (h : Accumulates limit most report garden result later) :
    result.ticks ≤ report.ticks + most ∧
      (result.ticks < report.ticks + most → later.isIdle = true) := by
  induction h with
  | stop done =>
    refine ⟨Nat.le_add_right _ _, fun hlt => ?_⟩
    rcases done with rfl | hidle
    · exact absurd hlt (Nat.lt_irrefl _)
    · exact hidle
  | @tick most report _ _ _ _ tick _ _ _ ih =>
    have hbound : (report.add tick).ticks + most = report.ticks + (most + 1) := by
      show report.ticks + 1 + most = _
      omega
    rw [← hbound]
    exact ih

end Accumulates

/-! ## What a batch leaves -/

/-- After a tick everything that waits is in the queue, and the tick says how much it is. -/
theorem queued_of_tick {tick : TickSummary}
    (h : Simulation.tick limit garden = some (tick, later)) : tick.queued = later.queued.length := by
  simp only [Simulation.tick, Option.bind_eq_bind, Option.pure_def, Option.bind_eq_some_iff] at h
  obtain ⟨⟨counted, scheduler, after⟩, hturn, h⟩ := h
  cases h
  obtain ⟨services, hturned⟩ := Scheduler.exists_turn_iff.mp ⟨limit, hturn⟩
  rw [hturned.queued, queued, List.length_append, Array.length_toList, hturned.parked]
  rfl

namespace Accumulates

/-- A right count of what waits stays right, and one tick makes it right. -/
theorem queued (h : Accumulates limit most report garden result later)
    (hcount : result.ticks = report.ticks → report.queued = garden.queued.length) :
    result.queued = later.queued.length := by
  induction h with
  | stop => exact hcount rfl
  | tick _ htick _ ih => exact ih fun _ => queued_of_tick htick

end Accumulates

/-- What a batch promises about its report and about the garden it leaves. -/
structure Tallied (size : Nat) (report : BatchSummary) (later : Garden) : Prop where
  ticks : report.ticks ≤ size
  idle : report.idle = later.isIdle
  /-- It stops early only when nothing is left to do. -/
  early : report.ticks < size → report.idle = true
  /-- What still waits is counted right, if there was a tick to count it. -/
  queued : 0 < report.ticks → report.queued = later.queued.length
  settled : 0 < report.ticks → (report.queued = 0 ↔ report.idle = true)

/-- Only the last question whether anything is left to do is put on the report. -/
theorem batch_eq_some_iff :
    batch limit garden size = some (report, later) ↔
      ∃ counted, accumulate limit size {} garden = some (counted, later) ∧
        report = { counted with idle := later.isIdle } := by
  rw [batch, Option.map_eq_some_iff]
  constructor
  · rintro ⟨⟨counted, last⟩, h, heq⟩
    cases heq
    exact ⟨counted, h, rfl⟩
  · rintro ⟨counted, h, rfl⟩
    exact ⟨_, h, rfl⟩

theorem tallied_of_batch (h : batch limit garden size = some (report, later)) :
    Tallied size report later := by
  obtain ⟨counted, hcounted, rfl⟩ := batch_eq_some_iff.mp h
  have hcourse := accumulates_of_accumulate hcounted
  obtain ⟨hmost, hearly⟩ := hcourse.ticks
  rw [show ({} : BatchSummary).ticks = 0 from rfl, Nat.zero_add] at hmost hearly
  have hqueued (hticks : 0 < counted.ticks) : counted.queued = later.queued.length :=
    hcourse.queued fun hnone => absurd hnone (Nat.ne_of_gt hticks)
  refine ⟨hmost, rfl, hearly, hqueued, fun hticks => ?_⟩
  rw [hqueued hticks, List.length_eq_zero_iff]
  exact isIdle_iff.symm

/-! ## The law of batches -/

/-- Two batches in a row are one batch of both their sizes. -/
theorem batch_add (limit m n : Nat) (garden : Garden) :
    batch limit garden (m + n) =
      (batch limit garden m).bind fun first =>
        (batch limit first.2 n).map fun second => (first.1.followedBy second.1, second.2) := by
  simp only [batch, accumulate_add, Option.map_bind, Option.bind_map]
  refine congrArg _ (funext fun first => ?_)
  rw [Function.comp_apply, Function.comp_apply, accumulate_eq limit n first.1, Option.map_map,
    Option.map_map]
  rfl

/-- **The law of batches.** Whatever the garden is, a batch of `m + n` ticks is a batch of `m` ticks
followed by one of `n`: the garden that is left is the same, the counts add up, and what waits and
whether anything does is what the last tick says. Each batch keeps its promises, and one of an idle
garden changes nothing. How many steps the nested work of a tick may take does not matter, once they
suffice. -/
theorem batches_join (garden : Garden) :
    (∀ limit m n, batch limit garden (m + n) =
      (batch limit garden m).bind fun first =>
        (batch limit first.2 n).map fun second => (first.1.followedBy second.1, second.2)) ∧
    (∀ limit size report later, batch limit garden size = some (report, later) →
      Tallied size report later) ∧
    (garden.isIdle = true → ∀ limit size,
      batch limit garden size = some ({ idle := true }, garden)) ∧
    ∀ limit more size result, batch limit garden size = some result → limit ≤ more →
      batch more garden size = some result := by
  refine ⟨fun limit m n => batch_add limit m n garden, fun limit size report later => tallied_of_batch,
    fun hidle limit size => ?_, fun limit more size result h hle => ?_⟩
  · rw [batch, accumulate_of_idle hidle, Option.map_some, hidle]
  · obtain ⟨report, later⟩ := result
    obtain ⟨counted, hcounted, rfl⟩ := batch_eq_some_iff.mp h
    exact batch_eq_some_iff.mpr
      ⟨counted, (accumulates_of_accumulate hcounted).accumulate_of_le hle, rfl⟩

/-- A pause is over after some ticks, and a leaf unfolds. -/
def dozing : PlantPlan where
  traits := { start := "PL" }
  handlers := ⟨[('P', .pause 5 5), ('L', .leaf none {})]⟩

set_option maxRecDepth 4000 in
/-- A batch of two ticks and one of eighteen, of which four are needed. -/
theorem dozing_batches : ∃ garden first mid second later,
    build 10 dozing { tickSeconds := 4 } = .ok (some garden) ∧
      batch 5 garden 2 = some (first, mid) ∧ batch 5 mid 18 = some (second, later) ∧
      (first.ticks = 2 ∧ first.queued = 1 ∧ first.idle = false) ∧
      batch 5 garden 20 = some (first.followedBy second, later) ∧
      Tallied 18 second later ∧ second.ticks = 4 ∧ later.isIdle = true ∧
      batch 9 later 7 = some ({ idle := true }, later) ∧ batch 9 mid 18 = some (second, later) := by
  obtain ⟨garden, first, mid, second, later, hbuild, hfirst, hsecond, hreport, hticks⟩ :
      ∃ garden first mid second later,
        build 10 dozing { tickSeconds := 4 } = .ok (some garden) ∧
        batch 5 garden 2 = some (first, mid) ∧ batch 5 mid 18 = some (second, later) ∧
        (first.ticks = 2 ∧ first.queued = 1 ∧ first.idle = false) ∧ second.ticks = 4 :=
    ⟨_, _, _, _, _, rfl, rfl, rfl, ⟨rfl, rfl, rfl⟩, rfl⟩
  obtain ⟨hjoin, -, -, -⟩ := batches_join garden
  obtain ⟨-, htallied, -, hmore⟩ := batches_join mid
  obtain ⟨-, -, hrest, -⟩ := batches_join later
  have hcounts := htallied 5 18 second later hsecond
  have hidle : later.isIdle = true := by
    rw [← hcounts.idle]
    exact hcounts.early (by rw [hticks]; decide)
  refine ⟨garden, first, mid, second, later, hbuild, hfirst, hsecond, hreport, ?_, hcounts, hticks,
    hidle, hrest hidle 9 7, hmore 5 9 18 _ hsecond (by decide)⟩
  rw [hjoin 5 2 18, hfirst, Option.bind_some, hsecond, Option.map_some]

end Garden
end PlantGrowth
