import PlantGrowth.Growth.Machine

/-!
# The ways a continuation is resumed

There are few ways, and `Continuation.Resumes` lists them: for each kind of continuation, whether it
needs another tick or is done, what it has become, what it has changed in the world and what it sets
off. What is true of every resumption is proved by going through this list, and not by opening the
definitions again.
-/

namespace PlantGrowth

variable {H : Type} [Host H]

/-- What resuming a continuation comes to. -/
inductive Continuation.Resumes (w : World H) : Continuation H → Resumption H → Prop where
  /-- A dispatch is due as soon as it is resumed. -/
  | due (next : NextDispatch H) : Resumes w (.dispatch next)
      { step := .complete
        continuation := .dispatch { next with work := none }
        world := w
        tasks :=
          match next.work with
          | some chain => [.advance next.predecessor chain false]
          | none => [] }
  /-- It is not yet time. -/
  | early (delay : Delay H) : Resumes w (.wait delay)
      { step := .pending, continuation := .wait delay, world := w }
  /-- It is time: the chain goes on, and the node of the pause goes. -/
  | late (delay : Delay H) : Resumes w (.wait delay)
      { step := .complete
        continuation := .wait { delay with work := none }
        world := w
        tasks :=
          match delay.work with
          | some chain => [.advance delay.node chain false, .destroy delay.node]
          | none => [.destroy delay.node] }
  /-- The node of the branch is gone. -/
  | lostBranch (growth : Elongation H) : Resumes w (.branch growth)
      { step := .complete, continuation := .branch growth, world := w }
  /-- The branch has its length. -/
  | grown (growth : Elongation H) : Resumes w (.branch growth) (growth.finish w)
  /-- The branch moves its node on and is measured. -/
  | grows (growth : Elongation H) (radius distance : Float) (offset : Vec3) :
      Resumes w (.branch growth)
        { step := .pending
          continuation := .branch { growth with bottomRadius := radius }
          world := Elongation.tellRadius { growth with bottomRadius := radius }
            (Elongation.measure { growth with bottomRadius := radius }
              (growth.carryTip (w.mapNodes (·.place growth.node (·.move offset)))) distance) }
  /-- The node of the leaf is gone. -/
  | lostLeaf (unfolding : Unfolding H) : Resumes w (.leaf unfolding)
      { step := .complete, continuation := .leaf unfolding, world := w }
  /-- The leaf unfolds further. -/
  | unfolds (unfolding : Unfolding H) (elapsed : Float) (blade : Option Blade) :
      Resumes w (.leaf unfolding)
        { step := .pending
          continuation := .leaf { unfolding with elapsed }
          world := Unfolding.record { unfolding with elapsed } w blade }
  /-- The leaf has its size. -/
  | unfolded (unfolding : Unfolding H) (blade : Option Blade) :
      Resumes w (.leaf unfolding) (unfolding.finish w blade)
  /-- The instance gets a size. -/
  | emerges (scaling : Emergence) (done : Bool) (elapsed scale : Float) :
      Resumes w (.emergence scaling)
        { step := if done then .complete else .pending
          continuation := .emergence { scaling with elapsed }
          world := w.mapNodes (·.place scaling.node fun t => { t with scale }) }
  /-- There is no instance. -/
  | lostInstance (scaling : Emergence) (elapsed : Float) : Resumes w (.emergence scaling)
      { step := .complete, continuation := .emergence { scaling with elapsed }, world := w }
  | host (work : H) : Resumes w (.host work)
      { step := (Host.resume work w).1
        continuation := .host (Host.resume work w).2.1
        world := (Host.resume work w).2.2 }

namespace Continuation

/-- **A continuation is resumed in one of these ways.** -/
theorem resumes (work : Continuation H) (w : World H) : work.Resumes w (work.resume w) := by
  cases work with
  | dispatch next => exact Resumes.due next
  | wait delay =>
    simp only [resume, Delay.resume]
    split
    · exact Resumes.early delay
    · exact Resumes.late delay
  | branch growth =>
    simp only [resume, Elongation.resume]
    split
    · exact Resumes.lostBranch growth
    · split
      · exact Resumes.lostBranch growth
      · split
        · exact Resumes.grown growth
        · exact Resumes.grows growth _ _ _
  | leaf unfolding =>
    simp only [resume, Unfolding.resume]
    split
    · exact Resumes.lostLeaf unfolding
    · split
      · exact Resumes.lostLeaf unfolding
      · split
        · exact Resumes.unfolds unfolding _ _
        · exact Resumes.unfolded unfolding _
  | emergence scaling =>
    simp only [resume, Emergence.resume]
    split
    · have hemerges := @Resumes.emerges H _ w scaling
        (decide (scaling.duration ≤ scaling.elapsed + w.deltaTime)) (scaling.elapsed + w.deltaTime)
      simp only [decide_eq_true_eq] at hemerges ⊢
      exact hemerges _
    · exact Resumes.lostInstance scaling _
  | host work => exact Resumes.host work

/-- A dispatch that is due goes on with its chain. -/
theorem resume_dispatch {next : NextDispatch H} {chain : Chain H} (h : next.work = some chain)
    (w : World H) :
    (Continuation.dispatch next).resume w =
      { step := .complete, continuation := .dispatch { next with work := none }, world := w
        tasks := [.advance next.predecessor chain false] } := by
  show next.resume w = _
  rw [NextDispatch.resume, h]

end Continuation
end PlantGrowth
