import PlantGrowth.World.Task

/-!
# Pausing

A pause holds a live chain until the world's clock has gone on by a random number of seconds. Its
node is ethereal and is gone when the chain goes on. Baked chains do not wait.
-/

namespace PlantGrowth

variable {H : Type}

namespace World

/-- What a pause does. -/
def pause (w : World H) (minSeconds maxSeconds : Float) (node : NodeId) (bundle : Bundle H)
    (baked : Bool) : Effect H :=
  match w.coreOrWarn "pause" node bundle with
  | (none, w) => { world := w.destroy node }
  | (some core, w) =>
    if baked then { world := w, tasks := [.carryOn node { core, bundle }, .destroy node] }
    else
      let (duration, w) := w.drawBetween minSeconds maxSeconds
      { world := w
        continuation := some (.wait
          { node, deadline := w.time + duration, work := some { core, bundle } }) }

end World

/-- Goes on with the chain once it is time. -/
def Delay.resume (delay : Delay H) (w : World H) : Resumption H :=
  if w.time < delay.deadline then { step := .pending, continuation := .wait delay, world := w }
  else
    { step := .complete
      continuation := .wait { delay with work := none }
      world := w
      tasks :=
        match delay.work with
        | some chain => [.advance delay.node chain false, .destroy delay.node]
        | none => [.destroy delay.node] }

end PlantGrowth
