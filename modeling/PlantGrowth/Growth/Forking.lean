import PlantGrowth.World.Task

/-!
# Forking

A fork stands on an opening bracket. It cuts the bracketed part out of the sentence and continues
two chains from one anchor: first the one that reads what follows the bracket, then the one that
reads its interior. If no bracket closes, both are lost.
-/

namespace PlantGrowth

variable {H : Type}

namespace World

/-- What a fork does, live and baked. -/
def fork (w : World H) (closing : Char) (node : NodeId) (bundle : Bundle H) : Effect H :=
  match w.coreOrWarn "split" node bundle with
  | (none, w) => { world := w.destroy node }
  | (some core, w) =>
    let opening := ((w.nodes.get? node).map (·.symbol)).getD '['
    match core.sentence.takeBranch opening closing with
    | (.ok interior, residue) =>
      { world := w
        tasks :=
          [.carryOn node { core := { core with sentence := residue }, bundle },
            .carryOn node { core := { core with sentence := interior }, bundle },
            .destroy node] }
    | (.error cause, _) => { world := (w.warn (.forkFailed node cause)).destroy node }

end World
end PlantGrowth
