import PlantGrowth.Growth.Machine

/-!
# What a leaf comes to

A leaf looks for the core entries, the heading and its node, turns the node to the heading and then is
full-grown at once, or leaves the rest for later. `World.Unfolds` lists the four outcomes, so that what
is true of every leaf is proved by going through them and not by opening the definition again.
-/

namespace PlantGrowth

variable {H : Type}

/-- The leaf of a handler's call, before anything of it has grown. -/
structure Unfolding.Buds (unfolding : Unfolding H) (shape : LeafShape) (node : NodeId)
    (bundle : Bundle H) : Prop where
  node : unfolding.node = node
  shape : unfolding.shape = shape
  work : ∃ core, unfolding.work = some { core, bundle }

namespace World

/-- The world in which a leaf's node is turned to the heading. The warnings may be more. -/
def facing (w : World H) (node : NodeId) (heading : Vec3) (warnings : Array Warning) : World H :=
  { w with nodes := w.nodes.place node (·.face heading), warnings }

/-- The outcomes of a leaf's call. -/
inductive Unfolds (w : World H) (shape : LeafShape) (node : NodeId) (bundle : Bundle H) :
    Bool → Effect H → Prop where
  /-- Something is missing. -/
  | nothing (baked : Bool) (warnings : Array Warning) :
      Unfolds w shape node bundle baked { world := { w with warnings } }
  /-- A baked leaf is full-grown, and may show what other leaves show. -/
  | bakes {heading : Vec3} {warnings : Array Warning} {unfolding : Unfolding H}
      {blade : Option Blade} {later : World H} (hbuds : unfolding.Buds shape node bundle)
      (hblade : (w.facing node heading warnings).bakedOutline unfolding = (blade, later)) :
      Unfolds w shape node bundle true
        { world := (unfolding.finish later blade).world
          tasks := (unfolding.finish later blade).tasks }
  /-- A leaf that is not animated is full-grown. -/
  | ripe {heading : Vec3} {warnings : Array Warning} {unfolding : Unfolding H}
      (hbuds : unfolding.Buds shape node bundle) :
      Unfolds w shape node bundle false
        { world := (unfolding.finish (w.facing node heading warnings) (unfolding.outline? 1)).world
          tasks := (unfolding.finish (w.facing node heading warnings) (unfolding.outline? 1)).tasks }
  /-- A leaf begins to unfold. -/
  | begins {heading : Vec3} {warnings : Array Warning} {unfolding : Unfolding H}
      (hbuds : unfolding.Buds shape node bundle) :
      Unfolds w shape node bundle false
        { world := w.facing node heading warnings, continuation := some (.leaf unfolding) }

/-- **A leaf has no other outcome.** -/
theorem unfolds_leaf (w : World H) (shape : LeafShape) (node : NodeId) (bundle : Bundle H)
    (baked : Bool) : w.Unfolds shape node bundle baked (w.leaf shape node bundle baked) := by
  cases hcore : bundle.core with
  | error missing =>
    rw [leaf, coreOrWarn, hcore]
    exact .nothing baked _
  | ok core =>
    cases hheading : bundle.vec3? Key.heading with
    | none =>
      rw [leaf, coreOrWarn, hcore, hheading]
      exact .nothing baked _
    | some heading =>
      obtain ⟨warnings, hwarned⟩ : ∃ warnings, (if shape.hasSegments then w
          else w.warn (.noSegments node shape.medialSegments shape.lateralSegments)) =
            { w with warnings } := by
        cases shape.hasSegments with
        | true => exact ⟨w.warnings, rfl⟩
        | false => exact ⟨_, rfl⟩
      simp only [leaf, coreOrWarn, hcore, hheading, hwarned]
      cases hnode : w.nodes.contains node with
      | false => exact .nothing baked warnings
      | true =>
        simp only [if_true]
        cases baked with
        | true => exact .bakes ⟨rfl, rfl, core, rfl⟩ rfl
        | false =>
          cases shape.animate with
          | true => exact .begins ⟨rfl, rfl, core, rfl⟩
          | false => exact .ripe ⟨rfl, rfl, core, rfl⟩

end World
end PlantGrowth
