import PlantGrowth.Arena.Basic
import PlantGrowth.Dictionary
import PlantGrowth.Handler.Basic

/-!
# Bundles

Handlers of a chain pass values on to each other in a bundle, without knowing of each other. An
entry keeps the kind it was first written with: a value of another kind is neither read nor written
over it. Each hand-over is a copy, so the branches of a plant never see each other's values.
-/

namespace PlantGrowth

/-! ## Names of entries

The entries that the handlers of the library use. -/

namespace Key

/-- The sentence as of the latest dispatch. -/
def sentence : String := "Sentence"

/-- The registry of the plant. -/
def registry : String := "Implementations"

/-- The rules of the plant. -/
def rules : String := "RuleSet"

/-- Which generation of its sentence the chain is in. -/
def generation : String := "Generation"

/-- The last generation that the chain may reach. -/
def iterations : String := "Iterations"

/-- Where the plant began. -/
def position : String := "Position"

/-- The direction of growth. -/
def heading : String := "Heading"

/-- A rotation that goes along with the chain. -/
def rotation : String := "Rotation"

/-- The length of the next branch. -/
def branchLength : String := "BranchLength"

/-- The radius of the next branch. -/
def branchRadius : String := "BranchRadius"

/-- The speed of the next branch. -/
def branchSpeed : String := "BranchGrowSpeed"

/-- The number of faces of the next branch. -/
def branchFaces : String := "BranchFaceNum"

/-- Whom the next branch tells its base radius. -/
def growLoop : String := "GrowLoopCallback"

/-- The size of the next leaf along its midrib. -/
def leafMedialSize : String := "LeafMedialSize"

/-- The size of the next leaf away from its midrib. -/
def leafLateralSize : String := "LeafLateralSize"

/-- The time that the next leaf takes to unfold. -/
def leafGrowTime : String := "LeafGrowTime"

end Key

/-- What a growing branch tells its base radius to. -/
inductive Callback (H : Type) where
  /-- The branch before it, whose top radius becomes the base radius times a factor. -/
  | topRadius (node : NodeId) (factor : Float)
  /-- The host program. -/
  | host (callback : H)

/-- The kinds of values. -/
inductive Kind where
  | int | float | bool | vec2 | vec3 | vec4 | rotation | curve | color | sentence | rules | registry
  | callback
  deriving DecidableEq, Repr, Inhabited

/-- A value of one of the kinds. -/
inductive Value (H : Type) where
  | int (n : Int)
  | float (x : Float)
  | bool (b : Bool)
  | vec2 (x y : Float)
  | vec3 (v : Vec3)
  | vec4 (x y z w : Float)
  | rotation (q : Rotation)
  | curve (c : Curve)
  | color (c : Color)
  | sentence (s : Sentence)
  | rules (r : RuleSet)
  | registry (r : Registry H)
  | callback (c : Callback H)

variable {H : Type}

/-- The kind of a value. -/
def Value.kind : Value H → Kind
  | .int _ => .int
  | .float _ => .float
  | .bool _ => .bool
  | .vec2 .. => .vec2
  | .vec3 _ => .vec3
  | .vec4 .. => .vec4
  | .rotation _ => .rotation
  | .curve _ => .curve
  | .color _ => .color
  | .sentence _ => .sentence
  | .rules _ => .rules
  | .registry _ => .registry
  | .callback _ => .callback

/-- Values under names. -/
structure Bundle (H : Type) where
  entries : Dictionary (Value H) := .empty

namespace Bundle

instance : Inhabited (Bundle H) := ⟨{}⟩

/-- The bundle without entries. -/
def empty : Bundle H := {}

/-- The number of entries. -/
def size (bundle : Bundle H) : Nat := bundle.entries.size

/-- Are there no entries? -/
def isEmpty (bundle : Bundle H) : Bool := bundle.entries.isEmpty

/-- The value under a name. -/
def find? (bundle : Bundle H) (key : String) : Option (Value H) := bundle.entries.find? key

/-- Is there an entry of that name? -/
def contains (bundle : Bundle H) (key : String) : Bool := bundle.entries.contains key

/-- The value under a name, if it is of the given kind. -/
def read? (bundle : Bundle H) (kind : Kind) (key : String) : Option (Value H) :=
  (bundle.find? key).filter fun value => value.kind == kind

/-- The bundle with a value under a name, whatever was there before. -/
def insert (bundle : Bundle H) (key : String) (value : Value H) : Bundle H :=
  ⟨bundle.entries.insert key value⟩

/-- Writes a new entry. Refused if there is one of that name. -/
def add (bundle : Bundle H) (key : String) (value : Value H) : Bool × Bundle H :=
  if bundle.contains key then (false, bundle) else (true, bundle.insert key value)

/-- Writes over an entry. Refused if there is none of that name and kind. -/
def overwrite (bundle : Bundle H) (key : String) (value : Value H) : Bool × Bundle H :=
  match bundle.find? key with
  | some old => if old.kind = value.kind then (true, bundle.insert key value) else (false, bundle)
  | none => (false, bundle)

/-- Writes an entry, new or not. Refused if there is one of that name and of another kind. -/
def assign (bundle : Bundle H) (key : String) (value : Value H) : Bool × Bundle H :=
  if bundle.contains key then bundle.overwrite key value else bundle.add key value

/-- The bundle after a write that may have been refused. -/
def write (bundle : Bundle H) (key : String) (value : Value H) : Bundle H :=
  (bundle.assign key value).2

/-- Takes an entry out, and returns its value. -/
def remove (bundle : Bundle H) (key : String) : Option (Value H) × Bundle H :=
  (bundle.find? key, ⟨bundle.entries.erase key⟩)

/-- Adds an entry to a merged bundle: over one of the same kind, or as a new one. -/
def mergeEntry (bundle : Bundle H) (entry : String × Value H) : Bundle H :=
  match bundle.overwrite entry.1 entry.2 with
  | (true, merged) => merged
  | (false, merged) => (merged.add entry.1 entry.2).2

/-- One bundle out of several. Of several values under a name, the first decides the kind, and the
last one of that kind counts. -/
def merge (bundles : List (Bundle H)) : Bundle H :=
  bundles.foldl (fun merged bundle => bundle.entries.entries.foldl mergeEntry merged) empty

/-! ## Typed reads -/

/-- The integer under a name. -/
def int? (bundle : Bundle H) (key : String) : Option Int :=
  match bundle.find? key with
  | some (.int n) => some n
  | _ => none

/-- The number under a name. -/
def float? (bundle : Bundle H) (key : String) : Option Float :=
  match bundle.find? key with
  | some (.float x) => some x
  | _ => none

/-- The vector under a name. -/
def vec3? (bundle : Bundle H) (key : String) : Option Vec3 :=
  match bundle.find? key with
  | some (.vec3 v) => some v
  | _ => none

/-- The rotation under a name. -/
def rotation? (bundle : Bundle H) (key : String) : Option Rotation :=
  match bundle.find? key with
  | some (.rotation q) => some q
  | _ => none

/-- The sentence under a name. -/
def sentence? (bundle : Bundle H) (key : String) : Option Sentence :=
  match bundle.find? key with
  | some (.sentence s) => some s
  | _ => none

/-- The rules under a name. -/
def rules? (bundle : Bundle H) (key : String) : Option RuleSet :=
  match bundle.find? key with
  | some (.rules r) => some r
  | _ => none

/-- The registry under a name. -/
def registry? (bundle : Bundle H) (key : String) : Option (Registry H) :=
  match bundle.find? key with
  | some (.registry r) => some r
  | _ => none

/-- The callback under a name. -/
def callback? (bundle : Bundle H) (key : String) : Option (Callback H) :=
  match bundle.find? key with
  | some (.callback c) => some c
  | _ => none

end Bundle

/-! ## The core of a chain -/

/-- What a handler needs to continue its chain. -/
structure Core (H : Type) where
  sentence : Sentence
  registry : Registry H
  rules : RuleSet

/-- A core entry that is missing, or of the wrong kind. -/
structure MissingEntry where
  key : String
  deriving DecidableEq, Repr

/-- The text shown to the user. -/
def MissingEntry.message (missing : MissingEntry) : String :=
  let key := quoted missing.key
  s!"missing required parameter {key}"

/-- The core entries of a bundle. The first one missing is named. -/
def Bundle.core (bundle : Bundle H) : Except MissingEntry (Core H) :=
  match bundle.sentence? Key.sentence with
  | none => .error ⟨Key.sentence⟩
  | some sentence =>
    match bundle.registry? Key.registry with
    | none => .error ⟨Key.registry⟩
    | some registry =>
      match bundle.rules? Key.rules with
      | none => .error ⟨Key.rules⟩
      | some rules => .ok { sentence, registry, rules }

/-- All that travels along a chain: the core and the bundle. The core's sentence is the one to read
on from; the bundle's entry of that name is brought up to date at the next dispatch. -/
structure Chain (H : Type) where
  core : Core H
  bundle : Bundle H

end PlantGrowth
