import PlantGrowth.Arena.Basic
import PlantGrowth.Dictionary
import PlantGrowth.Text.Quoted

/-!
# Prefabs

Structure that many places of a plant share is grown once, under an identifier, and copied from then
on. The store keeps, for each identifier, whether its prototype is being grown or where it stands.
An identifier is claimed once and registered once, in this order.
-/

namespace PlantGrowth

/-- How far an identifier is. -/
inductive PrefabState where
  /-- Its prototype is being grown. -/
  | claimed
  /-- Its prototype stands under this node. -/
  | ready (root : NodeId)
  deriving DecidableEq, Repr

/-- What a look-up finds. -/
inductive PrefabLookup where
  /-- A prototype to copy. -/
  | hit (root : NodeId)
  /-- A prototype that is still being grown. -/
  | inProgress
  /-- Nothing. -/
  | miss
  deriving DecidableEq, Repr

/-- Why a prototype was not registered. -/
inductive PrefabError where
  /-- The identifier has a prototype. -/
  | alreadyRegistered (identifier : String)
  /-- Nobody claimed the identifier. -/
  | notClaimed (identifier : String)
  deriving DecidableEq, Repr

/-- The text shown to the user. -/
def PrefabError.message : PrefabError → String
  | .alreadyRegistered identifier =>
    let name := quoted identifier
    s!"bake identifier {name} is already registered"
  | .notClaimed identifier =>
    let name := quoted identifier
    s!"bake identifier {name} was registered without being claimed"

/-- The identifiers met so far, and the number of look-ups that found a prototype. -/
structure PrefabStore where
  entries : Dictionary PrefabState := .empty
  hits : Nat := 0

namespace PrefabStore

instance : Inhabited PrefabStore := ⟨{}⟩

/-- The number of identifiers. -/
def size (store : PrefabStore) : Nat := store.entries.size

/-- Has no identifier been met? -/
def isEmpty (store : PrefabStore) : Bool := store.entries.isEmpty

/-- How far an identifier is. -/
def find? (store : PrefabStore) (identifier : String) : Option PrefabState :=
  store.entries.find? identifier

/-- Looks an identifier up, counting the hits. -/
def lookup (store : PrefabStore) (identifier : String) : PrefabLookup × PrefabStore :=
  match store.find? identifier with
  | some (.ready root) => (.hit root, { store with hits := store.hits + 1 })
  | some .claimed => (.inProgress, store)
  | none => (.miss, store)

/-- The prototype of an identifier. -/
def prototype? (store : PrefabStore) (identifier : String) : Option NodeId :=
  match store.find? identifier with
  | some (.ready root) => some root
  | _ => none

/-- Notes that the prototype of an identifier is being grown. Refused if that was noted before. -/
def claim (store : PrefabStore) (identifier : String) : Bool × PrefabStore :=
  match store.find? identifier with
  | some _ => (false, store)
  | none => (true, { store with entries := store.entries.insert identifier .claimed })

/-- Is some prototype being grown? -/
def isGrowing (store : PrefabStore) : Bool := store.entries.anyValue (· == .claimed)

/-- Notes where the prototype of a claimed identifier stands. -/
def register (store : PrefabStore) (identifier : String) (root : NodeId) :
    Except PrefabError Unit × PrefabStore :=
  match store.find? identifier with
  | some .claimed =>
    (.ok (), { store with entries := store.entries.insert identifier (.ready root) })
  | some (.ready _) => (.error (.alreadyRegistered identifier), store)
  | none => (.error (.notClaimed identifier), store)

end PrefabStore
end PlantGrowth
