import PlantGrowth.World.Task

/-!
# Dispatch

Dispatch reads a chain's sentence on to the next symbol that is bound to a handler, makes a node for
it and lets the handler act there. At the end of the sentence the rules are applied to all of it and
the search goes on in the next generation, up to the last generation allowed. The sentinel ends a
chain.
-/

namespace PlantGrowth

variable {H : Type}

/-- What reading a row of symbols comes to. -/
inductive Reading (H : Type) where
  /-- A symbol that is bound; the cursor stands on it. -/
  | found (symbol : Char) (prototype : Prototype H) (sentence : Sentence)
  /-- The sentinel. -/
  | ended
  /-- The end of the sentence. -/
  | exhausted (sentence : Sentence)

/-- Reads the given symbols, which are those after the sentence's cursor, up to the first one that
is bound or the sentinel. -/
def Sentence.readTo (registry : Registry H) (s : Sentence) : List Char → Reading H
  | [] => .exhausted s
  | symbol :: rest =>
    let read := { s with cursor := s.cursor + 1 }
    if symbol = sentinel then .ended
    else
      match registry.find? symbol with
      | some prototype => .found symbol prototype read
      | none => readTo registry read rest

/-- The chain in its next generation, and none if that is past the last one allowed. `usual` is the
last generation of chains that name none. -/
def Chain.renew? (usual : Nat) (chain : Chain H) : Option (Chain H) :=
  let sentence := chain.core.rules.apply chain.core.sentence
  let bundle := chain.bundle.write Key.sentence (.sentence sentence)
  let generation := (bundle.int? Key.generation).getD 0 + 1
  let bundle := bundle.write Key.generation (.int generation)
  if (bundle.int? Key.iterations).getD usual < generation then none
  else some { core := { chain.core with sentence }, bundle }

/-- Is the next generation due, with the counter at the largest integer of 64 bits? Then there is no
next number, and the program stops. -/
def Chain.overflows (chain : Chain H) : Bool :=
  !chain.core.sentence.hasUnread &&
    decide (Int64.maxValue.toInt ≤ (chain.bundle.int? Key.generation).getD 0)

/-- Is it a search that has no next number for the counter of generations? -/
def Task.overflows : Task H → Bool
  | .search _ chain _ => chain.overflows
  | _ => false

namespace World

/-- Makes a node for a symbol that was found and lets its handler act there. Once a chain bakes it
bakes on; a prototype can start it baking. -/
def dispatch (w : World H) (predecessor : NodeId) (symbol : Char) (prototype : Prototype H)
    (sentence : Sentence) (bundle : Bundle H) (baked : Bool) : World H × List (Task H) :=
  match bundle.assign Key.sentence (.sentence sentence) with
  | (false, _) => (w.warn (.wrongSentenceKind predecessor), [])
  | (true, bundle) =>
    let baked := baked || prototype.baked
    let (node, nodes) := w.nodes.addNode
      { symbol, name := prototype.name, previous := w.nodes.nearestAnchor predecessor
        ethereal := prototype.ethereal, baked, prefab := prototype.prefab }
    ({ w with nodes }.countDispatch, [.call prototype.handler node bundle baked])

/-- One round of the search: takes the next generation if the sentence is read to its end, then
reads on. -/
def search (w : World H) (predecessor : NodeId) (chain : Chain H) (baked : Bool) :
    World H × List (Task H) :=
  let current :=
    if chain.core.sentence.hasUnread then some chain
    else chain.renew? w.settings.maxGenerations
  match current with
  | none => (w, [])
  | some chain =>
    match chain.core.sentence.unread with
    | [] => (w, [])
    | symbols =>
      match chain.core.sentence.readTo chain.core.registry symbols with
      | .ended => (w, [])
      | .found symbol prototype sentence =>
        w.dispatch predecessor symbol prototype sentence chain.bundle baked
      | .exhausted sentence =>
        (w, [.search predecessor { chain with core := { chain.core with sentence } } baked])

/-- Continues a chain after a node, unless the node is dead. -/
def advance (w : World H) (predecessor : NodeId) (chain : Chain H) (baked : Bool) :
    World H × List (Task H) :=
  if w.nodes.isDead predecessor then (w, []) else (w, [.search predecessor chain baked])

/-- Goes on with a search, in at most `limit` rounds, until it comes to a handler that is to be called
or to nothing. There is no result where the counter of generations has no next number. -/
def seek : Nat → World H × List (Task H) → Option (World H × List (Task H))
  | 0, (_, [.search ..]) => none
  | limit + 1, (w, [.search predecessor chain baked]) =>
    if chain.overflows then none else seek limit (w.search predecessor chain baked)
  | _, found => some found

/-- Parks the dispatch of what follows a node. -/
def parkNext (w : World H) (predecessor : NodeId) (chain : Chain H) : World H :=
  w.park (.dispatch { predecessor, work := some chain })

/-- Continues a chain after a node: at once if the node is baked, and in a later tick otherwise. -/
def carryOn (w : World H) (node : NodeId) (chain : Chain H) : World H × List (Task H) :=
  match w.nodes.get? node with
  | some state =>
    if state.baked then (w, [.advance node chain true]) else (w.parkNext node chain, [])
  | none => (w.parkNext node chain, [])

/-- Makes a dead node below `owner` for a symbol, and lets its handler act there once. Being dead,
the node never continues the chain. -/
def attachTip (w : World H) (owner : NodeId) (registry : Registry H) (symbol : Char)
    (bundle : Bundle H) (baked : Bool) : Option NodeId × World H × List (Task H) :=
  match registry.find? symbol with
  | none => (none, w.warn (.unregisteredTip symbol owner), [])
  | some prototype =>
    let (node, nodes) := w.nodes.addNode
      { symbol, name := prototype.name, previous := some owner, ethereal := prototype.ethereal
        baked, prefab := prototype.prefab }
    (some node, { w with nodes := nodes.kill node }.countDispatch,
      [.call prototype.handler node bundle baked])

end World

/-- Does the dispatch that is due. -/
def NextDispatch.resume (next : NextDispatch H) (w : World H) : Resumption H :=
  { step := .complete
    continuation := .dispatch { next with work := none }
    world := w
    tasks :=
      match next.work with
      | some chain => [.advance next.predecessor chain false]
      | none => [] }

end PlantGrowth
