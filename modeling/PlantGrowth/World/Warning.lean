import PlantGrowth.Bundle.Basic
import PlantGrowth.PrefabStore
import PlantGrowth.Sentence.Branch

/-!
# Warnings

Growth never stops on a fault: the chain concerned ends or goes on without the missing value, and
the world keeps a record of what went wrong.
-/

namespace PlantGrowth

/-- What went wrong at a node. -/
inductive Warning where
  /-- A handler lacks a core entry of its bundle. -/
  | missingCore (handler : String) (node : NodeId) (missing : MissingEntry)
  /-- There is nothing to turn. -/
  | nothingToTurn (node : NodeId) (key : String)
  /-- There is no heading to move along. -/
  | nothingToFollow (node : NodeId)
  /-- There is no heading to grow along. -/
  | noHeading (node : NodeId)
  /-- The bundle's sentence cannot be brought up to date. -/
  | wrongSentenceKind (node : NodeId)
  /-- The symbol for the tip of a branch is bound to nothing. -/
  | unregisteredTip (symbol : Char) (node : NodeId)
  /-- No branch could be cut out of the sentence. -/
  | forkFailed (node : NodeId) (cause : CutError)
  /-- A leaf has no segments. -/
  | noSegments (node : NodeId) (medial lateral : Nat)
  /-- A prototype was not registered. -/
  | bakeRefused (node : NodeId) (cause : PrefabError)
  /-- A continuation was dropped. -/
  | unsupported (label reason : String)
  deriving DecidableEq, Repr

namespace Warning

/-- How grave it is. A branch that is lost is an error. -/
def level : Warning → String
  | .forkFailed .. => "ERROR"
  | _ => "WARN"

/-- The text shown to the user. -/
def message : Warning → String
  | .missingCore _ _ missing => missing.message ++ "; aborting node"
  | .nothingToTurn _ key => "parameter " ++ quoted key ++ " missing, skipping rotation"
  | .nothingToFollow _ => "parameter " ++ quoted Key.heading ++ " missing, skipping translation"
  | .noHeading _ => "parameter " ++ quoted Key.heading ++ " missing, not growing"
  | .wrongSentenceKind _ =>
    "bundle entry " ++ quoted Key.sentence ++ " has the wrong type, not dispatching"
  | .unregisteredTip .. => "end handler is not registered"
  | .forkFailed _ cause => "split failed: " ++ cause.message
  | .noSegments .. => "leaf needs at least one segment each way, no outline recorded"
  | .bakeRefused _ cause => cause.message
  | .unsupported _ reason => "unsupported yield, dropping continuation: " ++ reason

/-- What it is about. -/
def details : Warning → List (String × Json)
  | .missingCore handler node _ => [("handler", .str handler), ("node", .ofNat node)]
  | .nothingToTurn node _ => [("node", .ofNat node)]
  | .nothingToFollow node => [("node", .ofNat node)]
  | .noHeading node => [("node", .ofNat node)]
  | .wrongSentenceKind node => [("node", .ofNat node)]
  | .unregisteredTip symbol node => [("symbol", .ofSymbol symbol), ("node", .ofNat node)]
  | .forkFailed node _ => [("node", .ofNat node)]
  | .noSegments node medial lateral =>
    [("node", .ofNat node), ("medial", .ofNat medial), ("lateral", .ofNat lateral)]
  | .bakeRefused node _ => [("node", .ofNat node)]
  | .unsupported label _ => [("continuation", .str label)]

end Warning
end PlantGrowth
