import PlantGrowth.Bundle.Describe
import PlantGrowth.Garden.Basic
import PlantGrowth.Json.Printer
import PlantGrowth.Json.Reader
import PlantGrowth.Plan.Codec
import PlantGrowth.Proofs.Aborting
import PlantGrowth.Proofs.Accesses
import PlantGrowth.Proofs.Accounts
import PlantGrowth.Proofs.Baked
import PlantGrowth.Proofs.Baking
import PlantGrowth.Proofs.Batches
import PlantGrowth.Proofs.Bracketed
import PlantGrowth.Proofs.Brackets
import PlantGrowth.Proofs.Budget
import PlantGrowth.Proofs.Bundle
import PlantGrowth.Proofs.Calls
import PlantGrowth.Proofs.Census
import PlantGrowth.Proofs.Chain
import PlantGrowth.Proofs.Changes
import PlantGrowth.Proofs.Claiming
import PlantGrowth.Proofs.Copies
import PlantGrowth.Proofs.Copying
import PlantGrowth.Proofs.Course
import PlantGrowth.Proofs.Cutting
import PlantGrowth.Proofs.Drawings
import PlantGrowth.Proofs.Editing
import PlantGrowth.Proofs.Emergences
import PlantGrowth.Proofs.Enclosing
import PlantGrowth.Proofs.Endless
import PlantGrowth.Proofs.Ethereal
import PlantGrowth.Proofs.Felling
import PlantGrowth.Proofs.Finishing
import PlantGrowth.Proofs.Following
import PlantGrowth.Proofs.Forks
import PlantGrowth.Proofs.Grammar
import PlantGrowth.Proofs.Growing
import PlantGrowth.Proofs.GrowingIn
import PlantGrowth.Proofs.Hanging
import PlantGrowth.Proofs.Instances
import PlantGrowth.Proofs.Iterative
import PlantGrowth.Proofs.Law
import PlantGrowth.Proofs.Leaves
import PlantGrowth.Proofs.Limbs
import PlantGrowth.Proofs.Linked
import PlantGrowth.Proofs.Live
import PlantGrowth.Proofs.Marks
import PlantGrowth.Proofs.Mentions
import PlantGrowth.Proofs.Merging
import PlantGrowth.Proofs.Modes
import PlantGrowth.Proofs.Moments
import PlantGrowth.Proofs.Orderly
import PlantGrowth.Proofs.Outlines
import PlantGrowth.Proofs.Parking
import PlantGrowth.Proofs.Plan
import PlantGrowth.Proofs.Planting
import PlantGrowth.Proofs.Prototypes
import PlantGrowth.Proofs.Reading
import PlantGrowth.Proofs.Records
import PlantGrowth.Proofs.Redraws
import PlantGrowth.Proofs.Repeating
import PlantGrowth.Proofs.Reseeding
import PlantGrowth.Proofs.Returning
import PlantGrowth.Proofs.Rewriting
import PlantGrowth.Proofs.RoundTrip
import PlantGrowth.Proofs.Rounds
import PlantGrowth.Proofs.Saving
import PlantGrowth.Proofs.Scene
import PlantGrowth.Proofs.Searching
import PlantGrowth.Proofs.Sharing
import PlantGrowth.Proofs.Splicing
import PlantGrowth.Proofs.Stages
import PlantGrowth.Proofs.Steps
import PlantGrowth.Proofs.Storing
import PlantGrowth.Proofs.Subtrees
import PlantGrowth.Proofs.Tapering
import PlantGrowth.Proofs.Tips
import PlantGrowth.Proofs.Traversing
import PlantGrowth.Proofs.Turns
import PlantGrowth.Proofs.Unturned
import PlantGrowth.Proofs.Validation
import PlantGrowth.Proofs.View
import PlantGrowth.Proofs.Visiting
import PlantGrowth.Proofs.Walk
import PlantGrowth.Proofs.WellFormed
import PlantGrowth.Proofs.Widening
import PlantGrowth.Proofs.Writing
import PlantGrowth.Proofs.Reciting
