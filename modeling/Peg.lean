import Peg.Session
import Peg.Proofs.Arena.Slots
import Peg.Proofs.Arena.Builtins
import Peg.Proofs.Arena.Operations
import Peg.Proofs.Arena.WellFormed
import Peg.Proofs.Engine.Depth
import Peg.Proofs.Engine.Yields
import Peg.Proofs.Engine.Evaluation
import Peg.Proofs.Engine.Adequacy
import Peg.Proofs.Engine.References
import Peg.Proofs.Engine.Stability
import Peg.Proofs.Engine.Promotion
import Peg.Proofs.Engine.Termination
import Peg.Proofs.Reading.Reference
import Peg.Proofs.Reading.Layout
import Peg.Proofs.Reading.Tokens
import Peg.Proofs.Reading.Agreement
import Peg.Proofs.Reading.NormalForm
import Peg.Proofs.Reading.Printing
import Peg.Proofs.Reading.Sources
import Peg.Proofs.Graph.Walk
import Peg.Proofs.Graph.Components
import Peg.Proofs.Graph.Partition
import Peg.Proofs.Meaning.Interpreter
import Peg.Proofs.Meaning.Contents
import Peg.Proofs.Meaning.Expressed
import Peg.Proofs.Meaning.Realized
import Peg.Proofs.Meaning.Simulation
import Peg.Proofs.Realization.Additions
import Peg.Proofs.Realization.Unpromoted
import Peg.Proofs.Realization.Stages
import Peg.Proofs.Realization.Outcome
import Peg.Proofs.Meaning.Recital
import Peg.Proofs.Realization.Records
import Peg.Proofs.Reading.Leftovers
import Peg.Proofs.Reading.Graphic
import Peg.Proofs.Reading.Tails
import Peg.Proofs.Reading.Trimmed
import Peg.Proofs.Reading.Cuts
import Peg.Proofs.Reading.SingleRule
import Peg.Proofs.Realization.WhiteSpaceRule
import Peg.Proofs.Realization.Build
import Peg.Proofs.Engine.Predicates
import Peg.Proofs.Engine.TextAhead
import Peg.Proofs.Engine.Positions
import Peg.Proofs.Meaning.Flattening
import Peg.Proofs.Realization.Flattened
import Peg.Proofs.Engine.Repetition
import Peg.Proofs.Engine.Runs
import Peg.Proofs.Reading.Entries
import Peg.Proofs.Reading.Verdict
import Peg.Proofs.Regex.Matches
import Peg.Proofs.Reading.Separators
import Peg.Proofs.Regex.Waves
import Peg.Proofs.Regex.Leftmost
import Peg.Proofs.Regex.Compiled
import Peg.Proofs.Regex.Enclosed.Texts
import Peg.Proofs.Regex.Enclosed.Classes
import Peg.Proofs.Regex.Enclosed.Patterns
import Peg.Proofs.Regex.Engine
import Peg.Proofs.Regex.Anchored
import Peg.Proofs.Graph.Traversal
import Peg.Proofs.Reading.Quoting
