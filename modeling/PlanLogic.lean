import PlanLogic.Main
import PlanLogic.Proofs.Reading.Scanning
import PlanLogic.Proofs.Reading.Expressions
import PlanLogic.Proofs.Reading.TypedLists
import PlanLogic.Proofs.Reading.Conditions
import PlanLogic.Proofs.Reading.Acceptance
import PlanLogic.Proofs.Decimal.Bits
import PlanLogic.Proofs.Decimal.Value
import PlanLogic.Proofs.Decimal.Nearest
import PlanLogic.Proofs.Decimal.Digits
import PlanLogic.Proofs.Decimal.RoundTrip
import PlanLogic.Proofs.Printing.Lexemes
import PlanLogic.Proofs.Printing.RoundTrip
import PlanLogic.Proofs.Compilation.Outline
import PlanLogic.Proofs.Compilation.Interpreter
import PlanLogic.Proofs.Compilation.Scoping
import PlanLogic.Proofs.Compilation.Layout
import PlanLogic.Proofs.Compilation.Simulation
import PlanLogic.Proofs.Compilation.Environments
import PlanLogic.Proofs.Compilation.Outcomes
import PlanLogic.Proofs.Compilation.Arrangement
import PlanLogic.Proofs.Negation.Opposites
import PlanLogic.Proofs.Decimal.Numerals
import PlanLogic.Proofs.Text.Words
import PlanLogic.Proofs.Facts.Keys
import PlanLogic.Proofs.Facts.Assignments
import PlanLogic.Proofs.Documents.RoundTrip
import PlanLogic.Proofs.Evaluation.Coupling
import PlanLogic.Proofs.Evaluation.Compiled
import PlanLogic.Proofs.Evaluation.Invariants
import PlanLogic.Proofs.Documents.Runs
import PlanLogic.Proofs.Store.Databases
import PlanLogic.Proofs.Problems.Representation
import PlanLogic.Proofs.Problems.Simulation
import PlanLogic.Proofs.Store.Patterns
import PlanLogic.Proofs.Problems.Clearing
import PlanLogic.Proofs.Effects.Accounts
import PlanLogic.Proofs.Compilation.Binding
import PlanLogic.Proofs.Printing.OneLine
import PlanLogic.Proofs.Evaluation.Accesses
import PlanLogic.Proofs.Evaluation.Closed
import PlanLogic.Proofs.Trees.Mirrors
import PlanLogic.Proofs.Trees.Reachability
import PlanLogic.Proofs.Evaluation.Locality
import PlanLogic.Proofs.Evaluation.Checking
import PlanLogic.Proofs.Evaluation.Unguarded
import PlanLogic.Proofs.Evaluation.Safety
import PlanLogic.Proofs.Problems.ReadingBack
import PlanLogic.Proofs.Trees.Heights
import PlanLogic.Proofs.Compilation.Witnesses
import PlanLogic.Proofs.Problems.Acts
import PlanLogic.Proofs.Problems.Separation
import PlanLogic.Proofs.Problems.Declarations
import PlanLogic.Proofs.Store.Laws
import PlanLogic.Proofs.Problems.Sessions
import PlanLogic.Proofs.Commands.Printing
import PlanLogic.Proofs.Commands.Steps
import PlanLogic.Proofs.Commands.Files
import PlanLogic.Proofs.Decimal.Sizes
import PlanLogic.Proofs.Effects.Updates
import PlanLogic.Proofs.Trees.Arenas
import PlanLogic.Proofs.Trees.Forests
import PlanLogic.Proofs.Effects.Literals
import PlanLogic.Proofs.Effects.Removals
import PlanLogic.Proofs.Trees.Renaming
import PlanLogic.Proofs.Evaluation.Footprint
import PlanLogic.Proofs.Evaluation.Frames
import PlanLogic.Proofs.Documents.Statements
import PlanLogic.Proofs.Evaluation.Diagnostics
import PlanLogic.Proofs.Documents.LineNumbers
import PlanLogic.Proofs.Documents.SingleLines
import PlanLogic.Proofs.Problems.Loading
import PlanLogic.Proofs.Decimal.Literals
import PlanLogic.Proofs.Decimal.Range
import PlanLogic.Proofs.Printing.Numbers
import PlanLogic.Proofs.Reading.Tiling
import PlanLogic.Proofs.Text.Lowercase
import PlanLogic.Proofs.Reading.Places
import PlanLogic.Proofs.Facts.Agreement
import PlanLogic.Proofs.Decimal.Wholes
import PlanLogic.Proofs.PlanLines.NormalForm
import PlanLogic.Proofs.Facts.Shapes
