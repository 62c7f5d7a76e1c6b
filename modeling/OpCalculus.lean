import OpCalculus.Distinct
import OpCalculus.TypeVar
import OpCalculus.Text.Listing
import OpCalculus.Text.Ranges
import OpCalculus.Text.Alphabetic
import OpCalculus.Text.Numeric
import OpCalculus.Text.GraphemeExtend
import OpCalculus.Text.Ignorable
import OpCalculus.Text.Unprintable
import OpCalculus.Text.Quoted
import OpCalculus.Decimal.Shortest
import OpCalculus.Decimal.Number
import OpCalculus.Ty.Basic
import OpCalculus.Ty.Text
import OpCalculus.Ty.WellFormed
import OpCalculus.Ty.Canonical
import OpCalculus.Ty.Flow
import OpCalculus.Scheme
import OpCalculus.Lookup
import OpCalculus.VarMap
import OpCalculus.Substitution.Basic
import OpCalculus.Diagnostic
import OpCalculus.Unification.Basic
import OpCalculus.Unification.Trace
import OpCalculus.Unification.Unifier
import OpCalculus.TypeEnv
import OpCalculus.FreshSupply
import OpCalculus.Expr
import OpCalculus.Inference.Basic
import OpCalculus.Complexity
import OpCalculus.Value.Basic
import OpCalculus.Value.Conformance
import OpCalculus.Executable
import OpCalculus.Behaviour
import OpCalculus.Roster
import OpCalculus.Symbol.Definition
import OpCalculus.Symbol.Table
import OpCalculus.Symbol.Dependencies
import OpCalculus.Symbol.Schedule
import OpCalculus.Symbol.Log
import OpCalculus.Symbol.Workspace
import OpCalculus.Operation.Basic
import OpCalculus.Operation.Pipeline
import OpCalculus.Workload
import OpCalculus.Proofs.Unification
import OpCalculus.Proofs.Instances
import OpCalculus.Proofs.Typing
import OpCalculus.Proofs.Solving
import OpCalculus.Proofs.Inference.Run
import OpCalculus.Proofs.Inference.Freshness
import OpCalculus.Proofs.Inference.Hygiene
import OpCalculus.Proofs.Inference.Journal
import OpCalculus.Proofs.Inference.Soundness
import OpCalculus.Proofs.Inference.Principality
import OpCalculus.Proofs.Inference.Completeness
import OpCalculus.Proofs.Conformance
import OpCalculus.Proofs.Symbol.Closure
import OpCalculus.Proofs.Symbol.ExecutionOrder
import OpCalculus.Proofs.Symbol.PendingCounts
import OpCalculus.Proofs.Flow
import OpCalculus.Proofs.Pipeline
import OpCalculus.Proofs.UnifierRuns
import OpCalculus.Proofs.FirstConflict
import OpCalculus.Proofs.Inference.Locality
import OpCalculus.Proofs.Symbol.Registration
import OpCalculus.Proofs.Symbol.RegistrationOrder
import OpCalculus.Proofs.Capture
import OpCalculus.Proofs.Operation.Execution
import OpCalculus.Proofs.Operation.Bracketing
import OpCalculus.Proofs.Operation.SymbolSequence
import OpCalculus.Proofs.Symbol.Replay
import OpCalculus.Proofs.Symbol.Stages
import OpCalculus.Proofs.Symbol.Traversal
import OpCalculus.Proofs.Inference.Budget
import OpCalculus.Proofs.Variants
import OpCalculus.Proofs.Weakening
import OpCalculus.Proofs.Inference.Rerun
import OpCalculus.Proofs.Inference.Composition
import OpCalculus.Proofs.ConflictPosition
import OpCalculus.Proofs.FlowOrder
import OpCalculus.Proofs.Symmetry
import OpCalculus.Proofs.UnificationLog
import OpCalculus.Proofs.UnificationTermination
import OpCalculus.Proofs.Inference.Tracing
import OpCalculus.Proofs.AlphaEquivalence
import OpCalculus.Proofs.ElementCount
import OpCalculus.Proofs.UniqueReading
import OpCalculus.Proofs.SubstitutionLaws
import OpCalculus.Proofs.Inference.Instantiation
import OpCalculus.Proofs.Operation.Cost
import OpCalculus.Proofs.Operation.Specialization
