import QueryChain.Codec.Data
import QueryChain.Codec.Expr
import QueryChain.Codec.Model
import QueryChain.Codec.Value
import QueryChain.Compile.Basic
import QueryChain.Compile.Clause
import QueryChain.Compile.Error
import QueryChain.Eval.Basic
import QueryChain.Eval.Builtin
import QueryChain.Eval.Convert
import QueryChain.Eval.Error
import QueryChain.Eval.Evaluable
import QueryChain.Eval.Operators
import QueryChain.Expr.Basic
import QueryChain.Expr.Render
import QueryChain.Expr.Scope
import QueryChain.Expr.Traversal
import QueryChain.Fault.Basic
import QueryChain.Fault.Code
import QueryChain.Fluent.Query
import QueryChain.Fluent.Setters
import QueryChain.Model.Basic
import QueryChain.Model.Explain
import QueryChain.Number.Binary
import QueryChain.Number.Layout
import QueryChain.Number.Reading
import QueryChain.Number.Shortest
import QueryChain.Number.Word
import QueryChain.Pass.Basic
import QueryChain.Pass.Fold
import QueryChain.Pass.Normalize
import QueryChain.Pass.Pipeline
import QueryChain.Pass.Rule
import QueryChain.Registry.Basic
import QueryChain.Registry.Operation
import QueryChain.Registry.Standard
import QueryChain.Shape
import QueryChain.Text.Blank
import QueryChain.Text.CaseTable
import QueryChain.Text.Casing
import QueryChain.Text.CodeSet
import QueryChain.Text.HiddenTable
import QueryChain.Text.Quoted
import QueryChain.Text.Search
import QueryChain.Value.Basic
import QueryChain.Value.Render
import QueryChain.Worker.Cache
import QueryChain.Worker.Counters
import QueryChain.Worker.Crew
import QueryChain.Worker.Meter
import QueryChain.Worker.Session
import QueryChain.Proofs.Expr.Nodes
import QueryChain.Proofs.Pass.Settling
import QueryChain.Proofs.Eval.Refinement
import QueryChain.Proofs.Value.Comparison
import QueryChain.Proofs.Pass.Contraction
import QueryChain.Proofs.Pass.Meaning
import QueryChain.Proofs.Pass.NormalForm
import QueryChain.Proofs.Pass.Independence
import QueryChain.Proofs.Pass.Sweep
import QueryChain.Proofs.Compile.Clauses
import QueryChain.Proofs.Compile.Composition
import QueryChain.Proofs.Compile.WellFormed
import QueryChain.Proofs.Compile.Surface
import QueryChain.Proofs.Registry.Entries
import QueryChain.Proofs.Registry.History
import QueryChain.Proofs.Compile.Extension
import QueryChain.Proofs.Worker.Crew
import QueryChain.Proofs.Expr.Names
import QueryChain.Proofs.Pass.Hygiene
import QueryChain.Proofs.Pass.Bound
import QueryChain.Proofs.Compile.Closed
import QueryChain.Proofs.Compile.Support
import QueryChain.Proofs.Fluent.Chains
import QueryChain.Proofs.Pass.Tower
import QueryChain.Proofs.Compile.Reachability
import QueryChain.Proofs.Worker.Runs
import QueryChain.Proofs.Worker.Routing
import QueryChain.Proofs.Worker.Balance
import QueryChain.Proofs.Pass.Canonical
import QueryChain.Proofs.Pass.Unapplied
import QueryChain.Proofs.Expr.Substitution
import QueryChain.Proofs.Pass.Inlining
import QueryChain.Proofs.Codec.RoundTrip
import QueryChain.Proofs.Compile.Sources
import QueryChain.Proofs.Eval.Evaluable
import QueryChain.Proofs.Eval.Invariant
import QueryChain.Proofs.Eval.Agreement
import QueryChain.Proofs.Compile.Faults
import QueryChain.Proofs.Eval.Integers
import QueryChain.Proofs.Number.Finite
import QueryChain.Proofs.Pass.Rounds
import QueryChain.Proofs.Eval.Finite
import QueryChain.Proofs.Pass.Finite
import QueryChain.Proofs.Eval.Lossless
import QueryChain.Proofs.Expr.Scoping
import QueryChain.Proofs.Expr.Visits
import QueryChain.Proofs.Eval.Records
import QueryChain.Proofs.Model.Explanation
