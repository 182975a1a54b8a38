import QueryChain.Eval.Error
import QueryChain.Registry.Basic

/-!
# Compilation errors

## Main definitions

* `CompileError`, `CompileError.message`: why a compilation fails, and the wording
* `ErrorClass`, `CompileError.errorClass`: what kind of mistake it is
* `Stage`, `CompileError.stage`: where it arises
* `CompileError.classified`: stage, class and wording in one line
-/

namespace QueryChain

/-- What is wrong with the arguments of a recognised call. -/
inductive ArgumentFault where
  | count (expected found : Nat)
  | lambda (index arity : Nat)
  | operand (index : Nat)
  | rowCount (found : Value)
  | sequence (index : Nat) (found : QueryKind)
  | setterSelector
  | setterValue
  | setterPath
  | setterExpression (e : Expr)
  | noAssignment

/-- The name that the fluent interface gives to the parameter that collects assignments. -/
def settersParameter : String :=
  "__setters"

/-- The wording of a fault. -/
def ArgumentFault.message : ArgumentFault → String
  | count expected found =>
    "expected " ++ toString expected ++ " argument(s), found " ++ toString found
  | lambda index arity =>
    "argument " ++ toString index ++ " must be a lambda taking " ++ toString arity
      ++ " parameter(s)"
  | operand index => "argument " ++ toString index ++ " must not be a lambda"
  | rowCount found => "row count must be a non-negative integer, found " ++ found.render
  | sequence index found =>
    "argument " ++ toString index ++ " must be a row sequence, found a " ++ found.label
      ++ " query"
  | setterSelector => "setter selector must be a one-parameter lambda"
  | setterValue => "setter value lambda must take the row"
  | setterPath => "setter selector must be a member path"
  | setterExpression e => "unexpected setter expression " ++ e.render
  | noAssignment => "update requires at least one " ++ settersParameter ++ ".set(..) assignment"

/-- Why a compilation fails. -/
inductive CompileError where
  /-- No operation is registered for the call. -/
  | unsupported (shape : CallShape)
  | invalidArguments (operation : String) (fault : ArgumentFault)
  /-- A clause follows a terminal clause. -/
  | misplacedTerminal (terminal next : String)
  /-- An ordering is refined that is not there. -/
  | unorderedThenBy
  /-- A closed tree has no value. -/
  | evaluation (e : Expr) (cause : EvalError)
  /-- The passes still change the tree after the last round. -/
  | noFixedPoint (pass : String) (rounds : Nat)
  | registry (cause : RegistryError)
  /-- The list of extensions is closed. -/
  | registryClosed

/-- What kind of mistake an error is. -/
inductive ErrorClass where
  | unsupported
  | invalid
  | evaluation
  | conflict
  /-- A defect of the compiler itself. -/
  | invariantViolation
deriving DecidableEq, Repr

/-- The name of a class. -/
def ErrorClass.label : ErrorClass → String
  | unsupported => "unsupported"
  | invalid => "invalid"
  | evaluation => "evaluation"
  | conflict => "conflict"
  | invariantViolation => "invariant_violation"

/-- The stage of a compilation at which an error arises. -/
inductive Stage where
  | registry
  | passes
  | evaluate
  | compile
  | cache
deriving DecidableEq, Repr

/-- The name of a stage. -/
def Stage.label : Stage → String
  | registry => "registry"
  | passes => "rewrite"
  | evaluate => "evaluate"
  | compile => "compile"
  | cache => "cache"

namespace CompileError

/-- The wording of an error. -/
def message : CompileError → String
  | unsupported shape => "unsupported operation: no recognizer for " ++ shape.render
  | invalidArguments operation fault =>
    "invalid arguments to '" ++ operation ++ "': " ++ fault.message
  | misplacedTerminal terminal next =>
    "'" ++ next ++ "' cannot follow terminal operation '" ++ terminal ++ "'"
  | unorderedThenBy => "then_by must directly follow order_by or then_by"
  | evaluation e _ => "evaluating " ++ e.render ++ " failed"
  | noFixedPoint pass rounds =>
    "rewrite pass '" ++ pass ++ "' did not reach a fixed point within " ++ toString rounds
      ++ " rounds"
  | registry cause => "registry construction failed: " ++ cause.message
  | registryClosed =>
    "extensions can no longer be installed: a compiler has already been built"

/-- The class of an error. -/
def errorClass : CompileError → ErrorClass
  | unsupported _ => .unsupported
  | invalidArguments _ _ => .invalid
  | misplacedTerminal _ _ => .invalid
  | unorderedThenBy => .invalid
  | evaluation _ _ => .evaluation
  | noFixedPoint _ _ => .invariantViolation
  | registry _ => .conflict
  | registryClosed => .conflict

/-- The stage of an error. -/
def stage : CompileError → Stage
  | unsupported _ => .compile
  | invalidArguments _ _ => .compile
  | misplacedTerminal _ _ => .compile
  | unorderedThenBy => .compile
  | evaluation _ _ => .evaluate
  | noFixedPoint _ _ => .passes
  | registry _ => .registry
  | registryClosed => .cache

/-- Stage, class and wording. -/
def classified (e : CompileError) : String :=
  e.stage.label ++ ":" ++ e.errorClass.label ++ ": " ++ e.message

/-- Whether the error shows a defect of the compiler itself. -/
def isInvariantViolation (e : CompileError) : Bool :=
  e.errorClass == .invariantViolation

end CompileError

end QueryChain
