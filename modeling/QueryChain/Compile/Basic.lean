import QueryChain.Compile.Clause
import QueryChain.Registry.Standard
import QueryChain.Pass.Pipeline

/-!
# Compilation

A tree is settled by passes and then recognised from the outermost call inwards: each call of the
chain becomes a clause, and what is left at the bottom is the source.

## Main definitions

* `Model.validate`: the order of clauses is right
* `Registry.recognise`: the model of a settled tree
* `Compiler`, `Compiler.build`: a registry and passes
* `Event`: what a compilation reports
* `Compiler.run`, `Compiler.compile`, `Compiler.events`: a compilation, its model and its events

## Main results

* `Registry.models_eq`: the models of arguments are recognised one by one
-/

namespace QueryChain

namespace Model

/-- Fails at the first clause that follows a terminal one, or refines an ordering that does not
directly precede it. -/
def checkClauses : (previous : Option Clause) → List Clause → Except CompileError Unit
  | _, [] => .ok ()
  | previous, c :: rest =>
    match c.terminal?, rest with
    | some _, next :: _ => .error (.misplacedTerminal c.name next.name)
    | _, _ =>
      if c.isRefinement && !previous.any Clause.isOrdering then .error .unorderedThenBy
      else checkClauses (some c) rest

/-- The model, if its clauses are in an admissible order. -/
def validate (m : Model) : Except CompileError Model :=
  (checkClauses none m.clauses).map fun _ => m

/-- The model with a further clause. -/
def append (m : Model) (c : Clause) : Model :=
  { m with clauses := m.clauses ++ [c] }

end Model

namespace Registry

/-- The model of the argument at a position among the models of all arguments. -/
def argumentModel (c : Call) (models : List (Except CompileError Model)) (index : Nat) :
    Except CompileError Model :=
  models[index]?.getD (c.invalid (.operand index))

mutual

/-- The source and the clauses of a chain of calls, before the order of clauses is checked. The
fault of an outer call comes before those of the calls that it is applied to. -/
def chain (r : Registry) : Expr → Except CompileError Model
  | .call o m receiver args =>
    let c : Call := ⟨o, m, receiver, args⟩
    match r.lookup c with
    | none => .error (.unsupported (.of c))
    | some op =>
      match op.clause c (argumentModel c (models r args)) with
      | .error e => .error e
      | .ok clause =>
        match chain r receiver with
        | .error e => .error e
        | .ok inner => .ok (inner.append clause)
  | .source n => .ok ⟨.named n, []⟩
  | e => .ok ⟨.inline e, []⟩

/-- The models of the arguments of a call. -/
def models (r : Registry) : List Expr → List (Except CompileError Model)
  | [] => []
  | e :: es => (chain r e).bind Model.validate :: models r es

end

/-- The model of a chain of calls. -/
def recognise (r : Registry) (e : Expr) : Except CompileError Model :=
  (r.chain e).bind Model.validate

theorem models_eq (r : Registry) (es : List Expr) : r.models es = es.map r.recognise := by
  induction es with
  | nil => simp [models]
  | cons e es ih => simp [models, recognise, ih]

end Registry

/-- What a compilation reports to its observer. -/
inductive Event where
  | compileStart
  | compileFinish (clauses : Nat)
  | compileFailed (cls : ErrorClass)
  /-- The passes left the tree alone in this round. -/
  | settled (rounds : Nat)
  | compilerBuilt
deriving DecidableEq, Repr

/-- A registry of operations and the passes that precede recognition. -/
structure Compiler where
  registry : Registry
  passes : List Pass

namespace Compiler

/-- The compiler of the standard operations with extensions. -/
def build (extensions : List OperationSet) (passes : List Pass) : Except CompileError Compiler :=
  match Registry.withExtensions extensions with
  | .ok registry => .ok ⟨registry, passes⟩
  | .error cause => .error (.registry cause)

/-- A compilation: what it reports, and the model or the reason why there is none. -/
def run (c : Compiler) (e : Expr) : List Event × Except Stop Model :=
  match settle c.passes e with
  | .error stop => ([.compileStart, .compileFailed stop.errorClass], .error stop)
  | .ok settled =>
    match c.registry.recognise settled.edit.tree with
    | .ok m =>
      ([.compileStart, .settled settled.rounds, .compileFinish m.clauses.length], .ok m)
    | .error err =>
      ([.compileStart, .settled settled.rounds, .compileFailed err.errorClass],
        .error (.fault err))

/-- The model of a tree. -/
def compile (c : Compiler) (e : Expr) : Except Stop Model :=
  (c.run e).2

/-- What the compilation of a tree reports. -/
def events (c : Compiler) (e : Expr) : List Event :=
  (c.run e).1

end Compiler

end QueryChain
