import QueryChain.Compile.Error

/-!
# Clauses of recognised calls

Each operation takes its arguments apart into a clause, or says which argument is at fault. Faults
are reported against the name under which the operation was called.

## Main definitions

* `Call.lambdaArg`, `Call.operandArg`, `Call.rowCountArg`, `Call.sequenceArg`: arguments of a call
* `Lambda.memberPath?`: the path of a selector such as `p => p.a.b`
* `Call.assignment`: the assignment of one setter
* `Lambda.assignments`: the assignments of a chain of setters
* `Operation.clause`: the clause of a call
-/

namespace QueryChain

namespace Call

/-- A fault of the call's arguments. -/
def invalid {α : Type} (c : Call) (fault : ArgumentFault) : Except CompileError α :=
  .error (.invalidArguments c.method fault)

/-- Fails unless the call has the given number of arguments. -/
def expectCount (c : Call) (expected : Nat) : Except CompileError Unit :=
  if c.args.length = expected then .ok () else c.invalid (.count expected c.args.length)

/-- The argument at a position, which is a lambda of the given arity under at most one quote. -/
def lambdaArg (c : Call) (index arity : Nat) : Except CompileError Lambda :=
  match c.args[index]?.bind Expr.asLambda? with
  | some l => if l.arity = arity then .ok l else c.invalid (.lambda index arity)
  | none => c.invalid (.lambda index arity)

/-- The argument at a position, which is no lambda. -/
def operandArg (c : Call) (index : Nat) : Except CompileError Expr :=
  match c.args[index]? with
  | some e => if e.asLambda?.isNone then .ok e else c.invalid (.operand index)
  | none => c.invalid (.operand index)

/-- The argument at a position as a number of rows. A constant is an integer that is not negative;
anything else is left for later. -/
def rowCountArg (c : Call) (index : Nat) : Except CompileError Expr := do
  let e ← c.operandArg index
  match e.asConstant? with
  | none => return e
  | some (.int n) => if 0 ≤ n.toInt then return e else c.invalid (.rowCount (.int n))
  | some v => c.invalid (.rowCount v)

/-- The model of the argument at a position, which is no lambda and yields rows. The models of the
arguments are given by position. -/
def sequenceArg (c : Call) (models : Nat → Except CompileError Model) (index : Nat) :
    Except CompileError Model := do
  let _ ← c.operandArg index
  let m ← models index
  if m.kind = .select then return m else c.invalid (.sequence index m.kind)

/-- The lambda of an operation that takes one lambda of one parameter. -/
def onlyLambda (c : Call) : Except CompileError Lambda := do
  c.expectCount 1
  c.lambdaArg 0 1

/-- The lambda of an operation that takes one lambda of one parameter or nothing. -/
def optionalLambda (c : Call) : Except CompileError (Option Lambda) :=
  if c.args.isEmpty then .ok none else c.onlyLambda.map some

end Call

/-- The members read from the named parameter, outermost last: `p.a.b` gives `b, a`. -/
def Expr.membersFrom? (row : String) : Expr → Option (List String)
  | parameter n => if n = row then some [] else none
  | member t m => (membersFrom? row t).map (m :: ·)
  | _ => none

/-- The path of a selector: `p => p.a.b` gives `a, b`. The parameter alone is no path. -/
def Lambda.memberPath? (l : Lambda) : Option (List String) := do
  let path ← l.body.membersFrom? (← l.params.head?)
  guard !path.isEmpty
  return path.reverse

/-- The selector of a setter, which is a lambda of one parameter. -/
def Call.setterSelector (c : Call) (selector : Expr) : Except CompileError Lambda :=
  match selector.asLambda? with
  | some l => if l.arity = 1 then .ok l else c.invalid .setterSelector
  | none => c.invalid .setterSelector

/-- The value of a setter. A lambda takes the row. -/
def Call.setterValue (c : Call) (value : Expr) : Except CompileError AssignedValue :=
  match value.asLambda? with
  | some row => if row.arity = 1 then .ok (.row row) else c.invalid .setterValue
  | none => .ok (.operand value)

/-- The assignment of a setter with a selector and a value. -/
def Call.assignment (c : Call) (selector value : Expr) : Except CompileError Assignment := do
  let l ← c.setterSelector selector
  let assigned ← c.setterValue value
  match l.memberPath? with
  | some path => return ⟨path, assigned⟩
  | none => c.invalid .setterPath

/-- The assignments of a chain of setters on the named parameter, last first. -/
def Call.assignmentsFrom (c : Call) (parameter : Option String) :
    Expr → Except CompileError (List Assignment)
  | .call .update "set" receiver [selector, value] => do
    let a ← c.assignment selector value
    let earlier ← c.assignmentsFrom parameter receiver
    return a :: earlier
  | .parameter n =>
    if some n = parameter then .ok [] else c.invalid (.setterExpression (.parameter n))
  | e => c.invalid (.setterExpression e)

/-- The assignments of an update in the order of its setters, of which there is at least one. -/
def Call.assignments (c : Call) (setters : Lambda) : Except CompileError (List Assignment) := do
  let found ← c.assignmentsFrom setters.params.head? setters.body
  if found.isEmpty then c.invalid .noAssignment else return found.reverse

/-- The reduction of a terminal call. -/
def ResultKind.resultOp (kind : ResultKind) (c : Call) : Except CompileError ResultOp :=
  match kind with
  | reduce r => do
    c.expectCount 0
    return .reduce r
  | all => return .all (← c.onlyLambda)
  | aggregate f => return .aggregate f (← c.optionalLambda)
  | contains => do
    c.expectCount 1
    return .contains (← c.operandArg 0)

/-- The clause of a call that is recognised as the operation. `models` gives the models of the
arguments by position; only arguments that are sequences are asked for. -/
def Operation.clause (op : Operation) (c : Call) (models : Nat → Except CompileError Model) :
    Except CompileError Clause :=
  match op with
  | filter => return .filter (← c.onlyLambda)
  | select => return .select (← c.onlyLambda)
  | orderBy d => return .orderBy (← c.onlyLambda) d true
  | thenBy d => return .orderBy (← c.onlyLambda) d false
  | skip => do
    c.expectCount 1
    return .skip (← c.rowCountArg 0)
  | take => do
    c.expectCount 1
    return .take (← c.rowCountArg 0)
  | distinct => do
    c.expectCount 0
    return .distinct
  | join => do
    c.expectCount 4
    let inner ← c.sequenceArg models 0
    let outerKey ← c.lambdaArg 1 1
    let innerKey ← c.lambdaArg 2 1
    let pair ← c.lambdaArg 3 2
    return .join inner outerKey innerKey pair
  | groupBy => return .groupBy (← c.onlyLambda)
  | setOp o => do
    c.expectCount 1
    return .setOp o (← c.sequenceArg models 0)
  | result kind => return .result (← kind.resultOp c)
  | delete => return .delete (← c.optionalLambda)
  | update => do
    let setters ← c.onlyLambda
    return .update (← c.assignments setters)

end QueryChain
