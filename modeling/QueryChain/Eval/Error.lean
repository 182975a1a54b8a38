import QueryChain.Expr.Render

/-!
# Evaluation errors

## Main definitions

* `Deferred`: the parts of a query that no eager evaluation can reach
* `EvalError`: why a closed tree has no value
* `EvalError.message`: the wording
-/

namespace QueryChain

/-- A node that has no value before the query runs. -/
inductive Deferred where
  | parameter (name : String)
  | source (name : String)
  | lambda
  | invocation
  | call (owner : Owner) (method : String)
  | unknownBuiltin (name : String)
deriving DecidableEq, Repr

/-- What cannot be evaluated, in words. -/
def Deferred.describe : Deferred → String
  | parameter name => "parameter '" ++ name ++ "'"
  | source name => "data source '" ++ name ++ "'"
  | lambda => "lambda"
  | invocation => "lambda invocation"
  | call owner method => owner.label ++ " call '" ++ method ++ "'"
  | unknownBuiltin name => "unknown builtin '" ++ name ++ "'"

/-- Why the evaluation of a tree fails. -/
inductive EvalError where
  /-- The exact result of the operation is no word, or no finite number. -/
  | overflow (operation : String)
  | divisionByZero
  /-- A member of null was read. -/
  | nullReference (member : String)
  | missingMember (member : String)
  /-- A record declares the member twice. -/
  | duplicateMember (member : String)
  /-- The operation has no meaning on operands of these kinds. -/
  | typeMismatch (operation : String) (found : List Kind)
  | invalidConversion (value : Value) (target : Kind)
  /-- A builtin function was given a wrong number of arguments. -/
  | arity (builtin : String) (expected found : Nat)
  | notEvaluable (what : Deferred)

namespace EvalError

/-- The mismatch of an operation with the values that it was given. -/
def mismatch (operation : String) (values : List Value) : EvalError :=
  typeMismatch operation (values.map Value.kind)

/-- The wording of an error. -/
def message : EvalError → String
  | overflow op => "integer overflow in '" ++ op ++ "'"
  | divisionByZero => "division by zero"
  | nullReference m => "null reference reading '" ++ m ++ "'"
  | missingMember m => "value has no member '" ++ m ++ "'"
  | duplicateMember m => "record declares member '" ++ m ++ "' more than once"
  | typeMismatch op found =>
    "operator '" ++ op ++ "' is not defined for " ++ " and ".intercalate (found.map Kind.label)
  | invalidConversion v k => "cannot convert " ++ v.render ++ " to " ++ k.label
  | arity name expected found =>
    "builtin '" ++ name ++ "' expects " ++ toString expected ++ " argument(s), found "
      ++ toString found
  | notEvaluable what => what.describe ++ " cannot be evaluated eagerly"

end EvalError

end QueryChain
