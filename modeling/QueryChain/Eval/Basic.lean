import QueryChain.Eval.Builtin
import QueryChain.Eval.Convert

/-!
# Evaluation

The value of a closed tree. Operands are evaluated from left to right, and the first error wins.

## Main definitions

* `Expr.evaluate`: the value of a tree
-/

namespace QueryChain

/-- The left operand of a logical operator decides alone if it is false for `&&`, true for `||`. -/
def BinaryOp.decides (op : BinaryOp) (b : Bool) : Bool :=
  match op with
  | .and => !b
  | .or => b
  | _ => false

/-- The result of a logical operator whose left operand did not decide. -/
def BinaryOp.logicalRight (op : BinaryOp) (l r : Value) : Except EvalError Value :=
  match r with
  | .bool b => .ok (.bool b)
  | _ => .error (.mismatch op.symbol [l, r])

/-- A member of a value. -/
def Value.read (v : Value) (name : String) : Except EvalError Value :=
  match v with
  | .null => .error (.nullReference name)
  | _ =>
    match v.field? name with
    | some w => .ok w
    | none => .error (.missingMember name)

namespace Expr

mutual

/-- The value of a tree. The right operand of `&&`, `||` and `??` is evaluated only if the left one
does not decide, and only the chosen branch of a conditional. -/
def evaluate : Expr → Except EvalError Value
  | constant v => .ok v
  | parameter n => .error (.notEvaluable (.parameter n))
  | source n => .error (.notEvaluable (.source n))
  | lambda _ _ => .error (.notEvaluable .lambda)
  | quote _ => .error (.notEvaluable .lambda)
  | invoke _ _ => .error (.notEvaluable .invocation)
  | member t n =>
    match evaluate t with
    | .ok v => v.read n
    | .error e => .error e
  | unary op x =>
    match evaluate x with
    | .ok v => op.apply v
    | .error e => .error e
  | binary op a b =>
    match evaluate a with
    | .error e => .error e
    | .ok l =>
      match op with
      | .and | .or =>
        match l with
        | .bool p =>
          if op.decides p then .ok (.bool p)
          else
            match evaluate b with
            | .ok r => op.logicalRight l r
            | .error e => .error e
        | _ => .error (.mismatch op.symbol [l])
      | .coalesce => if l.isNull then evaluate b else .ok l
      | _ =>
        match evaluate b with
        | .ok r => op.apply l r
        | .error e => .error e
  | conditional t a b =>
    match evaluate t with
    | .ok (.bool true) => evaluate a
    | .ok (.bool false) => evaluate b
    | .ok v => .error (.mismatch "?:" [v])
    | .error e => .error e
  | convert x k =>
    match evaluate x with
    | .ok v => v.convert k
    | .error e => .error e
  | record fs =>
    match evaluateFields [] fs with
    | .ok vs => .ok (.record vs)
    | .error e => .error e
  | list xs =>
    match evaluateItems xs with
    | .ok vs => .ok (.list vs)
    | .error e => .error e
  | call o m r as =>
    if o = .builtin then
      match evaluate r with
      | .error e => .error e
      | .ok v =>
        match evaluateItems as with
        | .ok vs => callBuiltin m v vs
        | .error e => .error e
    else
      .error (.notEvaluable (.call o m))

/-- The values of a list of trees. -/
def evaluateItems : List Expr → Except EvalError (List Value)
  | [] => .ok []
  | x :: xs =>
    match evaluate x with
    | .error e => .error e
    | .ok v =>
      match evaluateItems xs with
      | .ok vs => .ok (v :: vs)
      | .error e => .error e

/-- The values of named trees. A name that was seen before is refused before its tree is looked
at. -/
def evaluateFields (seen : List String) :
    List (String × Expr) → Except EvalError (List (String × Value))
  | [] => .ok []
  | (n, x) :: fs =>
    if n ∈ seen then .error (.duplicateMember n)
    else
      match evaluate x with
      | .error e => .error e
      | .ok v =>
        match evaluateFields (n :: seen) fs with
        | .ok vs => .ok ((n, v) :: vs)
        | .error e => .error e

end

end Expr

end QueryChain
