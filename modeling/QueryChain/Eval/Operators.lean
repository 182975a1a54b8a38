import QueryChain.Eval.Error

/-!
# Operators on values

Arithmetic and comparison of evaluated operands. Null propagates through arithmetic and makes an
order comparison false; integers stay exact and numbers stay finite, or the operation fails.

## Main definitions

* `UnaryOp.apply`: negation of a truth value or a number
* `BinaryOp.apply`: comparison and arithmetic; the operators that may skip their right operand
  are not among them
-/

namespace QueryChain

/-- An exact result, or the overflow of the operation. -/
def orOverflow (operation : String) : Option Int64 → Except EvalError Value
  | some n => .ok (.int n)
  | none => .error (.overflow operation)

/-- The operator on an evaluated operand. -/
def UnaryOp.apply (op : UnaryOp) (v : Value) : Except EvalError Value :=
  match op, v with
  | _, .null => .ok .null
  | .not, .bool b => .ok (.bool !b)
  | .negate, .int n => orOverflow op.symbol (Word.neg? n)
  | .negate, .float x => .ok (.float (-x))
  | _, _ => .error (.mismatch op.symbol [v])

namespace BinaryOp

/-- Whether an order comparison holds between operands in the given order. -/
def holdsFor (op : BinaryOp) (o : Ordering) : Bool :=
  match op with
  | lt => o.isLT
  | le => o.isLE
  | gt => o.isGT
  | _ => o.isGE

/-- An order comparison. It is false if an operand is null. -/
def compareValues (op : BinaryOp) (l r : Value) : Except EvalError Value :=
  if l.isNull || r.isNull then .ok (.bool false)
  else
    match l.compare r with
    | some o => .ok (.bool (op.holdsFor o))
    | none => .error (.mismatch op.symbol [l, r])

/-- Arithmetic on integers: exact, or an error. -/
def onWords (op : BinaryOp) (a b : Int64) : Except EvalError Value :=
  match op with
  | add => orOverflow op.symbol (Word.add? a b)
  | sub => orOverflow op.symbol (Word.sub? a b)
  | mul => orOverflow op.symbol (Word.mul? a b)
  | div => if b = 0 then .error .divisionByZero else orOverflow op.symbol (Word.div? a b)
  | rem => if b = 0 then .error .divisionByZero else orOverflow op.symbol (Word.rem? a b)
  | _ => .error (.mismatch op.symbol [.int a, .int b])

/-- A finite result, or the overflow of the operation. -/
def finiteOr (op : BinaryOp) (x : Float) : Except EvalError Value :=
  if x.isFinite then .ok (.float x) else .error (.overflow op.symbol)

/-- Whether the number is one of the two zeros. -/
def isZero (x : Float) : Bool :=
  Binary.order x 0 == some .eq

/-- Arithmetic on numbers: rounded and finite, or an error. -/
def onNumbers (op : BinaryOp) (a b : Float) : Except EvalError Value :=
  match op with
  | add => op.finiteOr (a + b)
  | sub => op.finiteOr (a - b)
  | mul => op.finiteOr (a * b)
  | div => if isZero b then .error .divisionByZero else op.finiteOr (a / b)
  | rem => if isZero b then .error .divisionByZero else op.finiteOr (Binary.remainder a b)
  | _ => .error (.mismatch op.symbol [.float a, .float b])

/-- Arithmetic: null propagates, two integers stay integers, texts can be added, and other numbers
are widened. -/
def arithmetic (op : BinaryOp) (l r : Value) : Except EvalError Value :=
  match l, r with
  | .null, _ => .ok .null
  | _, .null => .ok .null
  | .int a, .int b => op.onWords a b
  | .text s, .text t =>
    if op = add then .ok (.text (s ++ t)) else .error (.mismatch op.symbol [l, r])
  | _, _ =>
    match l.widen?, r.widen? with
    | some a, some b => op.onNumbers a b
    | _, _ => .error (.mismatch op.symbol [l, r])

/-- The operator on two evaluated operands. -/
def apply (op : BinaryOp) (l r : Value) : Except EvalError Value :=
  match op with
  | eq => .ok (.bool (l.looseEq r))
  | ne => .ok (.bool !(l.looseEq r))
  | lt | le | gt | ge => op.compareValues l r
  | _ => op.arithmetic l r

end BinaryOp

end QueryChain
