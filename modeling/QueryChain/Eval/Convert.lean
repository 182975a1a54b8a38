import QueryChain.Eval.Error
import QueryChain.Number.Reading
import QueryChain.Text.Blank

/-!
# Conversions

A conversion changes the kind of a value and fails where no value of the kind stands for it.

## Main definitions

* `Value.convert`: the value as a value of a kind
-/

namespace QueryChain.Value

/-- The truth value that is spelled out. -/
def readBool? (s : String) : Option Bool :=
  if s = "true" then some true else if s = "false" then some false else none

/-- The value of the kind that stands for a value of another kind. Numbers are read from text with
blanks around them, truth values are not. -/
def convert? (v : Value) (k : Kind) : Option Value :=
  match v, k with
  | float x, .int => (Binary.toWord? x).map int
  | text s, .int => (readInteger? (Text.trim s)).map int
  | int n, .float => some (float (Binary.ofInt n.toInt))
  | text s, .float => (readNumber? (Text.trim s)).map float
  | text s, .bool => (readBool? s).map bool
  | bool b, .text => some (text (if b then "true" else "false"))
  | int n, .text => some (text (toString n.toInt))
  | float x, .text => some (text (NumberFormat.plain.render x))
  | _, _ => none

/-- The value as a value of the kind. Null and a value that already has the kind stay the same. -/
def convert (v : Value) (k : Kind) : Except EvalError Value :=
  if k = .any || v.isNull || v.kind = k then .ok v
  else
    match v.convert? k with
    | some w => .ok w
    | none => .error (.invalidConversion v k)

end QueryChain.Value
