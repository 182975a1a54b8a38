import QueryChain.Eval.Operators
import QueryChain.Text.Blank
import QueryChain.Text.Casing
import QueryChain.Text.Search

/-!
# Builtin functions

Pure functions of a receiver and at most one argument.

## Main definitions

* `Builtin`: the functions, with their names and argument counts
* `Builtin.known`: the names that may be called ahead of the query
* `callBuiltin`: the call of a function by its name

## Main results

* `Builtin.mem_known_iff`: the known names are those of functions
-/

namespace QueryChain

/-- A pure function of scalars. -/
inductive Builtin where
  | abs
  | concat
  | contains
  | endsWith
  | len
  | lower
  | startsWith
  | trim
  | upper
deriving DecidableEq, Repr

namespace Builtin

/-- The functions. -/
def all : List Builtin :=
  [abs, concat, contains, endsWith, len, lower, startsWith, trim, upper]

/-- The name under which a function is called. -/
def name : Builtin → String
  | abs => "abs"
  | concat => "concat"
  | contains => "contains"
  | endsWith => "ends_with"
  | len => "len"
  | lower => "lower"
  | startsWith => "starts_with"
  | trim => "trim"
  | upper => "upper"

/-- The function of a name. -/
def named? (n : String) : Option Builtin :=
  all.find? (·.name == n)

/-- The names of functions that may be called ahead of the query. -/
def known : List String :=
  ["abs", "concat", "contains", "ends_with", "len", "lower", "starts_with", "trim", "upper"]

/-- The known names are those of functions. -/
theorem mem_known_iff {n : String} : n ∈ known ↔ (named? n).isSome := by
  have hnames : known = all.map name := rfl
  rw [hnames, named?, List.find?_isSome, List.mem_map]
  simp only [beq_iff_eq]

/-- The number of arguments besides the receiver. -/
def arity : Builtin → Nat
  | abs | len | lower | trim | upper => 0
  | concat | contains | endsWith | startsWith => 1

/-- A function of the receiver alone. -/
def onReceiver (f : Builtin) (v : Value) : Except EvalError Value :=
  match f, v with
  | len, .text s => orOverflow f.name (fit? s.length)
  | len, .list items => orOverflow f.name (fit? items.length)
  | lower, .text s => .ok (.text (Text.lower s))
  | upper, .text s => .ok (.text (Text.upper s))
  | trim, .text s => .ok (.text (Text.trim s))
  | abs, .int n => orOverflow f.name (Word.abs? n)
  | abs, .float x => .ok (.float x.abs)
  | _, _ => .error (.mismatch f.name [v])

/-- A function of the receiver and an argument. -/
def onArgument (f : Builtin) (v arg : Value) : Except EvalError Value :=
  match f, v, arg with
  | contains, .text s, .text t => .ok (.bool (Text.contains s t))
  | contains, .list items, _ => .ok (.bool (items.any (·.looseEq arg)))
  | startsWith, .text s, .text t => .ok (.bool (Text.startsWith s t))
  | endsWith, .text s, .text t => .ok (.bool (Text.endsWith s t))
  | concat, .text s, .text t => .ok (.text (s ++ t))
  | _, _, _ => .error (.mismatch f.name [v, arg])

/-- The function on a receiver that is not null. -/
def apply (f : Builtin) (v : Value) (args : List Value) : Except EvalError Value :=
  match f.arity, args with
  | 0, [] => f.onReceiver v
  | 1, [arg] => f.onArgument v arg
  | expected, _ => .error (.arity f.name expected args.length)

end Builtin

/-- Calls the function of a name. A null receiver is refused before the name is looked at. -/
def callBuiltin (name : String) (receiver : Value) (args : List Value) : Except EvalError Value :=
  if receiver.isNull then .error (.nullReference name)
  else
    match Builtin.named? name with
    | some f => f.apply receiver args
    | none => .error (.notEvaluable (.unknownBuiltin name))

end QueryChain
