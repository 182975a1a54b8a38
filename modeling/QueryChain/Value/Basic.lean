import QueryChain.Number.Binary

/-!
# Values

The dynamic values that constants of a query hold: null, truth values, 64-bit integers, floating
point numbers, text, lists and records. A record keeps its fields in the order of declaration.

## Main definitions

* `Kind`: the kind of a value, and the target of a conversion
* `Value`: the values
* `Value.field?`: the first field of a name
* `Value.compare`: the order of two scalars
* `Value.eq`: structural equality, with floating point numbers compared as numbers
* `Value.looseEq`: equality up to the widening of integers
-/

namespace QueryChain

/-- The kind of a value. `any` is the erased kind: a conversion to it does nothing. -/
inductive Kind where
  | any
  | null
  | bool
  | int
  | float
  | text
  | list
  | record
deriving DecidableEq, Repr

namespace Kind

/-- The name of the kind. -/
def label : Kind → String
  | any => "any"
  | null => "null"
  | bool => "bool"
  | int => "int"
  | float => "float"
  | text => "text"
  | list => "list"
  | record => "record"

/-- Whether values of the kind take part in widening. -/
def isNumeric : Kind → Bool
  | int | float => true
  | _ => false

end Kind

/-- A constant of a query. -/
inductive Value where
  | null
  | bool (b : Bool)
  | int (n : Int64)
  | float (x : Float)
  | text (s : String)
  | list (items : List Value)
  | record (fields : List (String × Value))
deriving Inhabited

namespace Value

/-- The kind of a value. -/
def kind : Value → Kind
  | null => .null
  | bool _ => .bool
  | int _ => .int
  | float _ => .float
  | text _ => .text
  | list _ => .list
  | record _ => .record

/-- Whether the value is null. -/
def isNull : Value → Bool
  | null => true
  | _ => false

/-- The truth value, of a truth value. -/
def asBool? : Value → Option Bool
  | bool b => some b
  | _ => none

/-- The text, of a text. -/
def asText? : Value → Option String
  | text s => some s
  | _ => none

/-- The first field of the name, in a record. -/
def field? (v : Value) (name : String) : Option Value :=
  match v with
  | record fields => (fields.find? (·.1 == name)).map (·.2)
  | _ => none

/-- The number that a numeric value stands for, with integers rounded to the nearest. -/
def widen? : Value → Option Float
  | int n => some (Binary.ofInt n.toInt)
  | float x => some x
  | _ => none

/-- The order of two scalars of compatible kinds. Two integers compare exactly, other numbers after
widening, text by code points. -/
def compare (a b : Value) : Option Ordering :=
  match a, b with
  | int m, int n => some (Ord.compare m.toInt n.toInt)
  | bool p, bool q => some (Ord.compare p q)
  | text s, text t => some (Ord.compare s t)
  | _, _ =>
    match a.widen?, b.widen? with
    | some x, some y => Binary.order x y
    | _, _ => none

mutual

/-- Structural equality. Numbers compare as numbers: the zeros are equal, and the undefined number
is unequal to itself. -/
def eq : Value → Value → Bool
  | null, null => true
  | bool p, bool q => p == q
  | int m, int n => m == n
  | float x, float y => Binary.order x y == some .eq
  | text s, text t => s == t
  | list xs, list ys => eqItems xs ys
  | record fs, record gs => eqFields fs gs
  | _, _ => false

/-- Structural equality of lists. -/
def eqItems : List Value → List Value → Bool
  | [], [] => true
  | x :: xs, y :: ys => eq x y && eqItems xs ys
  | _, _ => false

/-- Structural equality of fields, in order. -/
def eqFields : List (String × Value) → List (String × Value) → Bool
  | [], [] => true
  | (m, x) :: fs, (n, y) :: gs => m == n && eq x y && eqFields fs gs
  | _, _ => false

end

mutual

/-- Equality up to widening: numbers are equal if they compare equal, lists item by item, and
everything else structurally. -/
def looseEq : Value → Value → Bool
  | list xs, list ys => looseEqItems xs ys
  | a, b =>
    if a.kind.isNumeric && b.kind.isNumeric then a.compare b == some .eq else a.eq b

/-- Equality up to widening of lists. -/
def looseEqItems : List Value → List Value → Bool
  | [], [] => true
  | x :: xs, y :: ys => looseEq x y && looseEqItems xs ys
  | _, _ => false

end

end Value

end QueryChain
