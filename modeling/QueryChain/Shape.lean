import QueryChain.Expr.Basic

/-!
# Call shapes

What a call looks like from outside: its owner, its name and the pattern of its arguments. Shapes
are the keys by which calls are recognised.

## Main definitions

* `ArgShape`: a lambda of some arity, or any other operand
* `CallShape`, `CallShape.of`: shapes, and the shape of a call
* `CallShape.compare`: the order of shapes
-/

namespace QueryChain

/-- What an argument looks like. -/
inductive ArgShape where
  /-- A lambda under at most one quote. -/
  | lambda (arity : Nat)
  /-- Anything else. -/
  | operand
deriving DecidableEq, Repr

namespace ArgShape

/-- The shape of an argument. -/
def of (e : Expr) : ArgShape :=
  match e.asLambda? with
  | some l => lambda l.arity
  | none => operand

/-- The text of an argument's shape. -/
def render : ArgShape → String
  | lambda arity => "lambda/" ++ toString arity
  | operand => "operand"

/-- Lambdas by arity, before operands. -/
def compare : ArgShape → ArgShape → Ordering
  | lambda m, lambda n => Ord.compare m n
  | lambda _, operand => .lt
  | operand, lambda _ => .gt
  | operand, operand => .eq

end ArgShape

namespace Owner

/-- The place of a family among the families. -/
def rank : Owner → Nat
  | queryable => 0
  | dml => 1
  | update => 2
  | builtin => 3
  | host _ => 4

/-- The library of a host call. -/
def library : Owner → String
  | host l => l
  | _ => ""

/-- The families in order, then host libraries by name. -/
def compare (a b : Owner) : Ordering :=
  (Ord.compare a.rank b.rank).then (Ord.compare a.library b.library)

end Owner

/-- What a call looks like. -/
structure CallShape where
  owner : Owner
  name : String
  args : List ArgShape
deriving DecidableEq, Repr

namespace CallShape

/-- The shape of a call. -/
def of (c : Call) : CallShape :=
  ⟨c.owner, c.method, c.args.map ArgShape.of⟩

/-- The text of a shape. -/
def render (s : CallShape) : String :=
  s.owner.label ++ "::" ++ s.name ++ "(" ++ ", ".intercalate (s.args.map ArgShape.render) ++ ")"

/-- Item by item; a list comes before its continuations. -/
def compareArgs : List ArgShape → List ArgShape → Ordering
  | [], [] => .eq
  | [], _ :: _ => .lt
  | _ :: _, [] => .gt
  | a :: as, b :: bs => (a.compare b).then (compareArgs as bs)

/-- By owner, then by name, then by arguments. -/
def compare (a b : CallShape) : Ordering :=
  ((a.owner.compare b.owner).then (Ord.compare a.name b.name)).then (compareArgs a.args b.args)

/-- The shapes in order. -/
def sort (shapes : List CallShape) : List CallShape :=
  shapes.mergeSort fun a b => (a.compare b).isLE

end CallShape

end QueryChain
