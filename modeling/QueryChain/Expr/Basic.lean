import QueryChain.Value.Basic

/-!
# Expression trees

The tree of a query as its host wrote it: constants, parameters, data sources, operators,
conversions, lambdas, record and list constructions, and calls of named operations.

## Main definitions

* `UnaryOp`, `BinaryOp`: operators, with their exchanged forms and complements
* `Owner`: the family of operations that a call belongs to
* `Expr`: expression trees
* `Lambda`, `Call`: the parts of a lambda and of a call
* `Expr.asLambda?`, `Expr.asCall?`, `Expr.asConstant?`: views of a tree
* `Expr.eq`: structural equality
-/

namespace QueryChain

/-- An operator on one operand. -/
inductive UnaryOp where
  | not
  | negate
deriving DecidableEq, Repr

/-- The sign of the operator. -/
def UnaryOp.symbol : UnaryOp → String
  | not => "!"
  | negate => "-"

/-- An operator on two operands. -/
inductive BinaryOp where
  | add
  | sub
  | mul
  | div
  | rem
  | eq
  | ne
  | lt
  | le
  | gt
  | ge
  | and
  | or
  | coalesce
deriving DecidableEq, Repr

namespace BinaryOp

/-- The sign of the operator. -/
def symbol : BinaryOp → String
  | add => "+"
  | sub => "-"
  | mul => "*"
  | div => "/"
  | rem => "%"
  | eq => "=="
  | ne => "!="
  | lt => "<"
  | le => "<="
  | gt => ">"
  | ge => ">="
  | and => "&&"
  | or => "||"
  | coalesce => "??"

/-- Whether the operator compares its operands. -/
def isComparison : BinaryOp → Bool
  | eq | ne | lt | le | gt | ge => true
  | _ => false

/-- The comparison that gives the same result on exchanged operands. -/
def exchanged? : BinaryOp → Option BinaryOp
  | eq => some eq
  | ne => some ne
  | lt => some gt
  | le => some ge
  | gt => some lt
  | ge => some le
  | _ => none

/-- The comparison that gives the opposite result. Only equality has one: an order comparison with
null is false, and so is the opposite comparison. -/
def negated? : BinaryOp → Option BinaryOp
  | eq => some ne
  | ne => some eq
  | _ => none

end BinaryOp

/-- The family of operations that a call belongs to. -/
inductive Owner where
  /-- Operations on a sequence of rows. -/
  | queryable
  /-- Operations that change stored rows. -/
  | dml
  /-- Assignments of an update. -/
  | update
  /-- Pure functions of scalars. -/
  | builtin
  /-- Operations of a host library, of which nothing is known. -/
  | host (library : String)
deriving DecidableEq, Repr

namespace Owner

/-- The name of the family. -/
def label : Owner → String
  | queryable => "queryable"
  | dml => "dml"
  | update => "update"
  | builtin => "builtin"
  | host library => "host:" ++ library

/-- Whether calls of the family form the chain of a query. -/
def isQuery : Owner → Bool
  | queryable | dml => true
  | _ => false

end Owner

/-- An expression tree. -/
inductive Expr where
  /-- A value. -/
  | constant (value : Value)
  /-- A name bound by a lambda around it, or free. -/
  | parameter (name : String)
  /-- A named data source, the live input of a query. -/
  | source (name : String)
  /-- A member read from a target. -/
  | member (target : Expr) (name : String)
  | unary (op : UnaryOp) (operand : Expr)
  | binary (op : BinaryOp) (left right : Expr)
  | conditional (test ifTrue ifFalse : Expr)
  | convert (operand : Expr) (kind : Kind)
  /-- A tree that is handed over as a tree. -/
  | quote (inner : Expr)
  | lambda (params : List String) (body : Expr)
  /-- A function applied to arguments. -/
  | invoke (function : Expr) (args : List Expr)
  /-- A record built from named fields. -/
  | record (fields : List (String × Expr))
  | list (items : List Expr)
  /-- A named operation applied to a receiver and arguments. -/
  | call (owner : Owner) (method : String) (receiver : Expr) (args : List Expr)
deriving Inhabited

/-- The parameters and the body of a lambda. -/
structure Lambda where
  params : List String
  body : Expr

/-- The lambda as a tree. -/
def Lambda.toExpr (l : Lambda) : Expr :=
  .lambda l.params l.body

/-- The number of parameters. -/
def Lambda.arity (l : Lambda) : Nat :=
  l.params.length

/-- The parts of a call. -/
structure Call where
  owner : Owner
  method : String
  receiver : Expr
  args : List Expr

/-- The call as a tree. -/
def Call.toExpr (c : Call) : Expr :=
  .call c.owner c.method c.receiver c.args

namespace Expr

/-- The value of a constant. -/
def asConstant? : Expr → Option Value
  | constant v => some v
  | _ => none

/-- The lambda under at most one quote. -/
def asLambda? : Expr → Option Lambda
  | lambda ps b => some ⟨ps, b⟩
  | quote (lambda ps b) => some ⟨ps, b⟩
  | _ => none

/-- The parts of a call. -/
def asCall? : Expr → Option Call
  | call o m r as => some ⟨o, m, r, as⟩
  | _ => none

mutual

/-- Structural equality; constants compare by `Value.eq`. -/
def eq : Expr → Expr → Bool
  | constant v, constant w => v.eq w
  | parameter m, parameter n => m == n
  | source m, source n => m == n
  | member t m, member u n => eq t u && m == n
  | unary o x, unary p y => o == p && eq x y
  | binary o a b, binary p c d => o == p && eq a c && eq b d
  | conditional t a b, conditional u c d => eq t u && eq a c && eq b d
  | convert x j, convert y k => eq x y && j == k
  | quote x, quote y => eq x y
  | lambda ps b, lambda qs c => ps == qs && eq b c
  | invoke f as, invoke g bs => eq f g && eqItems as bs
  | record fs, record gs => eqFields fs gs
  | list xs, list ys => eqItems xs ys
  | call o m r as, call p n s bs => o == p && m == n && eq r s && eqItems as bs
  | _, _ => false

/-- Structural equality of lists of trees. -/
def eqItems : List Expr → List Expr → Bool
  | [], [] => true
  | x :: xs, y :: ys => eq x y && eqItems xs ys
  | _, _ => false

/-- Structural equality of named trees, in order. -/
def eqFields : List (String × Expr) → List (String × Expr) → Bool
  | [], [] => true
  | (m, x) :: fs, (n, y) :: gs => m == n && eq x y && eqFields fs gs
  | _, _ => false

end

end Expr

end QueryChain
