import QueryChain.Expr.Basic

/-!
# Query models

The result of a compilation: a source and the clauses applied to it, in order of application. Joins
and set operations hold models of their own.

## Main definitions

* `Reduction`, `Aggregate`, `ResultOp`: terminal reductions of a sequence
* `Assignment`: one assignment of an update
* `Clause`, `Model`: clauses and models
* `Clause.name`, `Clause.terminal?`, `Model.kind`: names and kinds
-/

namespace QueryChain

/-- The direction of an ordering. -/
inductive Direction where
  | asc
  | desc
deriving DecidableEq, Repr

/-- The name of a direction. -/
def Direction.label : Direction → String
  | asc => "asc"
  | desc => "desc"

/-- An operation on two sequences. -/
inductive SetOperation where
  | union
  | intersect
  | except
deriving DecidableEq, Repr

/-- The name of a set operation. -/
def SetOperation.label : SetOperation → String
  | union => "union"
  | intersect => "intersect"
  | except => "except"

/-- A reduction of the rows to a count, a truth value or a row, without an argument. -/
inductive Reduction where
  | count
  | longCount
  | any
  | first
  | firstOrDefault
  | single
  | singleOrDefault
  | last
deriving DecidableEq, Repr

namespace Reduction

/-- The name of a reduction. -/
def name : Reduction → String
  | count => "count"
  | longCount => "long_count"
  | any => "any"
  | first => "first"
  | firstOrDefault => "first_or_default"
  | single => "single"
  | singleOrDefault => "single_or_default"
  | last => "last"

/-- The reductions. -/
def all : List Reduction :=
  [count, longCount, any, first, firstOrDefault, single, singleOrDefault, last]

end Reduction

/-- An aggregate of the rows or of values selected from them. -/
inductive Aggregate where
  | sum
  | min
  | max
  | average
deriving DecidableEq, Repr

namespace Aggregate

/-- The name of an aggregate. -/
def name : Aggregate → String
  | sum => "sum"
  | min => "min"
  | max => "max"
  | average => "average"

/-- The aggregates. -/
def all : List Aggregate :=
  [sum, min, max, average]

end Aggregate

/-- A reduction of a sequence to a single result. -/
inductive ResultOp where
  | reduce (reduction : Reduction)
  | all (predicate : Lambda)
  | aggregate (function : Aggregate) (selector : Option Lambda)
  | contains (item : Expr)

/-- The name of a reduction. -/
def ResultOp.name : ResultOp → String
  | reduce r => r.name
  | all _ => "all"
  | aggregate f _ => f.name
  | contains _ => "contains"

/-- The value that an update assigns. -/
inductive AssignedValue where
  /-- The same for every row. -/
  | operand (e : Expr)
  /-- Computed from the row. -/
  | row (l : Lambda)

/-- An assignment to a member of the row, given by its path from the row on. -/
structure Assignment where
  path : List String
  value : AssignedValue

/-- Where the rows of a query come from. -/
inductive QuerySource where
  /-- A named data source. -/
  | named (name : String)
  /-- Any other sequence. -/
  | inline (e : Expr)

/-- What a query yields or does. -/
inductive QueryKind where
  /-- Rows. -/
  | select
  /-- A single value or row. -/
  | scalar
  | delete
  | update
deriving DecidableEq, Repr

/-- The name of a kind of query. -/
def QueryKind.label : QueryKind → String
  | select => "select"
  | scalar => "scalar"
  | delete => "delete"
  | update => "update"

mutual

/-- A query operation with its operands. -/
inductive Clause where
  | filter (predicate : Lambda)
  | select (selector : Lambda)
  /-- An ordering; one that is not primary refines the ordering before it. -/
  | orderBy (key : Lambda) (direction : Direction) (primary : Bool)
  | skip (count : Expr)
  | take (count : Expr)
  | distinct
  | join (inner : Model) (outerKey innerKey result : Lambda)
  | groupBy (key : Lambda)
  | setOp (op : SetOperation) (other : Model)
  | result (op : ResultOp)
  | delete (filter : Option Lambda)
  | update (assignments : List Assignment)

/-- A source and the clauses applied to it, in order of application. -/
structure Model where
  source : QuerySource
  clauses : List Clause

end

namespace Clause

/-- The name of the operation. -/
def name : Clause → String
  | filter _ => "filter"
  | select _ => "select"
  | orderBy _ _ true => "order_by"
  | orderBy _ _ false => "then_by"
  | skip _ => "skip"
  | take _ => "take"
  | distinct => "distinct"
  | join _ _ _ _ => "join"
  | groupBy _ => "group_by"
  | setOp op _ => op.label
  | result op => op.name
  | delete _ => "delete_all"
  | update _ => "update_all"

/-- The kind of query that a terminal clause makes. Nothing may follow a terminal clause. -/
def terminal? : Clause → Option QueryKind
  | result _ => some .scalar
  | delete _ => some .delete
  | update _ => some .update
  | _ => none

/-- Whether the clause orders the rows. -/
def isOrdering : Clause → Bool
  | orderBy _ _ _ => true
  | _ => false

/-- Whether the clause refines an ordering before it. -/
def isRefinement : Clause → Bool
  | orderBy _ _ false => true
  | _ => false

end Clause

namespace Model

/-- The last clause, if it is terminal. -/
def terminal? (m : Model) : Option Clause :=
  m.clauses.getLast?.filter fun c => c.terminal?.isSome

/-- The kind of the query: that of its terminal clause, or rows. -/
def kind (m : Model) : QueryKind :=
  (m.clauses.getLast?.bind Clause.terminal?).getD .select

end Model

end QueryChain
