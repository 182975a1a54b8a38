import QueryChain.Model.Basic

/-!
# Operations

The query operations that calls are recognised as.

## Main definitions

* `ResultKind`, `ResultKind.name`: the terminal reductions and the names by which they are called
* `Operation`, `Operation.label`: operations and their labels

## Main results

* `ResultKind.name_reduce`, `ResultKind.name_aggregate`, `ResultKind.label_eq_name`: the tables of
  names agree
-/

namespace QueryChain

/-- A terminal reduction, without its argument. -/
inductive ResultKind where
  | reduce (reduction : Reduction)
  | all
  | aggregate (function : Aggregate)
  | contains
deriving DecidableEq, Repr

namespace ResultKind

/-- The name by which a terminal reduction is called. -/
def name : ResultKind → String
  | reduce .count => "count"
  | reduce .longCount => "long_count"
  | reduce .any => "any"
  | all => "all"
  | reduce .first => "first"
  | reduce .firstOrDefault => "first_or_default"
  | reduce .single => "single"
  | reduce .singleOrDefault => "single_or_default"
  | reduce .last => "last"
  | aggregate .sum => "sum"
  | aggregate .min => "min"
  | aggregate .max => "max"
  | aggregate .average => "average"
  | contains => "contains"

/-- The label of a terminal reduction. -/
def label : ResultKind → String
  | reduce .count => "count"
  | reduce .longCount => "long_count"
  | reduce .any => "any"
  | all => "all"
  | reduce .first => "first"
  | reduce .firstOrDefault => "first_or_default"
  | reduce .single => "single"
  | reduce .singleOrDefault => "single_or_default"
  | reduce .last => "last"
  | aggregate .sum => "sum"
  | aggregate .min => "min"
  | aggregate .max => "max"
  | aggregate .average => "average"
  | contains => "contains"

/-- A reduction is called by the name that its clause goes by. -/
@[simp] theorem name_reduce (r : Reduction) : (reduce r).name = r.name := by
  cases r <;> rfl

@[simp] theorem name_aggregate (f : Aggregate) : (aggregate f).name = f.name := by
  cases f <;> rfl

/-- A terminal reduction is labelled with its name. -/
theorem label_eq_name (k : ResultKind) : k.label = k.name := by
  rcases k with r | _ | f | _
  · cases r <;> rfl
  · rfl
  · cases f <;> rfl
  · rfl

end ResultKind

/-- A query operation, which turns the arguments of a call into a clause. -/
inductive Operation where
  | filter
  | select
  | orderBy (direction : Direction)
  | thenBy (direction : Direction)
  | skip
  | take
  | distinct
  | join
  | groupBy
  | setOp (op : SetOperation)
  | result (kind : ResultKind)
  | delete
  | update
deriving DecidableEq, Repr

/-- The label of an operation. -/
def Operation.label : Operation → String
  | filter => "Filter"
  | select => "Select"
  | orderBy d => "OrderBy(" ++ d.label ++ ")"
  | thenBy d => "ThenBy(" ++ d.label ++ ")"
  | skip => "Skip"
  | take => "Take"
  | distinct => "Distinct"
  | join => "Join"
  | groupBy => "GroupBy"
  | setOp op => "SetOp(" ++ op.label ++ ")"
  | result k => "Result(" ++ k.label ++ ")"
  | delete => "Delete"
  | update => "Update"

end QueryChain
