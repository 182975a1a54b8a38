import QueryChain.Registry.Basic

/-!
# The standard operations

## Main definitions

* `OperationSet.standard`: the operations on sequences of rows
* `OperationSet.dml`: deletion and update of stored rows
* `Registry.standard`: the registry of both
-/

namespace QueryChain

namespace OperationSet

/-- A shape of a sequence operation. -/
def queryable (name : String) (args : List ArgShape) (op : Operation) : CallShape × Operation :=
  (⟨.queryable, name, args⟩, op)

/-- The operations on sequences of rows. Reductions take no argument, since a predicate becomes a
filter before them; aggregates take an optional selector. -/
def standard : OperationSet where
  name := "standard"
  shapes :=
    [queryable "filter" [.lambda 1] .filter,
     queryable "select" [.lambda 1] .select,
     queryable "order_by" [.lambda 1] (.orderBy .asc),
     queryable "order_by_desc" [.lambda 1] (.orderBy .desc),
     queryable "then_by" [.lambda 1] (.thenBy .asc),
     queryable "then_by_desc" [.lambda 1] (.thenBy .desc),
     queryable "skip" [.operand] .skip,
     queryable "take" [.operand] .take,
     queryable "group_by" [.lambda 1] .groupBy,
     queryable "join" [.operand, .lambda 1, .lambda 1, .lambda 2] .join,
     queryable "all" [.lambda 1] (.result .all),
     queryable "contains" [.operand] (.result .contains)] ++
    (Reduction.all.map .reduce).map (fun k : ResultKind => queryable k.name [] (.result k)) ++
    (Aggregate.all.map .aggregate).flatMap (fun k : ResultKind =>
      [queryable k.name [] (.result k), queryable k.name [.lambda 1] (.result k)])
  names :=
    [((.queryable, "distinct"), .distinct),
     ((.queryable, "union"), .setOp .union),
     ((.queryable, "intersect"), .setOp .intersect),
     ((.queryable, "except"), .setOp .except)]

/-- Deletion and update of stored rows. -/
def dml : OperationSet where
  name := "dml"
  shapes :=
    [(⟨.dml, "delete_all", []⟩, .delete),
     (⟨.dml, "delete_all", [.lambda 1]⟩, .delete),
     (⟨.dml, "update_all", [.lambda 1]⟩, .update)]
  names := []

end OperationSet

namespace Registry

/-- The standard sets, then further sets. -/
def withExtensions (sets : List OperationSet) : Except RegistryError Registry :=
  empty.mergeAll (.standard :: .dml :: sets)

/-- The registry of the standard sets. -/
def standard : Except RegistryError Registry :=
  withExtensions []

end Registry

end QueryChain
