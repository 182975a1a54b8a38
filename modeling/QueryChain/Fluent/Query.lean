import QueryChain.Fluent.Setters

/-!
# Fluent queries

A query is written as a chain of operations on a source. Lambdas are handed over quoted, other
operands as they are. An operation on sequences gives a query again, a terminal one the finished
tree.

## Main definitions

* `Query`: a chain under construction
* `Query.source`, `Query.ofSequence`: chains without an operation
* `Query.filter`, …, `Query.except`: operations on sequences
* `Query.count`, …, `Query.updateAll`: terminal operations
-/

namespace QueryChain

/-- A chain of query operations under construction. -/
structure Query where
  expr : Expr

namespace Query

/-- The rows of a data source. -/
def source (name : String) : Query :=
  ⟨.source name⟩

/-- The rows of any sequence. -/
def ofSequence (e : Expr) : Query :=
  ⟨e⟩

/-- A further operation on sequences. -/
def call (q : Query) (method : String) (args : List Expr) : Query :=
  ⟨.call .queryable method q.expr args⟩

/-- A further operation that takes a lambda. -/
def callQuoted (q : Query) (method : String) (l : Expr) : Query :=
  q.call method [.quote l]

/-- The rows that satisfy a predicate. -/
def filter (q : Query) (predicate : Expr) : Query :=
  q.callQuoted "filter" predicate

/-- What a selector makes of each row. -/
def select (q : Query) (selector : Expr) : Query :=
  q.callQuoted "select" selector

/-- The rows in ascending order of a key. -/
def orderBy (q : Query) (key : Expr) : Query :=
  q.callQuoted "order_by" key

/-- The rows in descending order of a key. -/
def orderByDesc (q : Query) (key : Expr) : Query :=
  q.callQuoted "order_by_desc" key

/-- Rows that the ordering leaves equal, in ascending order of a key. -/
def thenBy (q : Query) (key : Expr) : Query :=
  q.callQuoted "then_by" key

/-- Rows that the ordering leaves equal, in descending order of a key. -/
def thenByDesc (q : Query) (key : Expr) : Query :=
  q.callQuoted "then_by_desc" key

/-- The rows grouped by a key. -/
def groupBy (q : Query) (key : Expr) : Query :=
  q.callQuoted "group_by" key

/-- The rows after the first ones. -/
def skip (q : Query) (count : Expr) : Query :=
  q.call "skip" [count]

/-- The first rows. -/
def take (q : Query) (count : Expr) : Query :=
  q.call "take" [count]

/-- The rows without repetitions. -/
def distinct (q : Query) : Query :=
  q.call "distinct" []

/-- Pairs of rows with equal keys. -/
def join (q inner : Query) (outerKey innerKey pair : Expr) : Query :=
  q.call "join" [inner.expr, .quote outerKey, .quote innerKey, .quote pair]

/-- The rows of either query. -/
def union (q other : Query) : Query :=
  q.call "union" [other.expr]

/-- The rows of both queries. -/
def intersect (q other : Query) : Query :=
  q.call "intersect" [other.expr]

/-- The rows of the query that are not rows of the other. -/
def except (q other : Query) : Query :=
  q.call "except" [other.expr]

/-- A terminal operation. -/
def terminal (q : Query) (owner : Owner) (method : String) (args : List Expr) : Expr :=
  .call owner method q.expr args

/-- A terminal operation that takes a lambda of the row. -/
def terminalQuoted (q : Query) (owner : Owner) (method : String) (l : Expr) : Expr :=
  q.terminal owner method [.quote l]

/-- The number of rows. -/
def count (q : Query) : Expr :=
  q.terminal .queryable "count" []

/-- The number of rows that satisfy a predicate. -/
def countWhere (q : Query) (predicate : Expr) : Expr :=
  q.terminalQuoted .queryable "count" predicate

/-- Whether there are rows. -/
def any (q : Query) : Expr :=
  q.terminal .queryable "any" []

/-- Whether there are rows that satisfy a predicate. -/
def anyWhere (q : Query) (predicate : Expr) : Expr :=
  q.terminalQuoted .queryable "any" predicate

/-- Whether all rows satisfy a predicate. -/
def all (q : Query) (predicate : Expr) : Expr :=
  q.terminalQuoted .queryable "all" predicate

/-- The first row. -/
def first (q : Query) : Expr :=
  q.terminal .queryable "first" []

/-- The first row that satisfies a predicate. -/
def firstWhere (q : Query) (predicate : Expr) : Expr :=
  q.terminalQuoted .queryable "first" predicate

/-- The first row, if there is one. -/
def firstOrDefault (q : Query) : Expr :=
  q.terminal .queryable "first_or_default" []

/-- The only row. -/
def single (q : Query) : Expr :=
  q.terminal .queryable "single" []

/-- The only row, if there is one. -/
def singleOrDefault (q : Query) : Expr :=
  q.terminal .queryable "single_or_default" []

/-- The last row. -/
def last (q : Query) : Expr :=
  q.terminal .queryable "last" []

/-- The sum of selected values. -/
def sum (q : Query) (selector : Expr) : Expr :=
  q.terminalQuoted .queryable "sum" selector

/-- The least of selected values. -/
def min (q : Query) (selector : Expr) : Expr :=
  q.terminalQuoted .queryable "min" selector

/-- The greatest of selected values. -/
def max (q : Query) (selector : Expr) : Expr :=
  q.terminalQuoted .queryable "max" selector

/-- The mean of selected values. -/
def average (q : Query) (selector : Expr) : Expr :=
  q.terminalQuoted .queryable "average" selector

/-- Whether an item is among the rows. -/
def contains (q : Query) (item : Expr) : Expr :=
  q.terminal .queryable "contains" [item]

/-- Deletes all rows. -/
def deleteAll (q : Query) : Expr :=
  q.terminal .dml "delete_all" []

/-- Deletes the rows that satisfy a predicate. -/
def deleteWhere (q : Query) (predicate : Expr) : Expr :=
  q.terminalQuoted .dml "delete_all" predicate

/-- Updates all rows. -/
def updateAll (q : Query) (setters : Setters) : Expr :=
  q.terminalQuoted .dml "update_all" setters.toLambda

end Query

end QueryChain
