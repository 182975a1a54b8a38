import QueryChain.Codec.Expr
import QueryChain.Model.Basic

/-!
# Models as data

## Main definitions

* `Model.encode`, `Clause.encode`: models and clauses as data
-/

namespace QueryChain

variable (form : NumberForm)

/-- The source as data. -/
def QuerySource.encode : QuerySource → Data
  | named name => .variant "Named" (.text name)
  | inline e => .variant "Inline" (e.encode form)

/-- The name under which a kind of query is written. -/
def QueryKind.tag : QueryKind → String
  | select => "Select"
  | scalar => "Scalar"
  | delete => "Delete"
  | update => "Update"

/-- The name under which a direction is written. -/
def Direction.tag : Direction → String
  | asc => "Asc"
  | desc => "Desc"

/-- The name under which a set operation is written. -/
def SetOperation.tag : SetOperation → String
  | union => "Union"
  | intersect => "Intersect"
  | except => "Except"

/-- The name under which a reduction is written. -/
def Reduction.tag : Reduction → String
  | count => "Count"
  | longCount => "LongCount"
  | any => "Any"
  | first => "First"
  | firstOrDefault => "FirstOrDefault"
  | single => "Single"
  | singleOrDefault => "SingleOrDefault"
  | last => "Last"

/-- The name under which an aggregate is written. -/
def Aggregate.tag : Aggregate → String
  | sum => "Sum"
  | min => "Min"
  | max => "Max"
  | average => "Average"

/-- A lambda that may be absent. -/
def encodeOptional : Option Lambda → Data
  | some l => l.encode form
  | none => .null

/-- The terminal reduction as data. -/
def ResultOp.encode : ResultOp → Data
  | reduce r => .text r.tag
  | all p => .variant "All" (.object [("predicate", p.encode form)])
  | aggregate f s =>
    .variant "Aggregate" (.object [("func", .text f.tag), ("selector", encodeOptional form s)])
  | contains item => .variant "Contains" (.object [("item", item.encode form)])

/-- The assigned value as data. -/
def AssignedValue.encode : AssignedValue → Data
  | operand e => .variant "Operand" (e.encode form)
  | row l => .variant "Row" (l.encode form)

/-- The assignment as data. -/
def Assignment.encode (a : Assignment) : Data :=
  .object [("member", encodeNames a.path), ("value", a.value.encode form)]

mutual

/-- The clause as data. -/
def Clause.encode : Clause → Data
  | .filter p => .variant "Filter" (.object [("predicate", p.encode form)])
  | .select s => .variant "Select" (.object [("selector", s.encode form)])
  | .orderBy key direction primary =>
    .variant "OrderBy" (.object [("key", key.encode form), ("direction", .text direction.tag),
      ("primary", .bool primary)])
  | .skip count => .variant "Skip" (.object [("count", count.encode form)])
  | .take count => .variant "Take" (.object [("count", count.encode form)])
  | .distinct => .text "Distinct"
  | .join inner outerKey innerKey pair =>
    .variant "Join" (.object [("inner", Model.encode inner), ("outer_key", outerKey.encode form),
      ("inner_key", innerKey.encode form), ("result", pair.encode form)])
  | .groupBy key => .variant "GroupBy" (.object [("key", key.encode form)])
  | .setOp op other =>
    .variant "SetOp" (.object [("op", .text op.tag), ("other", Model.encode other)])
  | .result op => .variant "Result" (op.encode form)
  | .delete f => .variant "Delete" (.object [("filter", encodeOptional form f)])
  | .update assignments =>
    .variant "Update" (.object [("assignments", .list (assignments.map (Assignment.encode form)))])

/-- The model as data, with the kind that its clauses give it. -/
def Model.encode : Model → Data
  | ⟨source, clauses⟩ =>
    .object [("source", source.encode form), ("clauses", .list (Clause.encodeAll clauses)),
      ("kind", .text (Model.kind ⟨source, clauses⟩).tag)]

/-- Clauses as data. -/
def Clause.encodeAll : List Clause → List Data
  | [] => []
  | c :: cs => Clause.encode c :: Clause.encodeAll cs

end

end QueryChain
