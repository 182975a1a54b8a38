import QueryChain.Model.Basic
import QueryChain.Expr.Render
import QueryChain.Text.Blank

/-!
# Explained models

A model as text: one line for its source and one for each clause. The lines of a model within a
clause follow the clause's line, indented by two more spaces. All lines are written to one text, from
the first to the last.

## Main definitions

* `Model.explainTo`, `Clause.explainTo`: a model and a clause, written to the end of a text
* `Model.explain`: the text of a model
-/

namespace QueryChain

/-- The text of a source. -/
def QuerySource.render : QuerySource → String
  | named name => name
  | inline e => e.render

/-- The text of a terminal reduction: its name and its argument. -/
def ResultOp.render (op : ResultOp) : String :=
  match op with
  | all p => op.name ++ " " ++ p.render
  | aggregate _ (some s) => op.name ++ " " ++ s.render
  | contains item => op.name ++ " " ++ item.render
  | _ => op.name

/-- The text of an assigned value. -/
def AssignedValue.render : AssignedValue → String
  | operand e => e.render
  | row l => l.render

/-- The text of an assignment. -/
def Assignment.render (a : Assignment) : String :=
  ".".intercalate a.path ++ " = " ++ a.value.render

/-- The spaces before a line at a nesting depth: two for each level. -/
def indentation (depth : Nat) : String :=
  String.join (List.replicate depth "  ")

mutual

/-- The text with a model written to its end: the source, then the clauses. -/
def Model.explainTo (depth : Nat) (out : String) : Model → String
  | ⟨source, clauses⟩ =>
    Clause.explainAllTo depth (out ++ indentation depth ++ "from " ++ source.render ++ "\n") clauses

/-- The text with a clause written to its end. A model that the clause holds comes after it, one level
deeper. -/
def Clause.explainTo (depth : Nat) (out : String) (c : Clause) : String :=
  let out := out ++ indentation depth
  match c with
  | .filter p => out ++ "filter " ++ p.render ++ "\n"
  | .select s => out ++ "select " ++ s.render ++ "\n"
  | .orderBy key direction _ =>
    out ++ c.name ++ " " ++ key.render ++ " " ++ direction.label ++ "\n"
  | .skip count => out ++ "skip " ++ count.render ++ "\n"
  | .take count => out ++ "take " ++ count.render ++ "\n"
  | .distinct => out ++ "distinct\n"
  | .join inner outerKey innerKey pair =>
    Model.explainTo (depth + 1)
      (out ++ "join on " ++ outerKey.render ++ " == " ++ innerKey.render ++ " into " ++ pair.render ++
        "\n") inner
  | .groupBy key => out ++ "group_by " ++ key.render ++ "\n"
  | .setOp op other => Model.explainTo (depth + 1) (out ++ op.label ++ "\n") other
  | .result op => out ++ op.render ++ "\n"
  | .delete none => out ++ "delete_all\n"
  | .delete (some f) => out ++ "delete_all where " ++ f.render ++ "\n"
  | .update assignments =>
    out ++ "update_all set " ++ ", ".intercalate (assignments.map Assignment.render) ++ "\n"

/-- The text with clauses written to its end, in order. -/
def Clause.explainAllTo (depth : Nat) (out : String) : List Clause → String
  | [] => out
  | c :: cs => Clause.explainAllTo depth (Clause.explainTo depth out c) cs

end

/-- The text of a model with the line feed after its last line. -/
def Model.explainLines (m : Model) : String :=
  m.explainTo 0 ""

/-- The text of a model, without blanks at the end. -/
def Model.explain (m : Model) : String :=
  Text.trimEnd m.explainLines

end QueryChain
