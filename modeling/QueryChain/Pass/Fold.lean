import QueryChain.Eval.Evaluable
import QueryChain.Pass.Basic

/-!
# Partial evaluation

Every largest evaluable part of a tree is replaced by its value. The parameters of a lambda count
as live, so that `x => x.age == 2 + 3` becomes `x => x.age == 5`.

## Main definitions

* `Expr.fold`: the tree with its evaluable parts replaced
* `Pass.fold`: the pass

## Main results

* `Expr.fold_eq`: the equation on a node and its children
-/

namespace QueryChain

namespace Expr

/-- Whether the tree is a constant. -/
def isConstant : Expr → Bool
  | constant _ => true
  | _ => false

/-- Whether the tree is to be replaced by its value. -/
def isFoldable (filter : EvaluableFilter) (e : Expr) : Bool :=
  !e.isConstant && e.isEvaluable filter

/-- The value of a tree as a constant. -/
def toConstant (e : Expr) : Except CompileError Edit :=
  match e.evaluate with
  | .ok v => .ok (.changed (constant v))
  | .error cause => .error (.evaluation e cause)

/-- The answer for a node, given those for its children. -/
def foldStep (filter : EvaluableFilter) (e : Expr) (inner : List (Except CompileError Edit)) :
    Except CompileError Edit :=
  if e.isFoldable filter then e.toConstant else (inner.mapM id).map e.gather

/-- The tree with every largest evaluable part replaced by its value. -/
def fold (filter : EvaluableFilter) : Expr → Except CompileError Edit :=
  bottomUp (foldStep filter)

theorem fold_eq (filter : EvaluableFilter) (e : Expr) :
    e.fold filter =
      if e.isFoldable filter then e.toConstant else e.mapChildren (fold filter) := by
  rw [fold, bottomUp_eq, foldStep, mapChildren_eq_map, List.mapM_map]
  rfl

end Expr

/-- Partial evaluation under a filter. -/
def Pass.fold (filter : EvaluableFilter) : Pass where
  name := "partial_evaluation"
  apply e :=
    match e.fold filter with
    | .ok edit => .ok edit
    | .error err => .error (.fault err)

end QueryChain
