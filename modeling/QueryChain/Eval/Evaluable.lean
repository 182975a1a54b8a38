import QueryChain.Eval.Basic
import QueryChain.Expr.Scope

/-!
# Evaluable trees

A tree is evaluable if it is closed and built from constants, operators, conversions, record and
list constructions and known builtin functions. A filter can only narrow this.

## Main definitions

* `EvaluableFilter`: calls and member reads that are left for later
* `Expr.isEvaluable`: whether a tree can be evaluated ahead of the query

## Main results

* `Expr.isEvaluable_eq`: a tree is evaluable iff its root is admitted and its children are evaluable
-/

namespace QueryChain

/-- Narrows what is evaluated ahead of the query. -/
structure EvaluableFilter where
  /-- Whether a builtin call may be evaluated. -/
  allowsCall : Call → Bool
  /-- Whether a member of the target may be read. -/
  allowsMember : Expr → String → Bool

namespace EvaluableFilter

/-- The filter that narrows nothing. -/
def allowAll : EvaluableFilter where
  allowsCall _ := true
  allowsMember _ _ := true

/-- The filter that refuses calls and members by their names. -/
def deny (calls members : List String) : EvaluableFilter where
  allowsCall c := c.method ∉ calls
  allowsMember _ name := name ∉ members

/-- Whether the root of a tree may take part in an evaluation. -/
def admits (filter : EvaluableFilter) : Expr → Bool
  | .parameter _ | .source _ | .lambda _ _ | .quote _ | .invoke _ _ => false
  | .member t n => filter.allowsMember t n
  | .call o m r as => o = .builtin && m ∈ Builtin.known && filter.allowsCall ⟨o, m, r, as⟩
  | _ => true

end EvaluableFilter

namespace Expr

/-- Whether the tree can be evaluated ahead of the query. -/
def isEvaluable (filter : EvaluableFilter) : Expr → Bool :=
  bottomUp fun e inner => filter.admits e && inner.all id

theorem isEvaluable_eq (filter : EvaluableFilter) (e : Expr) :
    e.isEvaluable filter = (filter.admits e && e.children.all (isEvaluable filter)) := by
  rw [isEvaluable, bottomUp_eq]
  simp

end Expr

end QueryChain
