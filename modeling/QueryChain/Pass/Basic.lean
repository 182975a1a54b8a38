import QueryChain.Compile.Error
import QueryChain.Expr.Traversal

/-!
# Passes

A pass transforms a whole tree and says whether it changed it.

## Main definitions

* `Stop`: why a compilation ends without a model
* `Pass`: a named transformation of trees
-/

namespace QueryChain

/-- Why a compilation ends without a model: a fault of the query, or a pass that broke off. -/
inductive Stop where
  | fault (e : CompileError)
  | crash

/-- The class under which a stop is counted. A pass that breaks off is a defect of the compiler. -/
def Stop.errorClass : Stop → ErrorClass
  | fault e => e.errorClass
  | crash => .invariantViolation

/-- A named transformation of trees. -/
structure Pass where
  name : String
  apply : Expr → Except Stop Edit

end QueryChain
