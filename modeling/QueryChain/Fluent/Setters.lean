import QueryChain.Compile.Error

/-!
# Setters

The assignments of an update, collected one after the other on a parameter:
`d => d.set(p => p.a, v).set(p => p.b, w)`.

## Main definitions

* `Setters`: a chain of assignments
* `Setters.empty`, `Setters.set`, `Setters.toLambda`
-/

namespace QueryChain

/-- A chain of assignments on the parameter that collects them. -/
structure Setters where
  chain : Expr

namespace Setters

/-- No assignment. -/
def empty : Setters :=
  ⟨.parameter settersParameter⟩

/-- A further assignment. The selector is quoted, and so is a value that is a lambda of the row. -/
def set (s : Setters) (selector value : Expr) : Setters :=
  let assigned := if value.asLambda?.isSome then .quote value else value
  ⟨.call .update "set" s.chain [.quote selector, assigned]⟩

/-- The chain as a lambda of the parameter. -/
def toLambda (s : Setters) : Expr :=
  .lambda [settersParameter] s.chain

end Setters

end QueryChain
