import QueryChain.Expr.Traversal

/-!
# Scope of parameters

Which parameter names a tree reads, which its lambdas bind, and the replacement of a free name.

## Main definitions

* `Expr.free`, `Expr.bound`: the free and the bound names, with repetitions
* `Expr.readsSource`: whether a data source occurs
* `Expr.substitute`: a tree in place of the free occurrences of a name
* `sortedNames`: names as a set, in code-point order

## Main results

* `Expr.free_eq`, `Expr.bound_eq`, `Expr.readsSource_eq`, `Expr.substitute_eq`: the equations on a
  node and its children
-/

namespace QueryChain

namespace Expr

/-- The free names of a node, given those of its children. -/
def freeStep (e : Expr) (inner : List (List String)) : List String :=
  match e with
  | parameter n => [n]
  | lambda ps _ => inner.flatten.filter (· ∉ ps)
  | _ => inner.flatten

/-- The names that are read but not bound within the tree. -/
def free : Expr → List String :=
  bottomUp freeStep

theorem free_eq (e : Expr) : e.free = freeStep e (e.children.map free) :=
  bottomUp_eq _ e

/-- The bound names of a node, given those of its children. -/
def boundStep (e : Expr) (inner : List (List String)) : List String :=
  match e with
  | lambda ps _ => ps ++ inner.flatten
  | _ => inner.flatten

/-- The names that some lambda within the tree binds. -/
def bound : Expr → List String :=
  bottomUp boundStep

theorem bound_eq (e : Expr) : e.bound = boundStep e (e.children.map bound) :=
  bottomUp_eq _ e

/-- Whether a node is a data source or has a child that reads one. -/
def readsSourceStep (e : Expr) (inner : List Bool) : Bool :=
  match e with
  | source _ => true
  | _ => inner.any id

/-- Whether the tree reads a data source. -/
def readsSource : Expr → Bool :=
  bottomUp readsSourceStep

theorem readsSource_eq (e : Expr) :
    e.readsSource = readsSourceStep e (e.children.map readsSource) :=
  bottomUp_eq _ e

/-- The node with the name replaced, given its children with the name replaced. A lambda that binds
the name stays as it is. -/
def substituteStep (name : String) (replacement : Expr) (e : Expr) (inner : List Expr) : Expr :=
  match e with
  | parameter n => if n = name then replacement else e
  | lambda ps _ => if name ∈ ps then e else e.withChildren inner
  | _ => e.withChildren inner

/-- The tree with `replacement` for the free occurrences of `name`. Free names of the replacement
are not protected from the lambdas around an occurrence. -/
def substitute (e : Expr) (name : String) (replacement : Expr) : Expr :=
  e.bottomUp (substituteStep name replacement)

theorem substitute_eq (e : Expr) (name : String) (replacement : Expr) :
    e.substitute name replacement =
      substituteStep name replacement e (e.children.map (·.substitute name replacement)) :=
  bottomUp_eq _ e

end Expr

/-- The names without repetitions, in code-point order. -/
def sortedNames (names : List String) : List String :=
  names.eraseDups.mergeSort fun a b => decide (a ≤ b)

end QueryChain
