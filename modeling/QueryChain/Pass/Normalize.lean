import QueryChain.Pass.Basic
import QueryChain.Pass.Rule

/-!
# Normalization

Rules are tried at every node, children first and in the order of the list.

## Main definitions

* `Rule.tryAll`: a list of rules at one node
* `Expr.normalize`: the rules at every node
* `Pass.normalize`: the pass

## Main results

* `Expr.normalize_eq`: the equation on a node and its children
-/

namespace QueryChain

/-- Tries a rule on the tree that an edit leads to. -/
def Rule.tryOn (edit : Edit) (rule : Rule) : Edit :=
  match rule.apply edit.tree with
  | some next => .changed next
  | none => edit

/-- Tries the rules in order, each on the result of those before it. -/
def Rule.tryAll (rules : List Rule) (edit : Edit) : Edit :=
  rules.foldl Rule.tryOn edit

namespace Expr

/-- The tree with the rules tried at every node, children first. -/
def normalize (rules : List Rule) : Expr → Edit :=
  bottomUp fun e inner => Rule.tryAll rules (e.gather inner)

theorem normalize_eq (rules : List Rule) (e : Expr) :
    e.normalize rules = Rule.tryAll rules (e.gather (e.children.map (normalize rules))) :=
  bottomUp_eq _ e

end Expr

/-- Normalization by a list of rules. -/
def Pass.normalize (rules : List Rule) : Pass where
  name := "normalization"
  apply e := .ok (e.normalize rules)

end QueryChain
