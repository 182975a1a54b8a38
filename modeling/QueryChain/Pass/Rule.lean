import QueryChain.Expr.Scope
import QueryChain.Model.Basic

/-!
# Normalization rules

Each rule replaces one node by its canonical form. No rule brings back what another one replaced.

## Main definitions

* `Rule`: the rules
* `Rule.apply`: the replacement of a node, if the rule applies
-/

namespace QueryChain

/-- A local replacement of a node. -/
inductive Rule where
  /-- A quoted tree is the tree. -/
  | stripQuote
  /-- A conversion that does nothing is left out. -/
  | collapseConvert
  /-- A literal lambda that is applied to arguments is its body. -/
  | inlineInvoke
  /-- An alias of an operation gives way to its canonical name. -/
  | canonicalAlias
  /-- A predicate of a reduction becomes a filter before it. -/
  | lowerPredicateOverload
  /-- A constant is compared from the right. -/
  | constantOnRight
  /-- A negation is moved into equality, and a double negation is left out. -/
  | simplifyNot
deriving DecidableEq, Repr

namespace Rule

/-- The rules in the order in which they are tried. -/
def standard : List Rule :=
  [stripQuote, collapseConvert, inlineInvoke, canonicalAlias, lowerPredicateOverload,
    constantOnRight, simplifyNot]

/-- The name of a rule. -/
def name : Rule → String
  | stripQuote => "strip_quote"
  | collapseConvert => "collapse_convert"
  | inlineInvoke => "inline_invoke"
  | canonicalAlias => "canonical_alias"
  | lowerPredicateOverload => "lower_predicate_overload"
  | constantOnRight => "constant_on_right"
  | simplifyNot => "simplify_not"

end Rule

/-- Other names of operations on sequences, with the canonical ones. -/
def aliases : List (String × String) :=
  [("where", "filter"), ("map", "select"), ("limit", "take"), ("offset", "skip"),
    ("order_by_descending", "order_by_desc"), ("then_by_descending", "then_by_desc")]

/-- The operations on sequences whose predicate becomes a filter. -/
def loweredOperators : List String :=
  ["count", "long_count", "any", "first", "first_or_default", "single", "single_or_default", "last"]

/-- The lambda with the given arguments in place of its parameters, one after the other. -/
def Lambda.instantiate (l : Lambda) (args : List Expr) : Expr :=
  (l.params.zip args).foldl (fun body p => body.substitute p.1 p.2) l.body

/-- Whether an argument can be put in place without a change of meaning: none of its free names is
bound in the body, and none is a parameter if there are several. -/
def Lambda.admits (l : Lambda) (count : Nat) (arg : Expr) : Bool :=
  arg.free.all fun n => n ∉ l.body.bound && (count ≤ 1 || n ∉ l.params)

namespace Expr

/-- Whether the tree can only have a truth value, or null if it is a negation of null. -/
def isBoolean : Expr → Bool
  | constant (.bool _) => true
  | unary .not _ => true
  | binary op _ _ => op.isComparison || op == .and || op == .or
  | _ => false

/-- Leaves out a quote. -/
def stripQuote? : Expr → Option Expr
  | quote x => some x
  | _ => none

/-- Leaves out a conversion to the erased kind, or to the kind that the operand is converted to. -/
def collapseConvert? : Expr → Option Expr
  | convert x .any => some x
  | convert (convert x j) k => if j = k then some (convert x j) else none
  | _ => none

/-- Puts the arguments of an applied literal lambda in place of its parameters. -/
def inlineInvoke? : Expr → Option Expr
  | invoke f args =>
    match f.asLambda? with
    | some l =>
      if l.arity = args.length && args.all (l.admits args.length) then
        some (l.instantiate args)
      else
        none
    | none => none
  | _ => none

/-- Replaces an alias by the canonical name. -/
def canonicalAlias? : Expr → Option Expr
  | call .queryable m r args =>
    (aliases.lookup m).map fun canonical => call .queryable canonical r args
  | _ => none

/-- Makes the predicate of a reduction a filter before it. -/
def lowerPredicateOverload? : Expr → Option Expr
  | call .queryable m r [p] =>
    if m ∈ loweredOperators && p.asLambda?.any (·.arity == 1) then
      some (call .queryable m (call .queryable "filter" r [p]) [])
    else
      none
  | _ => none

/-- Exchanges the operands of a comparison whose only constant is on the left. -/
def constantOnRight? : Expr → Option Expr
  | binary _ (constant _) (constant _) => none
  | binary op (constant v) b => op.exchanged?.map fun exchanged => binary exchanged b (constant v)
  | _ => none

/-- Leaves out a double negation of a truth value, and negates equality in place. -/
def simplifyNot? : Expr → Option Expr
  | unary .not (unary .not x) => if x.isBoolean then some x else none
  | unary .not (binary op a b) => op.negated?.map fun opposite => binary opposite a b
  | _ => none

end Expr

/-- The replacement of a node by a rule. -/
def Rule.apply : Rule → Expr → Option Expr
  | stripQuote => Expr.stripQuote?
  | collapseConvert => Expr.collapseConvert?
  | inlineInvoke => Expr.inlineInvoke?
  | canonicalAlias => Expr.canonicalAlias?
  | lowerPredicateOverload => Expr.lowerPredicateOverload?
  | constantOnRight => Expr.constantOnRight?
  | simplifyNot => Expr.simplifyNot?

end QueryChain
