import QueryChain.Expr.Basic
import QueryChain.Value.Render

/-!
# Rendered trees

## Main definitions

* `Expr.render`: the text of a tree; a quote leaves no trace
* `Lambda.render`, `Call.render`: the texts of a lambda and of a call
-/

namespace QueryChain

/-- The head of a lambda: a single parameter bare, any other number in parentheses. -/
def renderParams : List String → String
  | [p] => p
  | ps => "(" ++ ", ".intercalate ps ++ ")"

namespace Expr

mutual

/-- The text of a tree. -/
def render : Expr → String
  | constant v => v.render
  | parameter n => n
  | source n => "source(" ++ n ++ ")"
  | member t n => render t ++ "." ++ n
  | unary o x => o.symbol ++ render x
  | binary o a b => "(" ++ render a ++ " " ++ o.symbol ++ " " ++ render b ++ ")"
  | conditional t a b => "(" ++ render t ++ " ? " ++ render a ++ " : " ++ render b ++ ")"
  | convert x k => "(" ++ k.label ++ ")" ++ render x
  | quote x => render x
  | lambda ps b => renderParams ps ++ " => " ++ render b
  | invoke f as => "(" ++ render f ++ ")(" ++ ", ".intercalate (renderItems as) ++ ")"
  | record fs => "new \x7b" ++ ",".intercalate (renderFields fs) ++ " \x7d"
  | list xs => "[" ++ ", ".intercalate (renderItems xs) ++ "]"
  | call _ m r as => render r ++ "." ++ m ++ "(" ++ ", ".intercalate (renderItems as) ++ ")"

/-- The texts of a list of trees. -/
def renderItems : List Expr → List String
  | [] => []
  | x :: xs => render x :: renderItems xs

/-- The texts of named trees, each behind a blank. -/
def renderFields : List (String × Expr) → List String
  | [] => []
  | (n, x) :: fs => (" " ++ n ++ " = " ++ render x) :: renderFields fs

end

end Expr

/-- The text of a lambda. -/
def Lambda.render (l : Lambda) : String :=
  l.toExpr.render

/-- The text of a call. -/
def Call.render (c : Call) : String :=
  c.toExpr.render

end QueryChain
