import QueryChain.Codec.Value
import QueryChain.Expr.Basic

/-!
# Trees as data

A node is written as its variant: a structure of its parts under the name of its constructor.

## Main definitions

* `Owner.encode`, `Owner.decode`: owners
* `Expr.encode`, `Expr.decode`: trees
* `Lambda.encode`: a lambda on its own
-/

namespace QueryChain

/-- The name under which an operator is written. -/
def UnaryOp.tag : UnaryOp → String
  | not => "Not"
  | negate => "Negate"

/-- All operators on one operand. -/
def UnaryOp.all : List UnaryOp :=
  [not, negate]

/-- The name under which an operator is written. -/
def BinaryOp.tag : BinaryOp → String
  | add => "Add"
  | sub => "Sub"
  | mul => "Mul"
  | div => "Div"
  | rem => "Rem"
  | eq => "Eq"
  | ne => "Ne"
  | lt => "Lt"
  | le => "Lte"
  | gt => "Gt"
  | ge => "Gte"
  | and => "And"
  | or => "Or"
  | coalesce => "Coalesce"

/-- All operators on two operands. -/
def BinaryOp.all : List BinaryOp :=
  [add, sub, mul, div, rem, eq, ne, lt, le, gt, ge, and, or, coalesce]

namespace Owner

/-- The name under which a family is written. -/
def tag : Owner → String
  | queryable => "Queryable"
  | dml => "Dml"
  | update => "Update"
  | builtin => "Builtin"
  | host _ => "Host"

/-- The owner as data. -/
def encode : Owner → Data
  | host library => .variant "Host" (.text library)
  | o => .text o.tag

/-- The owner that the data stands for. -/
def decode (d : Data) : Option Owner :=
  match d with
  | .object [("Host", .text library)] => some (host library)
  | _ => decodeTag [queryable, dml, update, builtin] tag d

end Owner

/-- Names as data. -/
def encodeNames (names : List String) : Data :=
  .list (names.map .text)

variable (form : NumberForm)

namespace Expr

mutual

/-- The tree as data. -/
def encode : Expr → Data
  | constant v => .variant "Constant" (v.encode form)
  | parameter n => .variant "Parameter" (.text n)
  | source n => .variant "Source" (.object [("name", .text n)])
  | member t n => .variant "Member" (.object [("target", encode t), ("member", .text n)])
  | unary o x => .variant "Unary" (.object [("op", .text o.tag), ("operand", encode x)])
  | binary o a b =>
    .variant "Binary" (.object [("op", .text o.tag), ("left", encode a), ("right", encode b)])
  | conditional t a b =>
    .variant "Conditional"
      (.object [("test", encode t), ("if_true", encode a), ("if_false", encode b)])
  | convert x k => .variant "Convert" (.object [("operand", encode x), ("kind", k.encode)])
  | quote x => .variant "Quote" (encode x)
  | lambda ps b => .variant "Lambda" (.object [("params", encodeNames ps), ("body", encode b)])
  | invoke f as =>
    .variant "Invoke" (.object [("lambda", encode f), ("args", .list (encodeItems as))])
  | record fs => .variant "Record" (.list (encodeFields fs))
  | list xs => .variant "List" (.list (encodeItems xs))
  | call o m r as =>
    .variant "Call" (.object [("owner", o.encode), ("method", .text m), ("receiver", encode r),
      ("args", .list (encodeItems as))])

/-- A list of trees as data. -/
def encodeItems : List Expr → List Data
  | [] => []
  | x :: xs => encode x :: encodeItems xs

/-- Named trees as pairs. -/
def encodeFields : List (String × Expr) → List Data
  | [] => []
  | (n, x) :: fs => .list [.text n, encode x] :: encodeFields fs

end

mutual

/-- The tree that the data stands for. -/
def decode : Data → Option Expr
  | .object [(tag, body)] =>
    match tag with
    | "Constant" => (Value.decode form body).map constant
    | "Parameter" => body.text?.map parameter
    | "Source" => do
      guard (body.isStructure 1)
      return source (← (← body.at? "name" 0).text?)
    | "Member" => do
      guard (body.isStructure 2)
      return member (← treeAt "target" 0 body) (← (← body.at? "member" 1).text?)
    | "Unary" => do
      guard (body.isStructure 2)
      let op ← decodeTag UnaryOp.all UnaryOp.tag (← body.at? "op" 0)
      return unary op (← treeAt "operand" 1 body)
    | "Binary" => do
      guard (body.isStructure 3)
      let op ← decodeTag BinaryOp.all BinaryOp.tag (← body.at? "op" 0)
      return binary op (← treeAt "left" 1 body) (← treeAt "right" 2 body)
    | "Conditional" => do
      guard (body.isStructure 3)
      return conditional (← treeAt "test" 0 body) (← treeAt "if_true" 1 body)
        (← treeAt "if_false" 2 body)
    | "Convert" => do
      guard (body.isStructure 2)
      return convert (← treeAt "operand" 0 body) (← Kind.decode (← body.at? "kind" 1))
    | "Quote" => (decode body).map quote
    | "Lambda" => do
      guard (body.isStructure 2)
      return lambda (← (← body.at? "params" 0).texts?) (← treeAt "body" 1 body)
    | "Invoke" => do
      guard (body.isStructure 2)
      return invoke (← treeAt "lambda" 0 body) (← treesAt "args" 1 body)
    | "Record" => (decodeFields body).map record
    | "List" => (decodeList body).map list
    | "Call" => do
      guard (body.isStructure 4)
      let owner ← Owner.decode (← body.at? "owner" 0)
      let method ← (← body.at? "method" 1).text?
      return call owner method (← treeAt "receiver" 2 body) (← treesAt "args" 3 body)
    | _ => none
  | _ => none

/-- The tree that is a part of a structure. -/
def treeAt (name : String) (index : Nat) : Data → Option Expr
  | .object fields => treeField name fields
  | .list items => treeItem index items
  | _ => none

/-- The tree in the first field of the name. -/
def treeField (name : String) : List (String × Data) → Option Expr
  | [] => none
  | (n, d) :: fields => if n == name then decode d else treeField name fields

/-- The tree at a position. -/
def treeItem : Nat → List Data → Option Expr
  | _, [] => none
  | 0, d :: _ => decode d
  | i + 1, _ :: items => treeItem i items

/-- The list of trees that is a part of a structure. -/
def treesAt (name : String) (index : Nat) : Data → Option (List Expr)
  | .object fields => treesField name fields
  | .list items => treesItem index items
  | _ => none

/-- The list of trees in the first field of the name. -/
def treesField (name : String) : List (String × Data) → Option (List Expr)
  | [] => none
  | (n, d) :: fields => if n == name then decodeList d else treesField name fields

/-- The list of trees at a position. -/
def treesItem : Nat → List Data → Option (List Expr)
  | _, [] => none
  | 0, d :: _ => decodeList d
  | i + 1, _ :: items => treesItem i items

/-- The trees of a list. -/
def decodeList : Data → Option (List Expr)
  | .list items => decodeItems items
  | _ => none

/-- The trees, if all are well formed. -/
def decodeItems : List Data → Option (List Expr)
  | [] => some []
  | d :: ds =>
    match decode d, decodeItems ds with
    | some x, some xs => some (x :: xs)
    | _, _ => none

/-- The named trees of a list of pairs. -/
def decodeFields : Data → Option (List (String × Expr))
  | .list items => decodePairs items
  | _ => none

/-- The named trees, if all are well-formed pairs of a name and a tree. -/
def decodePairs : List Data → Option (List (String × Expr))
  | [] => some []
  | .list [.text n, d] :: ds =>
    match decode d, decodePairs ds with
    | some x, some xs => some ((n, x) :: xs)
    | _, _ => none
  | _ => none

end

end Expr

/-- A lambda on its own, as data. -/
def Lambda.encode (l : Lambda) : Data :=
  .object [("params", encodeNames l.params), ("body", l.body.encode form)]

end QueryChain
