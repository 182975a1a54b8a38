import QueryChain.Value.Basic
import QueryChain.Number.Layout
import QueryChain.Text.Quoted

/-!
# Rendered values

## Main definitions

* `Value.render`: the text of a value, as it stands in a rendered expression
-/

namespace QueryChain.Value

mutual

/-- The text of a value. -/
def render : Value → String
  | null => "null"
  | bool b => toString b
  | int n => toString n.toInt
  | float x => NumberFormat.literal.render x
  | text s => Text.quoted s
  | list items => "[" ++ ", ".intercalate (renderItems items) ++ "]"
  | record fields => "\x7b" ++ ",".intercalate (renderFields fields) ++ " \x7d"

/-- The texts of the items of a list. -/
def renderItems : List Value → List String
  | [] => []
  | v :: vs => render v :: renderItems vs

/-- The texts of the fields of a record, each behind a blank. -/
def renderFields : List (String × Value) → List String
  | [] => []
  | (name, v) :: fs => (" " ++ name ++ ": " ++ render v) :: renderFields fs

end

end QueryChain.Value
