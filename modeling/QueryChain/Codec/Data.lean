/-!
# Plain data

The neutral data that trees are written to and read from: null, truth values, numbers, text, lists
and objects.

## Main definitions

* `Data`: plain data
* `Data.variant`: a tagged payload, as an object of one field
* `Data.text?`, `Data.texts?`: text and lists of text
* `Data.at?`: a part of a structure, which is an object of named parts or a list in their order
-/

namespace QueryChain

/-- Plain data. Integers are told from other numbers. -/
inductive Data where
  | null
  | bool (b : Bool)
  | int (n : Int)
  | float (x : Float)
  | text (s : String)
  | list (items : List Data)
  | object (fields : List (String × Data))
deriving Inhabited

namespace Data

/-- A payload under its tag. -/
def variant (tag : String) (payload : Data) : Data :=
  object [(tag, payload)]

/-- The text, of a text. -/
def text? : Data → Option String
  | text s => some s
  | _ => none

/-- The texts, of a list of texts. -/
def texts? : Data → Option (List String)
  | list items => items.mapM text?
  | _ => none

/-- Whether the data can be a structure of `count` parts. An object may have other fields too. -/
def isStructure (count : Nat) : Data → Bool
  | object _ => true
  | list items => items.length == count
  | _ => false

/-- The part of a structure that is called `name`, or stands at `index` in a list of the parts. -/
def at? (d : Data) (name : String) (index : Nat) : Option Data :=
  match d with
  | object fields => (fields.find? (·.1 == name)).map (·.2)
  | list items => items[index]?
  | _ => none

end Data

end QueryChain
