import QueryChain.Codec.Data
import QueryChain.Value.Basic

/-!
# Values as data

A value is written as its variant. How a number is written is left to the layer below, and given with
the value.

## Main definitions

* `NumberForm`: the written form of numbers
* `Kind.encode`, `Kind.decode`: kinds by name
* `Value.encode`, `Value.decode`: values
-/

namespace QueryChain

namespace Kind

/-- The name under which a kind is written. -/
def tag : Kind → String
  | any => "Any"
  | null => "Null"
  | bool => "Bool"
  | int => "Int"
  | float => "Float"
  | text => "Text"
  | list => "List"
  | record => "Record"

/-- All kinds. -/
def all : List Kind :=
  [any, null, bool, int, float, text, list, record]

end Kind

/-- The alternative that the data names: its tag as a text, or as an object with a null payload. -/
def decodeTag {α : Type} (alternatives : List α) (tag : α → String) (d : Data) : Option α :=
  match d with
  | .text s => alternatives.find? (tag · == s)
  | .object [(s, .null)] => alternatives.find? (tag · == s)
  | _ => none

/-- The kind as data. -/
def Kind.encode (k : Kind) : Data :=
  .text k.tag

/-- The kind that the data names. -/
def Kind.decode : Data → Option Kind :=
  decodeTag Kind.all Kind.tag

/-- **The written form of numbers:** how a number is written, and the number that data is read as. -/
structure NumberForm where
  write : Float → Data
  read? : Data → Option Float

namespace NumberForm

/-- A finite number is read as it was written. -/
def KeepsFinite (form : NumberForm) : Prop :=
  ∀ x : Float, x.isFinite → form.read? (form.write x) = some x

/-- A number that is not finite has no written form that can be read. -/
def DropsOthers (form : NumberForm) : Prop :=
  ∀ x : Float, ¬ x.isFinite → form.read? (form.write x) = none

end NumberForm

namespace Value

variable (form : NumberForm)

mutual

/-- The value as data. -/
def encode : Value → Data
  | null => .text "Null"
  | bool b => .variant "Bool" (.bool b)
  | int n => .variant "Int" (.int n.toInt)
  | float x => .variant "Float" (form.write x)
  | text s => .variant "Text" (.text s)
  | list items => .variant "List" (.list (encodeItems items))
  | record fields => .variant "Record" (.list (encodeFields fields))

/-- The items of a list as data. -/
def encodeItems : List Value → List Data
  | [] => []
  | v :: vs => encode v :: encodeItems vs

/-- The fields of a record as pairs. -/
def encodeFields : List (String × Value) → List Data
  | [] => []
  | (n, v) :: fs => .list [.text n, encode v] :: encodeFields fs

end

mutual

/-- The value that the data stands for. Integers are in range. -/
def decode : Data → Option Value
  | .text "Null" => some null
  | .object [(tag, payload)] =>
    match tag, payload with
    | "Null", .null => some null
    | "Bool", .bool b => some (bool b)
    | "Int", .int n => (fit? n).map int
    | "Float", x => (form.read? x).map float
    | "Text", .text s => some (text s)
    | "List", .list items => (decodeItems items).map list
    | "Record", .list items => (decodeFields items).map record
    | _, _ => none
  | _ => none

/-- The values of a list. -/
def decodeItems : List Data → Option (List Value)
  | [] => some []
  | d :: ds =>
    match decode d, decodeItems ds with
    | some v, some vs => some (v :: vs)
    | _, _ => none

/-- The fields of a record, each a pair of a name and a value. -/
def decodeFields : List Data → Option (List (String × Value))
  | [] => some []
  | .list [.text n, d] :: ds =>
    match decode d, decodeFields ds with
    | some v, some vs => some ((n, v) :: vs)
    | _, _ => none
  | _ => none

end

end Value

end QueryChain
