/-!
# Fault codes

A fault code packs a group into the high half of a word and a number within the group into the low
half.

## Main definitions

* `FaultGroup`: the groups
* `FaultCode`: packed codes, with their parts and their texts
-/

namespace QueryChain

/-- The part of a system that a fault comes from. -/
inductive FaultGroup where
  | common
  | client
  | sql
  | network
  | compile
deriving DecidableEq, Repr

namespace FaultGroup

/-- The number of a group. -/
def number : FaultGroup → UInt16
  | common => 1
  | client => 3
  | sql => 4
  | network => 11
  | compile => 30

/-- The group of a number; an unknown number reads as `common`. -/
def ofNumber (n : UInt16) : FaultGroup :=
  if n = 3 then client
  else if n = 4 then sql
  else if n = 11 then network
  else if n = 30 then compile
  else common

/-- The name of a group. -/
def name : FaultGroup → String
  | common => "Common"
  | client => "Client"
  | sql => "Sql"
  | network => "Network"
  | compile => "Compile"

/-- The name of a group in a code's text. -/
def label : FaultGroup → String
  | common => "COMMON"
  | client => "CLIENT"
  | sql => "SQL"
  | network => "NETWORK"
  | compile => "COMPILE"

end FaultGroup

/-- A packed code. -/
structure FaultCode where
  raw : UInt32
deriving DecidableEq, Repr

namespace FaultCode

/-- The code of a number within a group. -/
def pack (g : FaultGroup) (code : UInt16) : FaultCode :=
  ⟨g.number.toUInt32 <<< 16 ||| code.toUInt32⟩

/-- The group. -/
def group (c : FaultCode) : FaultGroup :=
  .ofNumber (c.raw >>> 16).toUInt16

/-- The number within the group. -/
def code (c : FaultCode) : UInt16 :=
  c.raw.toUInt16

/-- The code of defects that a caller cannot mend. -/
def internal : FaultCode :=
  pack .common 0xFFFF

/-- Group and number as text. -/
def render (c : FaultCode) : String :=
  "QRL-" ++ c.group.label ++ "-" ++ toString c.code.toNat

/-- The packed code in hexadecimal, in full width. -/
def hex (c : FaultCode) : String :=
  let ds := Nat.toDigits 16 c.raw.toNat
  "0x" ++ String.ofList (List.replicate (8 - ds.length) '0' ++ ds)

end FaultCode

end QueryChain
