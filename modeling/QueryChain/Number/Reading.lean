import QueryChain.Number.Shortest
import QueryChain.Number.Word

/-!
# Reading numbers

Integers and decimal numbers written with ASCII digits. A number takes the whole text.

## Main definitions

* `readInteger?`: an optional sign and digits, within the range of a word
* `readNumber?`: an optional sign, then digits with an optional point and exponent, or a word for
  an infinite or undefined number
-/

namespace QueryChain.Reading

/-- The number that a row of digits denotes. -/
def digitsValue (ds : List Char) : Nat :=
  ds.foldl (fun n c => 10 * n + (c.toNat - '0'.toNat)) 0

/-- Whether the text starts with a minus, and the text after its sign. -/
def splitSign : List Char → Bool × List Char
  | '-' :: rest => (true, rest)
  | '+' :: rest => (false, rest)
  | rest => (false, rest)

/-- The integer of an optional sign and one or more digits. -/
def readSigned? (cs : List Char) : Option Int :=
  let (negative, ds) := splitSign cs
  if ds.isEmpty || !ds.all Char.isDigit then none
  else if negative then some (-(digitsValue ds : Int))
  else some (digitsValue ds)

/-- The exponent after the digits of a number: none, or a mark and a signed integer. -/
def readExponent? : List Char → Option Int
  | [] => some 0
  | c :: rest => if c = 'e' ∨ c = 'E' then readSigned? rest else none

/-- The digits after a leading point, and what follows them. -/
def splitFraction : List Char → List Char × List Char
  | '.' :: rest => rest.span Char.isDigit
  | rest => ([], rest)

/-- The number nearest to `n · 10 ^ scale`, ties to even. From `10 ^ 309` on it is infinite, and
below `10 ^ (-324)` it is zero, whatever the digits are. -/
def nearest (n : Nat) (scale : Int) : Float :=
  let position : Int := digitCount n + scale
  if n = 0 ∨ position < -323 then .ofModel (.pack (.zero .positive))
  else if 309 < position then .ofModel (.pack (.infinity .positive))
  else Float.ofScientific n (scale < 0) scale.natAbs

/-- A number of digits with an optional point and an optional exponent. At least one digit stands
before the exponent. -/
def readDecimal? (cs : List Char) : Option Float :=
  let (whole, afterWhole) := cs.span Char.isDigit
  let (fraction, afterFraction) := splitFraction afterWhole
  let ds := whole ++ fraction
  if ds.isEmpty then none
  else
    (readExponent? afterFraction).map fun exponent =>
      nearest (digitsValue ds) (exponent - fraction.length)

/-- A word for an infinite or undefined number, in any mixture of cases. -/
def readWord? (cs : List Char) : Option Float :=
  let word := String.ofList (cs.map Char.toLower)
  if word = "inf" ∨ word = "infinity" then some (.ofModel (.pack (.infinity .positive)))
  else if word = "nan" then some (.ofModel (.pack .notANumber))
  else none

end QueryChain.Reading

namespace QueryChain

open Reading

/-- The word written as an optional sign and digits. -/
def readInteger? (s : String) : Option Int64 :=
  (readSigned? s.toList).bind fit?

/-- The number nearest to the written one, ties to even; too large a number reads as infinite. -/
def readNumber? (s : String) : Option Float :=
  let (negative, body) := splitSign s.toList
  ((readDecimal? body).or (readWord? body)).map fun x => if negative then -x else x

end QueryChain
