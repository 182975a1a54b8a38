import QueryChain.Number.Shortest

/-!
# Number text

The text of a binary floating-point number: its shortest decimal, laid out positionally or with an
exponent as a format says.

## Main definitions

* `NumberFormat`: which numbers are positional, and whether a whole number keeps its point
* `NumberFormat.render`: the text of a number
* `NumberFormat.literal`, `NumberFormat.plain`: the formats of rendered values and of numbers
  turned into text
-/

namespace QueryChain

/-- The choices left open by the digits. The point position of `0.d₁d₂… · 10 ^ k` is `k`. -/
structure NumberFormat where
  /-- The point positions that are written without an exponent. -/
  positional : Int → Bool
  /-- Whether a whole positional number ends in a point and a zero. -/
  keepPoint : Bool

namespace NumberFormat

/-- Numbers in rendered values: positional from one ten-thousandth up to `10 ^ 16`, and a whole
number shows that it is not an integer. -/
def literal : NumberFormat where
  positional k := -3 ≤ k && k ≤ 16
  keepPoint := true

/-- Numbers turned into text: always positional, whole numbers without a point. -/
def plain : NumberFormat where
  positional _ := true
  keepPoint := false

/-- Digits with the point after the first `k` of them, filled up with zeros on either side. -/
def positionalText (fmt : NumberFormat) (ds : List Char) (k : Int) : List Char :=
  if k ≤ 0 then
    '0' :: '.' :: (List.replicate (-k).toNat '0' ++ ds)
  else if ds.length ≤ k.toNat then
    ds ++ List.replicate (k.toNat - ds.length) '0' ++ (if fmt.keepPoint then ['.', '0'] else [])
  else
    ds.take k.toNat ++ '.' :: ds.drop k.toNat

/-- One digit before the point, the others behind it, and the exponent. -/
def exponentText (ds : List Char) (k : Int) : List Char :=
  let exponent := (toString (k - 1)).toList
  match ds with
  | [] => []
  | [d] => d :: 'e' :: exponent
  | d :: rest => d :: '.' :: (rest ++ 'e' :: exponent)

/-- The text of a positive decimal; zeros at the end of its digits do not count as digits. -/
def decimalText (fmt : NumberFormat) (d : Decimal) : List Char :=
  let all := Nat.toDigits 10 d.digits
  let k := d.exponent + all.length
  let ds := (all.reverse.dropWhile (· == '0')).reverse
  if fmt.positional k then fmt.positionalText ds k else exponentText ds k

/-- The text of a number. -/
def render (fmt : NumberFormat) (x : Float) : String :=
  match x.toModel.unpack with
  | .notANumber => "NaN"
  | .infinity sign => mark sign ++ "inf"
  | .zero sign => mark sign ++ (if fmt.keepPoint then "0.0" else "0")
  | .finite sign m e _ => mark sign ++ String.ofList (fmt.decimalText (shortest m e))
where
  /-- A minus before a negative number. -/
  mark : Float.Model.UnpackedFloat.Sign → String
    | .positive => ""
    | .negative => "-"

end NumberFormat

end QueryChain
