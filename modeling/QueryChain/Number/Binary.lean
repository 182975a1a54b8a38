import QueryChain.Number.Word

/-!
# Exact operations on binary floating point

Operations that are defined by the exact rational value `± m · 2 ^ e` of a finite number.

## Main definitions

* `Binary.ofInt`: the nearest number to an integer, ties to even
* `Binary.order`: the order of two numbers, undefined for the undefined number
* `Binary.remainder`: what is left of the dividend after whole divisors, with the dividend's sign
* `Binary.toWord?`: the word with exactly the number's value
-/

namespace QueryChain.Binary

open Float.Model (UnpackedFloat)
open Float.Model.UnpackedFloat (Sign)
open Float.Model.Format (binary64)

/-- The number nearest to an integer, ties to the even significand. -/
def ofInt (n : Int) : Float :=
  .ofModel (.ofInt n)

/-- The order of two numbers: the zeros are equal, and the undefined number has no order. -/
def order (x y : Float) : Option Ordering :=
  x.toModel.compare y.toModel

/-- The number that is neither finite nor infinite. -/
def undefined : Float :=
  .ofModel (.pack .notANumber)

/-- The remainder of the division rounded toward zero. It is exact and keeps the dividend's sign;
it is undefined for an infinite dividend and for a zero divisor. -/
def remainder (x y : Float) : Float :=
  match x.toModel.unpack, y.toModel.unpack with
  | .notANumber, _ => undefined
  | _, .notANumber => undefined
  | .infinity _, _ => undefined
  | _, .zero _ => undefined
  | _, .infinity _ => x
  | .zero _, .finite .. => x
  | .finite sign m e _, .finite _ n f _ =>
    let unit := min e f
    let left := (m * Nat.pow 2 (e - unit).toNat) % (n * Nat.pow 2 (f - unit).toNat)
    .ofModel (.pack (UnpackedFloat.round binary64 sign left unit))

/-- The magnitude with the given sign, as an integer. -/
def signed (sign : Sign) (magnitude : Nat) : Int :=
  match sign with
  | .positive => magnitude
  | .negative => -magnitude

/-- The word that has exactly the number's value. -/
def toWord? (x : Float) : Option Int64 :=
  match x.toModel.unpack with
  | .notANumber => none
  | .infinity _ => none
  | .zero _ => some 0
  | .finite sign m e _ =>
    if 0 ≤ e then
      fit? (signed sign (m * Nat.pow 2 e.toNat))
    else if m % Nat.pow 2 (-e).toNat = 0 then
      fit? (signed sign (m / Nat.pow 2 (-e).toNat))
    else
      none

end QueryChain.Binary
