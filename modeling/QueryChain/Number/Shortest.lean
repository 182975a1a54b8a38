/-!
# Shortest decimals

The decimal with the fewest digits that reads back as a given binary number; of several, the one
nearest to the number. All tests are made in exact integer arithmetic on the window of reals that
round to the number.

## Main definitions

* `Decimal`: digits and a power of ten
* `Window`: a binary number with the bounds of the reals that round to it
* `shortest`: the fewest digits that read back
-/

namespace QueryChain

/-- The number `digits · 10 ^ exponent`. -/
structure Decimal where
  digits : Nat
  exponent : Int
deriving DecidableEq, Repr

/-- A positive rational `value / den` with the bounds `low / den` and `high / den` of the reals
that round to it. The bounds themselves round to it iff the window is closed. -/
structure Window where
  low : Nat
  value : Nat
  high : Nat
  den : Nat
  closed : Bool

namespace Window

/-- The window of `m · 2 ^ e`. The gap below is half as wide when `m` is the least significand of
its binade, and ties round to an even `m`. -/
def ofBinary (m : Nat) (e : Int) : Window :=
  let below := if m = Nat.pow 2 52 ∧ -1074 < e then 1 else 2
  let up := Nat.pow 2 (e - 2).toNat
  { low := (4 * m - below) * up
    value := 4 * m * up
    high := (4 * m + 2) * up
    den := Nat.pow 2 (2 - e).toNat
    closed := m % 2 == 0 }

/-- The window measured in units of `10 ^ p`. -/
def measure (w : Window) (p : Int) : Window :=
  let up := Nat.pow 10 (-p).toNat
  { w with low := w.low * up, value := w.value * up, high := w.high * up,
           den := w.den * Nat.pow 10 p.toNat }

/-- Whether the whole number `n` lies in the window. -/
def holds (w : Window) (n : Nat) : Bool :=
  if w.closed then w.low ≤ n * w.den && n * w.den ≤ w.high
  else w.low < n * w.den && n * w.den < w.high

/-- The whole number of the window that is nearest to the value; of two, the greater. -/
def nearest? (w : Window) : Option Nat :=
  let floor := w.value / w.den
  match w.holds floor, w.holds (floor + 1) with
  | true, true => if 2 * (w.value - floor * w.den) < w.den then some floor else some (floor + 1)
  | true, false => some floor
  | false, true => some (floor + 1)
  | false, false => none

end Window

/-- The number of decimal digits, none for zero. -/
def digitCount (n : Nat) : Nat :=
  if n = 0 then 0 else (Nat.toDigits 10 n).length

/-- The least `k` with `num / den < 10 ^ k`, for positive `num` and `den`. -/
def magnitude (num den : Nat) : Int :=
  if den ≤ num then digitCount (num / den) else 1 - digitCount ((den - 1) / num)

/-- The decimal of fewest digits in the window of `m · 2 ^ e`. Seventeen digits always suffice. -/
def shortest (m : Nat) (e : Int) : Decimal :=
  let w := Window.ofBinary m e
  let k := magnitude w.value w.den
  let found := (List.range 17).findSome? fun (i : Nat) =>
    let p : Int := k - (i + 1)
    (w.measure p).nearest?.map fun d => ⟨d, p⟩
  found.getD ⟨(w.measure (k - 17)).value / (w.measure (k - 17)).den, k - 17⟩

end QueryChain
