/-!
# Checked 64-bit integers

Arithmetic on signed 64-bit words that answers only when the exact result is a word.

## Main definitions

* `fit?`: the word that has a given integer value
* `Word.add?`, `Word.sub?`, `Word.mul?`, `Word.div?`, `Word.rem?`, `Word.neg?`, `Word.abs?`

## Main results

* `fit?_eq_some_iff`: a word is the fit of an integer iff it has that value
-/

namespace QueryChain

/-- The word that has the value `n`, if `n` is in range. -/
def fit? (n : Int) : Option Int64 :=
  if -0x8000000000000000 ≤ n ∧ n < 0x8000000000000000 then some (Int64.ofInt n) else none

theorem fit?_eq_some_iff {n : Int} {w : Int64} : fit? n = some w ↔ w.toInt = n := by
  unfold fit?
  constructor
  · intro h
    split at h
    · next hn =>
      obtain rfl := Option.some.inj h
      exact Int64.toInt_ofInt_of_le hn.1 hn.2
    · cases h
  · rintro rfl
    rw [if_pos ⟨Int64.le_toInt w, Int64.toInt_lt w⟩, Int64.ofInt_toInt]

theorem fit?_eq_none_iff {n : Int} : fit? n = none ↔
    n < -0x8000000000000000 ∨ 0x8000000000000000 ≤ n := by
  unfold fit?
  split <;> simp <;> omega

namespace Word

/-- The sum, if it is a word. -/
def add? (a b : Int64) : Option Int64 :=
  fit? (a.toInt + b.toInt)

/-- The difference, if it is a word. -/
def sub? (a b : Int64) : Option Int64 :=
  fit? (a.toInt - b.toInt)

/-- The product, if it is a word. -/
def mul? (a b : Int64) : Option Int64 :=
  fit? (a.toInt * b.toInt)

/-- The quotient rounded toward zero, if it is a word. The divisor is not zero. -/
def div? (a b : Int64) : Option Int64 :=
  fit? (a.toInt.tdiv b.toInt)

/-- The remainder that goes with the quotient rounded toward zero, if that quotient is a word.
The divisor is not zero. -/
def rem? (a b : Int64) : Option Int64 :=
  (div? a b).bind fun _ => fit? (a.toInt.tmod b.toInt)

/-- The negative, if it is a word. -/
def neg? (a : Int64) : Option Int64 :=
  fit? (-a.toInt)

/-- The magnitude, if it is a word. -/
def abs? (a : Int64) : Option Int64 :=
  fit? a.toInt.natAbs

end Word

end QueryChain
