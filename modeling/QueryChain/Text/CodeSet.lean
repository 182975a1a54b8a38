/-!
# Sets of code points

A character class is a list of inclusive ranges of code points.

## Main definitions

* `CodeSet`, `CodeSet.contains`: a class and its membership test

## Main results

* `CodeSet.contains_iff`: a character belongs to a class iff some range spans its code point
-/

namespace QueryChain.Text

/-- A character class, as inclusive ranges of code points. -/
structure CodeSet where
  ranges : List (Nat × Nat)

/-- Whether some range of the class spans the character's code point. -/
def CodeSet.contains (s : CodeSet) (c : Char) : Bool :=
  s.ranges.any fun r => r.1 ≤ c.toNat && c.toNat ≤ r.2

theorem CodeSet.contains_iff {s : CodeSet} {c : Char} :
    s.contains c = true ↔ ∃ r ∈ s.ranges, r.1 ≤ c.toNat ∧ c.toNat ≤ r.2 := by
  simp [contains]

end QueryChain.Text
