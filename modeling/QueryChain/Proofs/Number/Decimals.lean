import QueryChain.Number.Reading
import QueryChain.Text.Blank

/-!
# Integers that are written and read again

The decimal text of an integer is a minus, if it is negative, and the digits of its magnitude. There are
no blanks in it that could be cut off, and it is read as the same integer.

## Main results

* `Text.trim_of_not_blank`: a text without blanks stays as it is
* `Reading.toList_toString`: the characters of an integer
* `readInteger?_trim_toString`: the text of a word is read as this word
-/

namespace QueryChain

namespace Text

theorem dropBlanks_of_not_blank {cs : List Char} (h : ∀ c ∈ cs, blank.contains c = false) :
    dropBlanks cs = cs := by
  cases cs with
  | nil => rfl
  | cons c cs => exact List.dropWhile_cons_of_neg (by simp [h c List.mem_cons_self])

/-- A text without blanks has none to be cut off. -/
theorem trim_of_not_blank {s : String} (h : ∀ c ∈ s.toList, blank.contains c = false) :
    trim s = s := by
  have hreverse : ∀ c ∈ s.toList.reverse, blank.contains c = false := fun c hc =>
    h c (List.mem_reverse.mp hc)
  rw [trim, dropBlanks_of_not_blank h, dropBlanks_of_not_blank hreverse, List.reverse_reverse,
    String.ofList_toList]

theorem not_blank_of_isDigit {c : Char} (h : c.isDigit) : blank.contains c = false := by
  have hcode : 48 ≤ c.toNat ∧ c.toNat ≤ 57 := Char.isDigit_iff_toNat.mp h
  have hranges : ∀ r ∈ blank.ranges, 57 < r.1 ∨ r.2 < 48 := by decide
  rw [Bool.eq_false_iff, Ne, CodeSet.contains_iff]
  rintro ⟨r, hr, hlow, hhigh⟩
  rcases hranges r hr with hafter | hbefore
  · omega
  · omega

end Text

namespace Reading

theorem digitsValue_toDigits (n : Nat) : digitsValue (Nat.toDigits 10 n) = n :=
  Nat.ofDigitChars_eq_foldl.symm.trans Nat.ofDigitChars_ten_toDigits

theorem splitSign_of_isDigit {cs : List Char} (h : ∀ c ∈ cs, c.isDigit) :
    splitSign cs = (false, cs) := by
  unfold splitSign
  split
  · exact absurd (h _ List.mem_cons_self) (by decide)
  · exact absurd (h _ List.mem_cons_self) (by decide)
  · rfl

theorem isDigit_of_mem_toDigits {m : Nat} : ∀ c ∈ Nat.toDigits 10 m, c.isDigit :=
  fun _ => Nat.isDigit_of_mem_toDigits (by decide) (by decide)

/-- The digits of a number are one or more digits. -/
theorem toDigits_accepted (m : Nat) :
    ((Nat.toDigits 10 m).isEmpty || !(Nat.toDigits 10 m).all Char.isDigit) = false := by
  rw [Bool.or_eq_false_iff, List.isEmpty_eq_false_iff, Bool.not_eq_false', List.all_eq_true]
  exact ⟨Nat.toDigits_ne_nil, isDigit_of_mem_toDigits⟩

theorem readSigned?_toDigits (m : Nat) : readSigned? (Nat.toDigits 10 m) = some (m : Int) := by
  rw [readSigned?, splitSign_of_isDigit isDigit_of_mem_toDigits]
  simp only [toDigits_accepted, digitsValue_toDigits]
  rfl

theorem readSigned?_minus (m : Nat) : readSigned? ('-' :: Nat.toDigits 10 m) = some (-m : Int) := by
  rw [readSigned?, splitSign]
  simp only [toDigits_accepted, digitsValue_toDigits]
  rfl

/-- The characters of an integer: a minus if it is negative, and the digits of its magnitude. -/
theorem toList_toString (n : Int) :
    (toString n).toList = Nat.toDigits 10 n.natAbs ∧ n = n.natAbs ∨
      (toString n).toList = '-' :: Nat.toDigits 10 n.natAbs ∧ n = -n.natAbs := by
  rw [Int.toString_eq_repr, Int.repr_eq_if]
  split
  · rename_i hpos
    refine .inl ⟨?_, by omega⟩
    have hmagnitude : n.toNat = n.natAbs := by omega
    rw [Nat.toList_repr, hmagnitude]
  · refine .inr ⟨?_, by omega⟩
    have hmagnitude : (-n).toNat = n.natAbs := by omega
    rw [String.toList_append, Nat.toList_repr, hmagnitude]
    rfl

end Reading

/-- **The text of a word is read as this word,** after the blanks around it are cut off. -/
theorem readInteger?_trim_toString (n : Int64) :
    readInteger? (Text.trim (toString n.toInt)) = some n := by
  have hfit : fit? n.toInt = some n := fit?_eq_some_iff.mpr rfl
  have hdigits : ∀ c ∈ Nat.toDigits 10 n.toInt.natAbs, Text.blank.contains c = false := fun c hc =>
    Text.not_blank_of_isDigit (Reading.isDigit_of_mem_toDigits c hc)
  rcases Reading.toList_toString n.toInt with ⟨htext, hvalue⟩ | ⟨htext, hvalue⟩
  · rw [Text.trim_of_not_blank (htext ▸ hdigits), readInteger?, htext, Reading.readSigned?_toDigits,
      ← hvalue, Option.bind_some, hfit]
  · have hminus : Text.blank.contains '-' = false := by decide
    rw [Text.trim_of_not_blank (htext ▸ List.forall_mem_cons.mpr ⟨hminus, hdigits⟩), readInteger?,
      htext, Reading.readSigned?_minus, ← hvalue, Option.bind_some, hfit]

end QueryChain
