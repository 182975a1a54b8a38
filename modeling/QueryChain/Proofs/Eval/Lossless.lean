import QueryChain.Proofs.Eval.Conversion
import QueryChain.Proofs.Number.Decimals
import QueryChain.Proofs.Number.Exact

/-!
# Conversions without loss

A converted value can be converted back as long as nothing of it was lost. Truth values and integers
come back from their texts, and integers come back from numbers, with one exception: an integer with
more significant bits than a number has is rounded without an error.

## Main definitions

* `Value.Rounds`: a conversion rounds an integer

## Main results

* `Value.Converts.convert_back_iff`: the conversions that can be taken back
* `Value.convert_recovers`: what a conversion keeps
-/

namespace QueryChain.Value

variable {v w : Value} {k : Kind}

/-- **The conversion rounds an integer:** it makes a number of it, and the significant bits of the
integer do not fit into one. -/
def Rounds (v : Value) (k : Kind) : Prop :=
  ∃ n : Int64, v = .int n ∧ k = .float ∧ ¬ Binary.IsExact n.toInt

theorem rounds_int_iff {n : Int64} : (int n).Rounds k ↔ k = .float ∧ ¬ Binary.IsExact n.toInt := by
  simp [Rounds]

theorem readBool?_text (b : Bool) : readBool? (if b then "true" else "false") = some b := by
  cases b <;> rfl

/-- **The conversions that can be taken back:** all of a truth value or an integer but those that
round. -/
theorem Converts.convert_back_iff (hv : v.kind = .bool ∨ v.kind = .int) (h : v.Converts k w) :
    w.convert v.kind = .ok v ↔ ¬ v.Rounds k := by
  cases h with
  | textOfBool b =>
    have hback : (text (if b then "true" else "false")).Converts .bool (bool b) :=
      .boolOfText (readBool?_text b)
    refine iff_of_true (convert_eq_ok_iff.mpr (.inr hback)) ?_
    rintro ⟨n, hn, -⟩
    cases hn
  | textOfInt n =>
    have hback : (text (toString n.toInt)).Converts .int (int n) :=
      .intOfText (readInteger?_trim_toString n)
    refine iff_of_true (convert_eq_ok_iff.mpr (.inr hback)) ?_
    rw [rounds_int_iff]
    rintro ⟨hk, -⟩
    cases hk
  | floatOfInt n =>
    have hback : (float (Binary.ofInt n.toInt)).convert .int = .ok (int n) ↔
        Binary.toWord? (Binary.ofInt n.toInt) = some n := by
      rw [convert_eq_ok_iff]
      constructor
      · rintro (⟨-, hn⟩ | hn)
        · cases hn
        · cases hn with
          | intOfFloat h => exact h
      · intro h
        exact .inr (.intOfFloat h)
    rw [rounds_int_iff]
    change (float (Binary.ofInt n.toInt)).convert .int = .ok (int n) ↔ _
    rw [hback, Binary.toWord?_ofInt_iff]
    simp
  | intOfFloat | intOfText | floatOfText | boolOfText | textOfFloat => simp [kind] at hv

/-- **What a conversion keeps.** To the erased kind, and of null, a conversion gives the value itself.
Any other conversion that succeeds gives a value of the kind, which a second one leaves as it is; and a
truth value or an integer comes back from it by the conversion to its own kind, unless an integer was
rounded to a number. -/
theorem convert_recovers (h : v.convert k = .ok w) :
    (k = .any ∨ v = .null → w = v) ∧
    (k ≠ .any → v ≠ .null → w.kind = k ∧ w.convert k = .ok w) ∧
    (v.kind = .bool ∨ v.kind = .int → (w.convert v.kind = .ok v ↔ ¬ v.Rounds k)) := by
  refine ⟨fun hsame => ?_, fun hany hnull => ⟨?_, convert_of_convert h⟩, fun hv => ?_⟩
  · rcases convert_eq_ok_iff.mp h with ⟨-, hw⟩ | hw
    · exact hw
    · obtain ⟨hany, hnull, -⟩ := hw.changes
      exact (hsame.elim hany hnull).elim
  · rcases convert_eq_ok_iff.mp h with ⟨hkept, rfl⟩ | hw
    · exact (hkept.resolve_left hany).resolve_left hnull
    · exact hw.kind_eq
  · rcases convert_eq_ok_iff.mp h with ⟨hkept, rfl⟩ | hw
    · refine iff_of_true (convert_eq_ok_iff.mpr (.inl ⟨.inr (.inr rfl), rfl⟩)) ?_
      rintro ⟨n, rfl, rfl, -⟩
      simp [kind] at hkept
    · exact hw.convert_back_iff hv

/-- The least integer comes back from its text, and one of 54 bits that ends in a zero from a number. -/
theorem convert_recovers_extremes :
    (int (-9223372036854775808)).convert .text = .ok (text "-9223372036854775808") ∧
    (text "-9223372036854775808").convert .int = .ok (int (-9223372036854775808)) ∧
    ∃ x, (int 9007199254740994).convert .float = .ok (float x) ∧
      (float x).convert .int = .ok (int 9007199254740994) := by
  have htext : (int (-9223372036854775808)).convert .text = .ok (text "-9223372036854775808") := rfl
  have hfloat : (int 9007199254740994).convert .float =
      .ok (float (Binary.ofInt (9007199254740994 : Int64).toInt)) := rfl
  have hexact : Binary.IsExact (9007199254740994 : Int64).toInt :=
    ⟨4503599627370497, 1, by decide, by decide⟩
  refine ⟨htext, ((convert_recovers htext).2.2 (.inr rfl)).mpr ?_, _, hfloat,
    ((convert_recovers hfloat).2.2 (.inr rfl)).mpr ?_⟩
  · simp [rounds_int_iff]
  · exact fun hrounds => (rounds_int_iff.mp hrounds).2 hexact

/-- **An integer of 54 significant bits is rounded:** the conversion to a number succeeds, and the
conversion back gives another integer. -/
theorem convert_oddAbove :
    ∃ w, (int 9007199254740993).convert .float = .ok w ∧
      w.convert .int = .ok (int 9007199254740992) :=
  ⟨_, rfl, rfl⟩

end QueryChain.Value
