import Mathlib
import QueryChain.Number.Binary

/-!
# Finite numbers

A finite number is put into the bits of its format unless its exponent is too large for them. A change
of sign does not touch the exponent, and the integers of a word are far below the largest numbers: so
these operations, which are not checked afterwards, lead from finite numbers to finite numbers.

## Main definitions

* `Binary.fits`: a number has a place in the format

## Main results

* `Binary.isFinite_pack`: a number is finite in the format iff it has a place there
* `Binary.isFinite_neg`, `Binary.isFinite_abs`: the sign does not matter
* `Binary.isFinite_ofInt`: the number nearest to a word is finite
-/

namespace QueryChain.Binary

open Float.Model (UnpackedFloat totalExponent)
open Float.Model.UnpackedFloat
open Float.Model.Format (binary64)

/-! ## The exponent in the format -/

/-- The number is finite, and its exponent is not too large for the format. -/
def fits : UnpackedFloat → Prop
  | .zero _ => True
  | .finite _ _ e _ => e < 972
  | _ => False

/-- The bits of a number denote a finite one iff not all bits of the exponent are set. -/
theorem isFinite_unpack (b : BitVec binary64.numBits) :
    (UnpackedFloat.unpack binary64 b).isFinite ↔ unpackExponent b ≠ -1#_ := by
  by_cases hones : unpackExponent b = -1#_
  · simp only [UnpackedFloat.unpack, if_pos hones]
    split <;> simp [UnpackedFloat.isFinite, hones]
  · simp only [UnpackedFloat.unpack, if_neg hones]
    refine iff_of_true ?_ hones
    split
    · split <;> rfl
    · rfl

/-- **A number is finite in the format iff it has a place there.** -/
theorem isFinite_pack (x : UnpackedFloat) : (Float.Model.pack x).isFinite ↔ fits x := by
  have hbits : (Float.Model.pack x).isFinite ↔
      unpackExponent (UnpackedFloat.pack binary64 x) ≠ -1#_ := isFinite_unpack _
  rw [hbits]
  cases x with
  | notANumber => simp [UnpackedFloat.pack, packedNaN, fits]
  | infinity s => simp [UnpackedFloat.pack, packedInfinity, fits]
  | zero s => simp [UnpackedFloat.pack, packedZero, fits]
  | finite s m e hm =>
    have hbias : binary64.exponentBias = 1023 := rfl
    have hplace : 2 ^ binary64.exponentBits ≤
        (e + binary64.exponentBias + binary64.mantissaBitsWithoutImplicit).toNat + 1 ↔ ¬ e < 972 := by
      simp only [hbias]
      omega
    simp only [UnpackedFloat.pack, hplace, fits]
    by_cases he : e < 972
    · rw [if_neg (not_not.mpr he)]
      refine iff_of_true ?_ he
      split
      · rw [unpackExponent_packComponents]
        intro hones
        have hvalue := congrArg BitVec.toNat hones
        simp [hbias] at hvalue
        omega
      · simp
    · simp [he, packedInfinity]

/-! ## Signs -/

/-- What is taken out of the format has a place there iff it is finite. -/
theorem isFinite_iff (x : Float) : x.isFinite ↔ fits x.toModel.unpack := by
  have hpack : Float.Model.pack x.toModel.unpack = x.toModel := by
    have hbits := pack_unpack_of_valid x.toModel.valid
    cases hx : x.toModel
    simp_all [Float.Model.pack, Float.Model.unpack]
  rw [← isFinite_pack, hpack]
  rfl

theorem isFinite_neg (x : Float) : (-x).isFinite = x.isFinite := by
  rw [Bool.eq_iff_iff, isFinite_iff x]
  change (Float.Model.pack x.toModel.unpack.neg).isFinite ↔ _
  rw [isFinite_pack]
  cases x.toModel.unpack <;> rfl

theorem isFinite_abs (x : Float) : x.abs.isFinite = x.isFinite := by
  rw [Bool.eq_iff_iff, isFinite_iff x]
  change (Float.Model.pack x.toModel.unpack.abs).isFinite ↔ _
  rw [isFinite_pack]
  cases x.toModel.unpack <;> rfl

/-! ## Integers -/

theorem mantissa_shiftRight_le (em : ExtendedMantissa) (n : Nat) :
    (em >>> n).mantissa ≤ em.mantissa := by
  change (n.repeat ExtendedMantissa.shiftRightOne em).mantissa ≤ _
  induction n with
  | zero => exact le_rfl
  | succ n ih => exact (Nat.div_le_self _ 2).trans ih

theorem roundedMantissa_le (em : ExtendedMantissa) : em.roundedMantissa ≤ em.mantissa + 1 := by
  rcases em with ⟨m, _ | _, _ | _⟩ <;>
    simp only [ExtendedMantissa.roundedMantissa, ExtendedMantissa.accuracy,
      Accuracy.roundToNearestEven] <;> omega

theorem targetExponent_eq (m : Nat) (e : Int) :
    binary64.targetExponent (totalExponent m e) = max ((m.log2 : Int) + 1 + e - 53) (-1074) := rfl

/-- Bits are dropped from a mantissa only as far as it is too long for the format. -/
theorem shiftToTargetExponent_le (m : Nat) (e : Int) (accuracy : Accuracy) :
    (shiftToTargetExponent binary64 m e accuracy).1.mantissa ≤ m ∧
      (shiftToTargetExponent binary64 m e accuracy).2 ≤ max (-1074) (m.log2 + e) := by
  constructor
  · refine (mantissa_shiftRight_le _ _).trans ?_
    rcases accuracy with _ | _ | _ | _ <;> exact le_rfl
  · simp only [shiftToTargetExponent, shiftToExponent, targetExponent_eq]
    omega

theorem log2_le_of_le_two_pow {m k : Nat} (h : m ≤ 2 ^ k) : m.log2 ≤ k := by
  rw [Nat.log2_eq_log_two]
  exact (Nat.log_mono_right h).trans_eq (Nat.log_pow one_lt_two k)

/-- A number with a mantissa of moderate length has a place in the format after rounding. -/
theorem fits_roundWithAccuracy {m : Nat} {e : Int} (hm : m < 2 ^ 128) (he : e ≤ 0) (sign : Sign)
    (accuracy : Accuracy) : fits (roundWithAccuracy binary64 sign m e accuracy) := by
  obtain ⟨hmantissa, hexponent⟩ := shiftToTargetExponent_le m e accuracy
  simp only [roundWithAccuracy]
  generalize shiftToTargetExponent binary64 m e accuracy = first at hmantissa hexponent
  -- rounding can add one to the mantissa, and then a bit of it is dropped again
  have hrounded : first.1.roundedMantissa ≤ 2 ^ 128 :=
    (roundedMantissa_le first.1).trans (by omega)
  obtain ⟨-, hfinal⟩ := shiftToTargetExponent_le first.1.roundedMantissa first.2 .exact
  have hlog := log2_le_of_le_two_pow hm.le
  have hlogRounded := log2_le_of_le_two_pow hrounded
  split
  · trivial
  · change _ < (972 : Int)
    omega

theorem fits_round {m : Nat} (hm : m < 2 ^ 64) (sign : Sign) :
    fits (UnpackedFloat.round binary64 sign m 0) := by
  simp only [UnpackedFloat.round, decreaseExponent, targetExponent_eq]
  generalize hshift : (0 - max ((m.log2 : Int) + 1 + 0 - 53) (-1074)).toNat = shift
  have hle : shift ≤ 52 := by omega
  refine fits_roundWithAccuracy ?_ (by omega) sign .exact
  calc m <<< shift = m * 2 ^ shift := Nat.shiftLeft_eq m shift
    _ < 2 ^ 64 * 2 ^ 64 := by gcongr <;> omega
    _ = 2 ^ 128 := by norm_num

/-- **An integer of the size of a word is finite** as a number. -/
theorem isFinite_ofInt {n : Int} (hn : n.natAbs < 2 ^ 64) : (ofInt n).isFinite := by
  change (Float.Model.pack (UnpackedFloat.ofInt binary64 n)).isFinite
  rw [isFinite_pack, UnpackedFloat.ofInt, UnpackedFloat.normalize]
  split
  · exact fits_round (by omega) _
  · trivial
  · exact fits_round (by omega) _

end QueryChain.Binary
